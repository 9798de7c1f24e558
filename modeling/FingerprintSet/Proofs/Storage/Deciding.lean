import FingerprintSet.Proofs.Storage.Directories

/-!
# Work that decides

Reading damaged files is work that looks at a volume and fails as soon as it does not find what
it expects.  `Decides` says for such work exactly when it has a result: if what it looks for is
there.  A refused step apart, nothing else makes it fail.
-/

namespace FingerprintSet

open Storage Volume

namespace Storage

variable {ε δ α β : Type}

/-- Work that only looks, and that has a result exactly if it finds something, unless a step is
refused.  A result is always right. -/
def Decides (work : ExceptT ε (StateM Volume) α) (before : Volume) (finds : Prop)
    (good : α → Volume → Prop) : Prop :=
  Meets work before (fun a after => Changes Nowhere NoFile before after ∧ finds ∧ good a after)
    fun _ after => Changes Nowhere NoFile before after ∧ (before.Quiet → ¬finds)

/-- Work that only looks, and that never has a result. -/
def Fails (work : ExceptT ε (StateM Volume) α) (before : Volume) : Prop :=
  Meets work before (fun _ _ => False) fun _ after => Changes Nowhere NoFile before after

theorem Fails.bind {work : ExceptT ε (StateM Volume) α} {next : α → ExceptT ε (StateM Volume) β}
    {before : Volume} (fails : Fails work before) : Fails (work >>= next) before := by
  rw [Fails] at fails ⊢
  exact Meets.bind fails fun _ _ impossible => impossible.elim

theorem Fails.adapt {work : ExceptT δ (StateM Volume) α} {rename : δ → ε} {before : Volume}
    (fails : Fails work before) : Fails (ExceptT.adapt rename work) before :=
  Meets.adapt fails

namespace Decides

variable {work : ExceptT ε (StateM Volume) α} {before : Volume} {finds : Prop}
  {good : α → Volume → Prop}

theorem of_runs (runs : Runs work before Nowhere NoFile good) (found : finds) :
    Decides work before finds good :=
  Meets.mono runs (fun _ _ ⟨changes, holds⟩ => ⟨changes, found, holds⟩)
    fun _ _ ⟨changes, refused⟩ => ⟨changes, fun quiet => absurd quiet refused⟩

theorem of_fails (fails : Fails work before) (missing : ¬finds) :
    Decides work before finds good :=
  Meets.mono fails (fun _ _ impossible => impossible.elim) fun _ _ changes =>
    ⟨changes, fun _ => missing⟩

theorem pure {a : α} (found : finds) (holds : good a before) :
    Decides (Pure.pure a : ExceptT ε (StateM Volume) α) before finds good :=
  Meets.of_ok rfl ⟨.refl before, found, holds⟩

theorem throw {error : ε} (missing : ¬finds) :
    Decides (throw error : ExceptT ε (StateM Volume) α) before finds good :=
  Meets.of_error rfl ⟨.refl before, fun _ => missing⟩

theorem mono {more : Prop} {moreGood : α → Volume → Prop}
    (decides : Decides work before finds good) (same : finds ↔ more)
    (sub : ∀ a after, Changes Nowhere NoFile before after → finds → good a after →
      moreGood a after) : Decides work before more moreGood :=
  Meets.mono decides
    (fun a after ⟨changes, found, holds⟩ =>
      ⟨changes, same.mp found, sub a after changes found holds⟩)
    fun _ _ ⟨changes, missing⟩ => ⟨changes, fun quiet found => missing quiet (same.mpr found)⟩

/-- What work comes to later decides as before. -/
theorem since {start : Volume} (changes : Changes Nowhere NoFile start before)
    (decides : Decides work before finds good) :
    Meets work before (fun a after => Changes Nowhere NoFile start after ∧ finds ∧ good a after)
      fun _ after => Changes Nowhere NoFile start after ∧ (start.Quiet → ¬finds) :=
  Meets.mono decides (fun _ _ ⟨more, holds⟩ => ⟨changes.trans more, holds⟩)
    fun _ _ ⟨more, missing⟩ => ⟨changes.trans more, fun quiet => missing (changes.quiet quiet)⟩

/-- Work in two parts: the first decides something that is needed, the second the rest. -/
theorem bind {next : α → ExceptT ε (StateM Volume) β} {needed : Prop}
    {middle : α → Volume → Prop} {good : β → Volume → Prop}
    (first : Decides work before needed middle) (needs : finds → needed)
    (second : ∀ a after, Changes Nowhere NoFile before after → needed → middle a after →
      Decides (next a) after finds good) : Decides (work >>= next) before finds good := by
  have goesOn : Meets work before
      (fun a after => Changes Nowhere NoFile before after ∧ needed ∧ middle a after)
      fun _ after => Changes Nowhere NoFile before after ∧ (before.Quiet → ¬finds) :=
    Meets.mono first (fun _ _ holds => holds) fun _ _ ⟨changes, missing⟩ =>
      ⟨changes, fun quiet found => missing quiet (needs found)⟩
  exact Meets.bind goesOn fun a after ⟨changes, there, holds⟩ =>
    (second a after changes there holds).since changes

theorem adapt {work : ExceptT δ (StateM Volume) α} {rename : δ → ε}
    (decides : Decides work before finds good) :
    Decides (ExceptT.adapt rename work) before finds good :=
  Meets.adapt decides

/-- Work that finds what it looks for fails only where it is refused. -/
theorem runs (decides : Decides work before finds good) (found : finds) :
    Runs work before Nowhere NoFile good :=
  Meets.mono decides (fun _ _ ⟨changes, _, holds⟩ => ⟨changes, holds⟩)
    fun _ _ ⟨changes, missing⟩ => ⟨changes, fun quiet => missing quiet found⟩

/-- What is found makes a result, unless a step is refused. -/
theorem ok (decides : Decides work before finds good) (quiet : before.Quiet) (found : finds) :
    ∃ a after, work before = (.ok a, after) ∧ Changes Nowhere NoFile before after ∧
      good a after :=
  (decides.runs found).of_quiet quiet

/-- What is missing makes an error, whatever the schedule is. -/
theorem error (decides : Decides work before finds good) (missing : ¬finds) :
    ∃ error after, work before = (.error error, after) ∧
      Changes Nowhere NoFile before after := by
  rcases decides.cases with ⟨_, _, _, _, found, _⟩ | ⟨error, after, result, changes, -⟩
  · exact absurd found missing
  · exact ⟨error, after, result, changes⟩

end Decides

/-! ## Files -/

/-- The bytes of the file that a path names. -/
def Volume.bytes? (volume : Volume) (path : Path) : Option Bytes :=
  match volume.binding? path with
  | some (.file id) => some (volume.read id)
  | _ => none

variable {before : Volume} {path : Path}

theorem bytes?_eq {id : FileId} (bound : before.binding? path = some (.file id)) :
    before.bytes? path = some (before.read id) := by
  rw [bytes?, bound]

theorem bytes?_eq_some_iff {bytes : Bytes} : before.bytes? path = some bytes ↔
    ∃ id, before.binding? path = some (.file id) ∧ before.read id = bytes := by
  constructor
  · intro there
    rw [bytes?] at there
    split at there
    · exact ⟨_, by assumption, Option.some.inj there⟩
    · contradiction
  · rintro ⟨id, bound, rfl⟩
    exact bytes?_eq bound

/-- Bytes stay while nothing happens to their path or to any file. -/
theorem Volume.Changes.bytes?_eq {paths : Path → Prop}
    {after : Volume} (changes : Changes paths NoFile before after) (sound : before.Sound)
    (outside : ¬paths path) : after.bytes? path = before.bytes? path := by
  rw [bytes?, bytes?, changes.entry_eq path outside]
  split
  · rename_i id bound
    rw [changes.read_eq id (sound.stored path id bound) fun none => none]
  · rfl

/-- What is not there cannot be opened. -/
theorem openFile_fails (nonempty : path ≠ []) (free : before.binding? path = none) :
    Fails (openFile path) before := by
  have missing (entry : Entry) : before.ticked.find path ≠ .ok (some entry) := fun found => by
    have bound := binding?_of_find nonempty found
    rw [ticked_binding?, free] at bound
    contradiction
  cases found : before.ticked.find path with
  | error failure =>
      refine Meets.attempt_error (show _ = Except.error failure from ?_) (changes_ticked before)
        fun _ _ => changes_ticked before
      rw [found]
      rfl
  | ok entry =>
      cases entry with
      | some entry => exact absurd found (missing entry)
      | none =>
          refine Meets.attempt_error (show _ = Except.error (.refused .notFound) from ?_)
            (changes_ticked before) fun _ _ => changes_ticked before
          rw [found]
          rfl

theorem readAt_directory_fails (start length : Nat) :
    Fails (readAt .directory start length) before :=
  Meets.attempt_error rfl (changes_ticked before) fun _ _ => changes_ticked before

/-- What is there can be opened, be it a directory or a file. -/
theorem openFile_decides (sound : before.Sound) (nonempty : path ≠ []) :
    Decides (openFile path) before (before.binding? path ≠ none) fun handle _ =>
      (handle = .directory ∧ before.bytes? path = none) ∨
        ∃ id, handle = .file id ∧ before.binding? path = some (.file id) := by
  cases bound : before.binding? path with
  | none => exact .of_fails (openFile_fails nonempty bound) fun present => present rfl
  | some entry =>
      cases entry with
      | directory =>
          refine .of_runs ((openDirectory_runs sound (Or.inr bound)).mono ?_) (by simp)
          rintro _ _ _ rfl
          exact Or.inl ⟨rfl, by rw [bytes?, bound]⟩
      | file id =>
          refine .of_runs ((openFile_runs sound bound).mono ?_) (by simp)
          rintro _ _ _ rfl
          exact Or.inr ⟨id, rfl, rfl⟩

theorem binding?_of_bytes? (there : before.bytes? path ≠ none) : before.binding? path ≠ none := by
  intro free
  rw [bytes?, free] at there
  contradiction

/-- All bytes of a file are read where there is one. -/
theorem readWhole_decides (sound : before.Sound) (nonempty : path ≠ []) :
    Decides (readWhole path) before (before.bytes? path ≠ none) fun bytes _ =>
      before.bytes? path = some bytes := by
  refine .bind (openFile_decides sound nonempty) binding?_of_bytes? ?_
  rintro _ opened changes - (⟨rfl, none⟩ | ⟨id, rfl, bound⟩)
  · refine .of_fails ?_ fun there => there none
    have lengths : Meets (fileLength .directory) opened
        (fun _ final => Changes Nowhere NoFile opened final) fun _ final =>
          Changes Nowhere NoFile opened final := fileLength_looks .directory opened
    refine Meets.bind lengths fun length middle more => ?_
    exact Meets.mono (readAt_directory_fails 0 length) (fun _ _ impossible => impossible)
      fun _ _ last => more.trans last
  · have known := sound.stored path id bound
    refine .bind (.of_runs (fileLength_runs id) trivial) (fun _ => trivial) ?_
    rintro _ measured more - rfl
    refine .of_runs ((readAt_runs id 0 (opened.read id).size).mono ?_) (by simp [bytes?_eq bound])
    rintro _ _ _ rfl
    rw [bytes?_eq bound, Nat.zero_add,
      more.read_eq id (Nat.lt_of_lt_of_le known changes.size_le) fun none => none,
      Array.extract_size, changes.read_eq id known fun none => none]

end Storage

end FingerprintSet
