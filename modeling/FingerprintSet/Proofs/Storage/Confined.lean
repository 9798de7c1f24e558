import FingerprintSet.Proofs.Storage.Confining

/-!
# Steps keep to a region

Every single step on a volume keeps to a region that its paths lie in, and so do whole files and
whole trees.
-/

namespace FingerprintSet

open Storage Volume

namespace Storage.Region

variable {region : Region} {α : Type}

/-! ## Single steps -/

/-- The same outcome on two volumes, within the region of the first. -/
def Agrees (region : Region) (good : α → Nat → Prop) (before : Volume) :
    Except Failure (α × Volume) → Except Failure (α × Volume) → Prop
  | .ok one, .ok two => region.Agree good before one two
  | .error failure, .error other => failure = other
  | _, _ => False

theorem confines_attempt {step : Volume → Except Failure (α × Volume)} (good : α → Nat → Prop)
    (agrees : ∀ first second, region.Alike first second →
      region.Agrees good first (step first) (step second)) :
    region.Confines (attempt step) fun result files => ∀ a, result = .ok a → good a files := by
  intro first second alike
  have refusal : first.faults first.clock = second.faults second.clock := alike.refusals_eq 0
  have ticks : region.Keeps first first.ticked := ⟨fun _ _ => rfl, fun _ _ => rfl, Nat.le_refl _⟩
  rw [attempt_apply, attempt_apply, refusal]
  cases second.faults second.clock with
  | some errno => exact ⟨rfl, alike.ticked, ticks, fun _ impossible => nomatch impossible⟩
  | none =>
      have outcome := agrees first.ticked second.ticked alike.ticked
      generalize step first.ticked = left at outcome ⊢
      generalize step second.ticked = right at outcome ⊢
      rcases left with failure | ⟨a, after⟩ <;> rcases right with other | ⟨b, otherAfter⟩
      · cases outcome
        exact ⟨rfl, alike.ticked, ticks, fun _ impossible => nomatch impossible⟩
      · exact outcome.elim
      · exact outcome.elim
      · obtain ⟨rfl, alikeStill, keeps, holds⟩ := outcome
        exact ⟨rfl, alikeStill, ticks.trans keeps, fun _ same => Except.ok.inj same ▸ holds⟩

/-- A step that starts by finding a path. -/
theorem confines_find {path : Path} {rest : Volume → Option Entry → Except Failure (α × Volume)}
    (good : α → Nat → Prop) (reads : region.reads path)
    (agrees : ∀ first second found, region.Alike first second → first.find path = .ok found →
      region.Agrees good first (rest first found) (rest second found)) :
    region.Confines (attempt fun volume => volume.find path >>= rest volume)
      fun result files => ∀ a, result = .ok a → good a files := by
  refine confines_attempt good fun first second alike => ?_
  rw [← alike.find_eq reads]
  cases found : first.find path with
  | error failure => exact rfl
  | ok entry => exact agrees first second entry alike found

/-- A file that is found at a path is the one that the path names. -/
theorem binding?_of_find_file {volume : Volume} {path : Path} {id : FileId}
    (found : volume.find path = .ok (some (.file id))) :
    volume.binding? path = some (.file id) := by
  by_cases root : path = []
  · subst root
    unfold find at found
    split at found
    · contradiction
    · split at found
      · rename_i bound
        exact bound.trans (Except.ok.inj found)
      · exact nomatch found
  · exact binding?_of_find root found

/-- A directory is found, if the path can be spelt at all. -/
theorem find_ne_none {volume : Volume} {path : Path} (isDir : volume.IsDir path) :
    volume.find path ≠ .ok none := by
  unfold find
  split
  · exact fun impossible => nomatch impossible
  · split
    · exact fun impossible => nomatch impossible
    · rename_i missing
      rcases isDir with rfl | bound
      · exact fun impossible => nomatch impossible
      · exact absurd (missing.symm.trans bound) fun impossible => nomatch impossible

/-- A handle that may be read from. -/
def Admits (region : Region) (handle : Handle) : Prop :=
  ∀ id, handle = .file id → ¬region.others id

/-- A handle that may be kept for later. -/
def handles (region : Region) : Custody Handle where
  holds files handle := ∀ id, handle = .file id → region.Owns files id
  grows more here id same := (here id same).mono more

section Steps

variable {path source target : Path} {id : FileId}

/-- The file that is created is not one of others. -/
theorem createFile_confined (writes : region.writes path) :
    region.ConfinesTask (createFile path) fun id => ¬region.others id := by
  refine confines_find (fun id _ => ¬region.others id) (region.writes_reads _ writes)
    fun first second found alike here => ?_
  rcases found with _ | _ | id
  · have fresh : ¬region.others first.contents.size :=
      fun foreign => Nat.lt_irrefl _ (alike.known _ foreign)
    have owns : ∀ id, Entry.file first.contents.size = .file id →
        region.Owns first.grown.contents.size id := by
      rintro _ ⟨⟩
      exact ⟨fresh, Nat.lt_of_lt_of_eq (Nat.lt_succ_self _) (grown_size first).symm⟩
    have bound := alike.grown.bind writes owns
    rw [Agrees, ← alike.size_eq]
    exact ⟨rfl, bound, (keeps_grown first).trans (keeps_bind writes _), fresh⟩
  · exact rfl
  · have own := (alike.own path id writes (binding?_of_find_file here)).1
    exact ⟨rfl, alike.write id #[], keeps_write own _, own⟩

/-- A file of the region that is opened may be kept open. -/
theorem openFile_making (reads : region.reads path) :
    region.ConfinesMaking (openFile path) region.handles := by
  refine confines_find (fun handle files => region.handles.holds files handle) reads
    fun first second found alike here => ?_
  rcases found with _ | _ | id
  · exact rfl
  · exact Agree.here alike fun _ impossible => nomatch impossible
  · refine Agree.here alike ?_
    rintro _ ⟨⟩
    have bound := binding?_of_find_file here
    by_cases writes : region.writes path
    · exact alike.own path id writes bound
    · exact absurd bound (alike.noFile path id writes reads)

theorem openFile_confined (reads : region.reads path) :
    region.ConfinesTask (openFile path) region.Admits :=
  Confines.mono (openFile_making reads) fun _ _ holds handle same id isFile =>
    (holds handle same id isFile).1

theorem readAt_confined {handle : Handle} (admits : region.Admits handle) (start length : Nat) :
    region.ConfinesTask (readAt handle start length) fun _ => True := by
  refine confines_attempt (fun _ _ => True) fun first second alike => ?_
  cases handle with
  | directory => exact rfl
  | file id =>
      have same := congrArg (·.extract start (start + length)) (alike.read_eq id (admits id rfl))
      exact ⟨same, alike, .refl first, trivial⟩

theorem fileLength_confined {handle : Handle} (admits : region.Admits handle) :
    region.ConfinesTask (fileLength handle) fun _ => True := by
  refine confines_attempt (fun _ _ => True) fun first second alike => ?_
  cases handle with
  | directory => exact Agree.here alike trivial
  | file id =>
      exact ⟨congrArg (·.size) (alike.read_eq id (admits id rfl)), alike, .refl first, trivial⟩

theorem writeAt_confined (own : ¬region.others id) (start : Nat) (bytes : Bytes) :
    region.ConfinesTask (writeAt id start bytes) fun _ => True := by
  refine confines_attempt (fun _ _ => True) fun first second alike => ?_
  have written := alike.write id (splice (first.read id) start bytes)
  rw [show second.write id _ = second.write id (splice (second.read id) start bytes) by
    rw [alike.read_eq id own]] at written
  exact ⟨rfl, written, keeps_write own _, trivial⟩

theorem sync_confined : region.ConfinesTask sync fun _ => True :=
  confines_attempt (fun _ _ => True) fun _ _ alike => Agree.here alike trivial

theorem removeFile_confined (writes : region.writes path) :
    region.ConfinesTask (removeFile path) fun _ => True := by
  refine confines_find (fun _ _ => True) (region.writes_reads _ writes)
    fun first second found alike _ => ?_
  rcases found with _ | _ | id
  · exact rfl
  · exact rfl
  · exact ⟨rfl, alike.unbind writes, keeps_unbind writes, trivial⟩

/-- What is only looked at is there already and cannot be created. -/
theorem makeDirectory_confined (reads : region.reads path) :
    region.ConfinesTask (makeDirectory path) fun _ => True := by
  refine confines_find (fun _ _ => True) reads fun first second found alike here => ?_
  rcases found with _ | entry
  · by_cases writes : region.writes path
    · have own : ∀ id, Entry.directory = .file id → region.Owns first.contents.size id :=
        fun _ none => nomatch none
      exact ⟨rfl, alike.bind writes own, keeps_bind writes _, trivial⟩
    · exact absurd here (find_ne_none (alike.there path reads writes))
  · exact rfl

theorem removeDirectory_confined (writes : region.writes path) :
    region.ConfinesTask (removeDirectory path) fun _ => True := by
  refine confines_find (fun _ _ => True) (region.writes_reads _ writes)
    fun first second found alike _ => ?_
  rcases found with _ | _ | id
  · exact rfl
  · dsimp only
    rw [← alike.below_eq writes]
    split
    · exact ⟨rfl, alike.unbind writes, keeps_unbind writes, trivial⟩
    · exact rfl
  · exact rfl

/-- What a directory of the region holds. -/
theorem listDirectory_confined (writes : region.writes path) :
    region.ConfinesTask (listDirectory path) fun _ => True := by
  refine confines_find (fun _ _ => True) (region.writes_reads _ writes)
    fun first second found alike _ => ?_
  rcases found with _ | _ | id
  · exact rfl
  · exact ⟨alike.children_eq writes, alike, .refl first, trivial⟩
  · exact rfl

/-! ## Renaming -/

theorem Alike.foldl_unbind {first second : Volume} (alike : region.Alike first second)
    {items : List (Path × Entry)} (writes : ∀ item ∈ items, region.writes item.1) :
    region.Alike (items.foldl (fun volume item => volume.unbind item.1) first)
        (items.foldl (fun volume item => volume.unbind item.1) second) ∧
      region.Keeps first (items.foldl (fun volume item => volume.unbind item.1) first) := by
  induction items generalizing first second with
  | nil => exact ⟨alike, .refl first⟩
  | cons item items ih =>
      have here := writes item List.mem_cons_self
      obtain ⟨alikeThen, keeps⟩ := ih (alike.unbind here)
        fun other mem => writes other (List.mem_cons_of_mem _ mem)
      exact ⟨alikeThen, (keeps_unbind here).trans keeps⟩

theorem Alike.foldl_bind {first second : Volume} (alike : region.Alike first second)
    {items : List (Path × Entry)} (name : Path → Path)
    (writes : ∀ item ∈ items, region.writes (name item.1))
    (own : ∀ item ∈ items, ∀ id, item.2 = .file id → region.Owns first.contents.size id) :
    region.Alike (items.foldl (fun volume item => volume.bind (name item.1) item.2) first)
        (items.foldl (fun volume item => volume.bind (name item.1) item.2) second) ∧
      region.Keeps first
        (items.foldl (fun volume item => volume.bind (name item.1) item.2) first) := by
  induction items generalizing first second with
  | nil => exact ⟨alike, .refl first⟩
  | cons item items ih =>
      have here := writes item List.mem_cons_self
      obtain ⟨alikeThen, keeps⟩ := ih (alike.bind here (own item List.mem_cons_self))
        (fun other mem => writes other (List.mem_cons_of_mem _ mem))
        fun other mem => own other (List.mem_cons_of_mem _ mem)
      exact ⟨alikeThen, (keeps_bind here _).trans keeps⟩

theorem mayReplace_eq {first second : Volume} (alike : region.Alike first second)
    (writes : region.writes target) (entry : Entry) (present : Option Entry) :
    mayReplace first entry target present = mayReplace second entry target present := by
  rcases present with _ | _ | id
  · rfl
  · cases entry with
    | directory =>
        rw [mayReplace, mayReplace, alike.below_eq writes]
    | file id => rfl
  · cases entry <;> rfl

theorem moved_agrees {first second : Volume} (alike : region.Alike first second)
    (source_writes : region.writes source) (target_writes : region.writes target) {entry : Entry}
    (bound : first.find source = .ok (some entry)) :
    region.Alike (moved first source target entry) (moved second source target entry) ∧
      region.Keeps first (moved first source target entry) := by
  have inside : ∀ item ∈ first.below source, region.writes item.1 := fun item mem =>
    region.writes_within source item.1 (Below.within (mem_below_iff.mp mem).2) source_writes
  have entryOwn : ∀ id, entry = .file id → region.Owns first.contents.size id := by
    rintro id rfl
    exact alike.own source id source_writes (binding?_of_find_file bound)
  obtain ⟨alikeFree, keepsFree⟩ := (alike.unbind source_writes).foldl_unbind inside
  obtain ⟨alikeMoved, keepsMoved⟩ := (alikeFree.bind target_writes
    fun id same => (entryOwn id same).mono keepsFree.size_le).foldl_bind
      (fun path => target ++ path.drop source.length)
      (fun item (_ : item ∈ first.below source) => region.writes_within target _ (Path.within_append _ _) target_writes)
      fun item mem id same => (alike.own item.1 id (inside item mem)
        ((mem_below_iff.mp mem).1.trans (congrArg some same))).mono keepsFree.size_le
  rw [moved, moved, ← alike.below_eq source_writes]
  exact ⟨alikeMoved, (((keeps_unbind source_writes).trans keepsFree).trans
    (keeps_bind target_writes entry)).trans keepsMoved⟩

theorem rename_confined (source_writes : region.writes source)
    (target_writes : region.writes target) :
    region.ConfinesTask (rename source target) fun _ => True := by
  refine confines_find (fun _ _ => True) (region.writes_reads _ source_writes)
    fun first second found alike here => ?_
  rcases found with _ | entry
  · exact rfl
  · dsimp only
    rw [← alike.find_eq (region.writes_reads _ target_writes)]
    cases first.find target with
    | error failure => exact rfl
    | ok present =>
        show region.Agrees _ first (if _ then _ else _) (if _ then _ else _)
        split
        · exact ⟨rfl, alike, .refl first, trivial⟩
        · split
          · exact rfl
          · rw [← mayReplace_eq alike target_writes]
            cases mayReplace first entry target present with
            | error failure => exact rfl
            | ok _ =>
                obtain ⟨alikeMoved, keeps⟩ :=
                  moved_agrees alike source_writes target_writes here
                exact ⟨rfl, alikeMoved, keeps, trivial⟩

/-! ## Trees and whole files -/

theorem makeDirectoriesUp_confined {names : List String} (reads : region.reads names.reverse) :
    region.ConfinesTask (makeDirectoriesUp names) fun _ => True := by
  induction names with
  | nil => exact .pure trivial
  | cons name above ih =>
      have up : region.reads above.reverse := by
        refine region.reads_above _ _ ?_ reads
        rw [List.reverse_cons]
        exact Path.within_append _ _
      have keep (failure : Failure) : region.ConfinesTask
          (do if ← inspect (·.isDirectory (name :: above).reverse) then pure () else throw failure :
            Access Unit) fun _ => True := by
        have looks : region.ConfinesTask (inspect (·.isDirectory (name :: above).reverse))
            fun _ => True := .inspect (fun _ _ alike => alike.isDirectory_eq reads) fun _ => trivial
        refine looks.bind fun there _ => ?_
        split
        · exact .pure trivial
        · exact .throw failure
      refine (makeDirectory_confined reads).tryCatch fun failure => ?_
      split
      · exact (ih up).bind fun _ _ => (makeDirectory_confined reads).tryCatch keep
      · exact keep failure

theorem makeDirectories_confined (reads : region.reads path) :
    region.ConfinesTask (makeDirectories path) fun _ => True :=
  makeDirectoriesUp_confined (by rwa [List.reverse_reverse])

theorem removeEntry_confined {item : Path × Entry} (writes : region.writes item.1) :
    region.ConfinesTask (removeEntry item) fun _ => True := by
  rw [removeEntry]
  split
  · exact removeDirectory_confined writes
  · exact removeFile_confined writes

theorem removeTree_confined (writes : region.writes path) :
    region.ConfinesTask (removeTree path) fun _ => True := by
  have inside (volume : Volume) : ∀ item ∈ volume.below path, region.writes item.1 :=
    fun item mem => region.writes_within path item.1 (Below.within (mem_below_iff.mp mem).2) writes
  have looks : region.ConfinesTask (inspect (·.below path))
      fun items => ∀ item ∈ items, region.writes item.1 :=
    .inspect (fun _ _ alike => alike.below_eq writes) inside
  refine (listDirectory_confined writes).bind fun _ _ => looks.bind fun inner within => ?_
  refine (ConfinesTask.forM fun item mem => ?_).bind fun _ _ => removeDirectory_confined writes
  exact removeEntry_confined (within item (List.mem_reverse.mp mem))

theorem readWhole_confined (reads : region.reads path) :
    region.ConfinesTask (readWhole path) fun _ => True :=
  (openFile_confined reads).bind fun _ admits => (fileLength_confined admits).bind fun length _ =>
    readAt_confined admits 0 length

end Steps

end Storage.Region

end FingerprintSet
