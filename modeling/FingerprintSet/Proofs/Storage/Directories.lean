import FingerprintSet.Proofs.Storage.Steps
import FingerprintSet.Storage.Tree

/-!
# Creating directories and reading files

A directory can be created whether or not it is there and whether or not its parents are; only
names that were free get bound, and they get bound to directories.
-/

namespace FingerprintSet.Storage

open Volume

variable {before : Volume}

/-! ## What a path is -/

/-- A path names something exactly when it is bound. -/
theorem isPresent_iff {volume : Volume} (sound : volume.Sound) {path : Path}
    (nonempty : path ≠ []) : volume.isPresent path = true ↔ volume.binding? path ≠ none := by
  constructor
  · intro present
    unfold isPresent at present
    split at present
    · rename_i found
      simp [binding?_of_find nonempty found]
    · contradiction
  · intro bound
    obtain ⟨entry, bound⟩ := Option.ne_none_iff_exists'.mp bound
    rw [isPresent, find_bound sound bound]

theorem isDirectory_iff {volume : Volume} (sound : volume.Sound) {path : Path} :
    volume.isDirectory path = true ↔ volume.IsDir path := by
  constructor
  · intro isDir
    unfold isDirectory at isDir
    split at isDir
    · rename_i found
      by_cases nonempty : path = []
      · exact Or.inl nonempty
      · exact Or.inr (binding?_of_find nonempty found)
    · contradiction
  · intro isDir
    rw [isDirectory, find_isDir sound isDir]

/-! ## Creating a directory with its parents -/

/-- No name on the way to a path stands for a file, and all are names that directories take. -/
structure Creatable (volume : Volume) (path : Path) : Prop where
  named : ∀ name ∈ path, FitsDirectory name
  noFile : ∀ dir, dir.within path = true → ∀ id, volume.binding? dir ≠ some (.file id)

/-- The free names on the way to a path. -/
def Missing (volume : Volume) (path : Path) (dir : Path) : Prop :=
  dir ≠ [] ∧ dir.within path = true ∧ volume.binding? dir = none

theorem not_missing_child (volume : Volume) (dir : Path) (name : String) :
    ¬Missing volume dir (dir.child name) := by
  intro missing
  have length := (List.isPrefixOf_iff_prefix.mp missing.2.1).length_le
  rw [Path.child, List.length_append] at length
  exact absurd length (Nat.not_succ_le_self _)

theorem Creatable.parent {volume : Volume} {dir : Path} {name : String}
    (creatable : Creatable volume (dir.child name)) : Creatable volume dir where
  named part mem := creatable.named part (List.mem_append_left _ mem)
  noFile other within := creatable.noFile other (Path.within_trans within (Path.within_child _ _))

theorem Creatable.congr {volume : Volume} {path : Path} (creatable : Creatable before path)
    (same : ∀ dir, dir.within path = true → volume.binding? dir = before.binding? dir) :
    Creatable volume path where
  named := creatable.named
  noFile dir within id := by
    rw [same dir within]
    exact creatable.noFile dir within id

theorem Missing.ofParent {dir path : Path} {name : String}
    (missing : Missing before path dir) : Missing before (path.child name) dir :=
  ⟨missing.1, Path.within_trans missing.2.1 (Path.within_child path name), missing.2.2⟩

/-- What is missing after free names got bound was missing before. -/
theorem Missing.earlier {path dir : Path} {after : Volume}
    (changes : Changes (Missing before path) NoFile before after)
    (missing : Missing after path dir) : Missing before path dir := by
  refine ⟨missing.1, missing.2.1, ?_⟩
  cases bound : before.binding? dir with
  | none => rfl
  | some entry =>
      have same := changes.entry_eq dir fun earlier => by
        rw [earlier.2.2] at bound
        contradiction
      rw [missing.2.2, bound] at same
      contradiction

/-- Where a directory on the way is missing, the path cannot be looked up. -/
theorem follow_missing {volume : Volume} {name : String} (above path : Path)
    (named : ∀ part ∈ path, FitsDirectory part)
    (noFile : ∀ dir, dir.within (above ++ path) = true → ∀ id, volume.binding? dir ≠ some (.file id))
    (aboveIsDir : volume.IsDir above) (missing : ¬volume.IsDir (above ++ path)) :
    volume.follow above (path ++ [name]) = .error (.refused .notFound) := by
  induction path generalizing above with
  | nil => exact absurd (by simpa using aboveIsDir) missing
  | cons first rest ih =>
      have inner : above ++ first :: rest = above.child first ++ rest := by simp [Path.child]
      rw [inner] at noFile missing
      have fits := named first List.mem_cons_self
      cases bound : volume.binding? (above.child first) with
      | none =>
          have found : volume.entries[above.child first]? = none := bound
          rw [List.cons_append]
          unfold follow
          rw [if_neg (Nat.not_lt.mpr fits.1), found]
          cases rest <;> rfl
      | some entry =>
          cases entry with
          | file id => exact absurd bound (noFile _ (Path.within_append _ rest) id)
          | directory =>
              rw [List.cons_append, follow_cons volume fits bound (by simp)]
              exact ih (above.child first) (fun part mem => named part (List.mem_cons_of_mem _ mem))
                noFile (Or.inr bound) missing

theorem find_missing {volume : Volume} (sound : volume.Sound) {dir : Path} {name : String}
    (creatable : Creatable volume (dir.child name)) (missing : ¬volume.IsDir dir) :
    volume.find (dir.child name) = .error (.refused .notFound) := by
  have free : volume.binding? (dir.child name) = none := by
    cases bound : volume.binding? (dir.child name) with
    | none => rfl
    | some entry => exact absurd (sound.parented dir name (by simp [bound])) missing
  rw [find_eq volume creatable.named, free]
  exact follow_missing [] dir creatable.parent.named
    (fun other within => creatable.parent.noFile other within) (Or.inl rfl) missing

/-- One step of creating a directory.  A failure says whether the directory was there or its
parent was not, unless the step was refused. -/
theorem makeDirectory_meets (sound : before.Sound) {dir : Path} {name : String}
    (creatable : Creatable before (dir.child name)) :
    Meets (makeDirectory (dir.child name)) before
      (fun _ after => Changes (Missing before (dir.child name)) NoFile before after ∧
        Creatable after (dir.child name) ∧ after.IsDir (dir.child name))
      fun failure after => after = before.ticked ∧ (before.Quiet →
        (before.IsDir (dir.child name) ∧ failure ≠ .refused .notFound) ∨
          (¬before.IsDir dir ∧ failure = .refused .notFound)) := by
  have fits : FitsDirectory name := creatable.named name (by simp [Path.child])
  by_cases isDir : before.IsDir dir
  · cases bound : before.binding? (dir.child name) with
    | none =>
        have made : Changes (At (dir.child name)) NoFile before.ticked
            (before.ticked.bind (dir.child name) .directory) :=
          changes_bind isDir fits bound (fun _ other => Entry.noConfusion other)
            fun _ _ other => Entry.noConfusion other
        refine Meets.attempt (show _ = Except.ok ((), before.ticked.bind (dir.child name) .directory)
          from ?_) ⟨?_, ?_, Or.inr (by simp)⟩
          fun errno refused => ⟨rfl, fun quiet => absurd quiet refused⟩
        · rw [find_ticked, find_child sound isDir fits, bound]
          rfl
        · refine ((changes_ticked before).ofNothing.trans made).mono ?_ fun _ _ none => none
          rintro path rfl
          exact ⟨Path.child_ne_nil dir name, Path.within_self _, bound⟩
        · refine ⟨creatable.named, fun other within id => ?_⟩
          rw [bind_binding?]
          split
          · simp
          · exact creatable.noFile other within id
    | some entry =>
        have found : before.ticked.find (dir.child name) = .ok (some entry) := by
          rw [find_ticked, find_bound sound bound]
        have directory : entry = .directory := by
          cases entry with
          | directory => rfl
          | file id => exact absurd bound (creatable.noFile _ (Path.within_self _) id)
        refine Meets.attempt_error (show _ = Except.error (.refused .alreadyExists) from ?_) ⟨rfl, fun _ => ?_⟩
          fun errno refused => ⟨rfl, fun quiet => absurd quiet refused⟩
        · rw [found]
          rfl
        · exact Or.inl ⟨Or.inr (directory ▸ bound), by simp⟩
  · refine Meets.attempt_error (show _ = Except.error (.refused .notFound) from ?_) ⟨rfl, fun _ => ?_⟩
      fun errno refused => ⟨rfl, fun quiet => absurd quiet refused⟩
    · rw [find_ticked, find_missing sound creatable isDir]
      rfl
    · exact Or.inr ⟨isDir, rfl⟩

/-- A failure to create a directory that is there does not matter. -/
theorem keep_meets (sound : before.Sound) (path : Path) (failure : Failure) :
    Meets (do if ← inspect (·.isDirectory path) then pure () else throw failure : Access Unit)
      before (fun _ after => after = before ∧ before.IsDir path)
      fun _ after => after = before ∧ ¬before.IsDir path := by
  cases found : before.isDirectory path with
  | true =>
      refine Meets.of_ok (a := ()) ?_ ⟨rfl, (isDirectory_iff sound).mp found⟩
      rw [bind_apply]
      show (if before.isDirectory path = true then _ else _ : Access Unit) before = _
      rw [found]
      rfl
  | false =>
      have absent : ¬before.IsDir path := fun isDir => by
        simp [(isDirectory_iff sound).mpr isDir] at found
      refine Meets.of_error (show _ = (Except.error failure, before) from ?_) ⟨rfl, absent⟩
      rw [bind_apply]
      show (if before.isDirectory path = true then _ else _ : Access Unit) before = _
      rw [found]
      rfl

theorem stillCreatable {dir : Path} {name : String} {after : Volume}
    (creatable : Creatable before (dir.child name))
    (changes : Changes (Missing before dir) NoFile before after)
    (creatableUp : Creatable after dir) : Creatable after (dir.child name) where
  named := creatable.named
  noFile other within id := by
    by_cases inside : other.within dir = true
    · exact creatableUp.noFile other inside id
    · rw [changes.entry_eq other fun missing => inside missing.2.1]
      exact creatable.noFile other within id

/-- Creating a directory with its parents ends with the directory there.  A refusal leaves no
file in its place. -/
theorem makeDirectories_meets (sound : before.Sound) {path : Path}
    (creatable : Creatable before path) :
    Meets (makeDirectories path) before
      (fun _ after => Changes (Missing before path) NoFile before after ∧
        Creatable after path ∧ after.IsDir path)
      fun _ after => Changes (Missing before path) NoFile before after ∧
        Creatable after path ∧ ¬before.Quiet := by
  rw [makeDirectories]
  generalize reversedEq : path.reverse = reversed
  induction reversed generalizing path before with
  | nil =>
      rw [List.reverse_eq_nil_iff] at reversedEq
      subst reversedEq
      exact Meets.of_ok rfl ⟨.refl before, creatable, Or.inl rfl⟩
  | cons name above ih =>
      have childEq : (name :: above).reverse = Path.child above.reverse name := List.reverse_cons
      obtain rfl : path = Path.child above.reverse name := by
        rw [← childEq, ← reversedEq, List.reverse_reverse]
      rw [makeDirectoriesUp]
      simp only [childEq]
      have ticked := changes_ticked before
      have tickedSound := ticked.sound sound
      have tickedCreatable : Creatable before.ticked (Path.child above.reverse name) :=
        creatable.congr fun _ _ => rfl
      refine Meets.tryCatch (makeDirectory_meets sound creatable) ?_
      rintro failure _ ⟨rfl, reason⟩
      by_cases missing : failure = .refused .notFound
      · rw [if_pos missing]
        have sinceTicked {after : Volume}
            (changes : Changes (Missing before.ticked above.reverse) NoFile before.ticked after)
            (creatableUp : Creatable after above.reverse) :
            Changes (Missing before (Path.child above.reverse name)) NoFile before after ∧
              Creatable after (Path.child above.reverse name) := by
          constructor
          · exact ticked.ofNothing.trans (changes.mono (fun _ up => Missing.ofParent up)
              fun _ _ none => none)
          · exact stillCreatable tickedCreatable changes creatableUp
        apply Meets.bind
        · apply Meets.mono (ih tickedSound tickedCreatable.parent (by simp))
          · rintro _ _ ⟨changes, creatableUp, isDir⟩
            exact And.intro (sinceTicked changes creatableUp) isDir
          · rintro _ _ ⟨changes, creatableUp, refused⟩
            exact ⟨(sinceTicked changes creatableUp).1, (sinceTicked changes creatableUp).2,
              fun quiet => refused (ticked.quiet quiet)⟩
        rintro _ after ⟨⟨changes, creatableStill⟩, isDir⟩
        have afterSound := changes.sound sound
        have afterTicked := changes.trans (changes_ticked after).ofNothing
        refine Meets.tryCatch ((makeDirectory_meets afterSound creatableStill).mono
          (fun _ final ⟨more, there⟩ => ⟨changes.trans (more.mono ?_ fun _ _ none => none), there⟩)
          fun _ _ bad => bad) ?_
        · exact fun _ => Missing.earlier changes
        · rintro again _ ⟨rfl, reasonAgain⟩
          refine (keep_meets (ticked_sound afterSound) _ again).mono ?_ ?_
          · rintro _ _ ⟨rfl, there⟩
            exact ⟨afterTicked, creatableStill.congr fun _ _ => rfl, there⟩
          · rintro _ _ ⟨rfl, absent⟩
            refine ⟨afterTicked, creatableStill.congr fun _ _ => rfl, fun quiet => ?_⟩
            rcases reasonAgain (changes.quiet quiet) with ⟨there, -⟩ | ⟨notDir, -⟩
            · exact absent there
            · exact notDir isDir
      · rw [if_neg missing]
        refine (keep_meets tickedSound _ failure).mono ?_ ?_
        · rintro _ _ ⟨rfl, isDir⟩
          exact ⟨ticked.ofNothing, tickedCreatable, isDir⟩
        · rintro _ _ ⟨rfl, absent⟩
          refine ⟨ticked.ofNothing, tickedCreatable, fun quiet => ?_⟩
          rcases reason quiet with ⟨isDir, -⟩ | ⟨-, same⟩
          · exact absent isDir
          · exact missing same

theorem makeDirectories_runs (sound : before.Sound) {path : Path}
    (creatable : Creatable before path) :
    Runs (makeDirectories path) before (Missing before path) NoFile fun _ after =>
      Creatable after path ∧ after.IsDir path := by
  apply Meets.mono (makeDirectories_meets sound creatable)
  · exact fun _ _ holds => holds
  · exact fun _ _ ⟨changes, _, refused⟩ => ⟨changes, refused⟩

theorem Creatable.of_isDir {volume : Volume} (sound : volume.Sound) {path : Path}
    (isDir : volume.IsDir path) : Creatable volume path where
  named := fits_of_isDir sound isDir
  noFile dir within id file := by
    obtain ⟨rest, rfl⟩ := Path.within_iff.mp within
    rcases isDir_of_append sound dir rest isDir with rfl | directory
    · rw [sound.rootless] at file
      contradiction
    · simp [directory] at file

theorem Path.within_child_iff {dir path : Path} {name : String} :
    path.within (dir.child name) = true ↔ path = dir.child name ∨ path.within dir = true := by
  constructor
  · intro within
    obtain ⟨rest, same⟩ := Path.within_iff.mp within
    rcases List.eq_nil_or_concat rest with rfl | ⟨more, last, rfl⟩
    · exact Or.inl (by simpa using same.symm)
    · rw [List.concat_eq_append, ← List.append_assoc] at same
      obtain ⟨rfl, -⟩ := List.append_inj' same rfl
      exact Or.inr (Path.within_append path more)
  · rintro (rfl | within)
    · exact Path.within_self _
    · exact Path.within_trans within (Path.within_child dir name)

/-- A new name in a directory can be created. -/
theorem Creatable.child {volume : Volume} (sound : volume.Sound) {dir : Path} {name : String}
    (isDir : volume.IsDir dir) (fits : FitsDirectory name)
    (noFile : ∀ id, volume.binding? (dir.child name) ≠ some (.file id)) :
    Creatable volume (dir.child name) where
  named part mem := by
    rcases List.mem_append.mp mem with mem | mem
    · exact fits_of_isDir sound isDir part mem
    · exact List.mem_singleton.mp mem ▸ fits
  noFile other within := by
    rcases Path.within_child_iff.mp within with rfl | within
    · exact noFile
    · exact (Creatable.of_isDir sound isDir).noFile other within

/-- In a directory only the last name can be missing. -/
theorem missing_child {volume : Volume} (sound : volume.Sound) {dir path : Path} {name : String}
    (isDir : volume.IsDir dir) (missing : Missing volume (dir.child name) path) :
    path = dir.child name := by
  obtain ⟨nonempty, within, free⟩ := missing
  rcases Path.within_child_iff.mp within with same | within
  · exact same
  · obtain ⟨rest, rfl⟩ := Path.within_iff.mp within
    have directory := (isDir_of_append sound path rest isDir).resolve_left nonempty
    rw [free] at directory
    contradiction

/-- A directory that is there stays as it is. -/
theorem makeDirectories_isDir (sound : before.Sound) {path : Path} (isDir : before.IsDir path) :
    Runs (makeDirectories path) before Nowhere NoFile fun _ _ => True := by
  have creatable := Creatable.of_isDir sound isDir
  refine ((makeDirectories_runs sound creatable).mono fun _ _ _ _ => trivial).widen ?_
    fun _ _ none => none
  rintro dir ⟨nonempty, within, free⟩
  obtain ⟨rest, rfl⟩ := Path.within_iff.mp within
  have directory := (isDir_of_append sound dir rest isDir).resolve_left nonempty
  rw [free] at directory
  contradiction

/-- A directory with a name that none can have is not created, and nothing else is. -/
theorem makeDirectories_unfit (sound : before.Sound) {dir : Path} {name : String}
    (isDir : before.IsDir dir) (unfit : ¬FitsDirectory name) :
    Meets (makeDirectories (dir.child name)) before (fun _ _ => False)
      fun _ after => Changes Nowhere NoFile before after := by
  have fails {volume : Volume} (volumeSound : volume.Sound) (volumeIsDir : volume.IsDir dir) :
      Meets (makeDirectory (dir.child name)) volume (fun _ _ => False)
        fun _ after => after = volume.ticked := by
    obtain ⟨failure, notFound⟩ := find_unfit (ticked_sound volumeSound) volumeIsDir unfit
    refine @Meets.attempt_error _ _ _ _ failure _ ?_ rfl fun _ _ => rfl
    rw [notFound]
    rfl
  have gone {volume : Volume} (volumeSound : volume.Sound) : ¬volume.IsDir (dir.child name) := by
    intro there
    exact unfit (fits_of_isDir volumeSound there name (by simp [Path.child]))
  have ticked := changes_ticked before
  have reversed : (dir.child name).reverse = name :: dir.reverse := by simp [Path.child]
  have path : (name :: dir.reverse).reverse = dir.child name := by simp [Path.child]
  rw [makeDirectories, reversed, makeDirectoriesUp]
  simp only [path]
  apply Meets.tryCatch (fails sound isDir)
  rintro failure _ rfl
  have keeps {volume : Volume} (changes : Changes Nowhere NoFile before volume)
      (failure : Failure) :
      Meets (do if ← inspect (·.isDirectory (dir.child name)) then pure () else throw failure :
        Access Unit) volume (fun _ _ => False)
        fun _ after => Changes Nowhere NoFile before after := by
    apply Meets.mono (keep_meets (changes.sound sound) _ failure)
    · exact fun _ _ found => gone (changes.sound sound) found.2
    · exact fun _ _ lost => lost.1 ▸ changes
  split
  · have above := makeDirectories_isDir (ticked.sound sound) (ticked.isDir (fun nowhere => nowhere) isDir)
    rw [makeDirectories] at above
    have made := above.since ticked
    apply Meets.bind (made.mono (fun _ _ holds => holds.1) fun _ _ holds => holds.1)
    intro _ after changes
    apply Meets.tryCatch (fails (changes.sound sound) (changes.isDir (fun nowhere => nowhere) isDir))
    rintro failure _ rfl
    exact keeps (changes.trans (changes_ticked after)) failure
  · exact keeps ticked failure

/-- Whether or not a name can be created in a directory, nothing else changes, and it is no file. -/
theorem makeDirectories_adds (sound : before.Sound) {dir : Path} {name : String}
    (isDir : before.IsDir dir) (noFile : ∀ id, before.binding? (dir.child name) ≠ some (.file id)) :
    Meets (makeDirectories (dir.child name)) before
      (fun _ after => Changes (At (dir.child name)) NoFile before after ∧
        ∀ id, after.binding? (dir.child name) ≠ some (.file id))
      fun _ after => Changes (At (dir.child name)) NoFile before after ∧
        ∀ id, after.binding? (dir.child name) ≠ some (.file id) := by
  by_cases fits : FitsDirectory name
  · have own (path : Path) (missing : Missing before (dir.child name) path) : At (dir.child name) path :=
      missing_child sound isDir missing
    have here {after : Volume} (changes : Changes (Missing before (dir.child name)) NoFile before after)
        (creatable : Creatable after (dir.child name)) :
        Changes (At (dir.child name)) NoFile before after ∧
          ∀ id, after.binding? (dir.child name) ≠ some (.file id) :=
      ⟨changes.mono own fun _ _ none => none, creatable.noFile _ (Path.within_self _)⟩
    apply Meets.mono (makeDirectories_meets sound (Creatable.child sound isDir fits noFile))
    · exact fun _ _ ⟨changes, creatable, _⟩ => here changes creatable
    · exact fun _ _ ⟨changes, creatable, _⟩ => here changes creatable
  · apply Meets.mono (makeDirectories_unfit sound isDir fits)
    · exact fun _ _ impossible => impossible.elim
    · intro _ after changes
      refine ⟨changes.ofNothing, fun id => ?_⟩
      rw [changes.entry_eq _ fun nowhere => nowhere]
      exact noFile id

/-! ## Reading -/

theorem readWhole_looks (path : Path) : Looks (readWhole path) :=
  (openFile_looks path).bind fun handle => (fileLength_looks handle).bind fun _ =>
    readAt_looks handle 0 _

end FingerprintSet.Storage
