import FingerprintSet.Proofs.Storage.Outcome

/-!
# What each step does

One statement for each step on a volume: under which bindings it can be taken, what it changes,
and what it results in.  All of them allow for a refusal.
-/

namespace FingerprintSet.Storage

open Volume

/-- Exactly this path. -/
def At (path : Path) (other : Path) : Prop :=
  other = path

/-- The path itself and all below it. -/
def Within (dir : Path) (path : Path) : Prop :=
  dir.within path = true

/-- Exactly this file. -/
def Only (id : FileId) (other : FileId) : Prop :=
  other = id

variable {before : Volume}

/-! ## Looking -/

theorem openFile_runs (sound : before.Sound) {path : Path} {id : FileId}
    (bound : before.binding? path = some (.file id)) :
    Runs (openFile path) before Nowhere NoFile fun handle _ => handle = .file id := by
  refine Runs.look ?_ rfl
  rw [find_ticked, find_bound sound bound]
  rfl

theorem openDirectory_runs (sound : before.Sound) {path : Path} (isDir : before.IsDir path) :
    Runs (openFile path) before Nowhere NoFile fun handle _ => handle = .directory := by
  refine Runs.look ?_ rfl
  rw [find_ticked, find_isDir sound isDir]
  rfl

theorem readAt_runs (id : FileId) (start length : Nat) :
    Runs (readAt (.file id) start length) before Nowhere NoFile fun bytes _ =>
      bytes = (before.read id).extract start (start + length) :=
  Runs.look rfl rfl

theorem fileLength_runs (id : FileId) :
    Runs (fileLength (.file id)) before Nowhere NoFile fun length _ =>
      length = (before.read id).size :=
  Runs.look rfl rfl

theorem listDirectory_runs (sound : before.Sound) {path : Path} (isDir : before.IsDir path) :
    Runs (listDirectory path) before Nowhere NoFile fun names _ =>
      names = before.children path := by
  refine Runs.look ?_ rfl
  rw [find_ticked, find_isDir sound isDir]
  rfl

theorem sync_runs : Runs sync before Nowhere NoFile fun _ _ => True :=
  Runs.look rfl trivial

theorem openFile_looks (path : Path) : Looks (openFile path) := by
  apply Looks.attempt
  intro volume handle after result
  cases found : volume.find path with
  | error failure => simp [found, Bind.bind, Except.bind] at result
  | ok entry =>
      rcases entry with _ | _ | id
      all_goals simp [found, Bind.bind, Except.bind] at result
      all_goals exact result.2.symm

theorem readAt_looks (handle : Handle) (start length : Nat) : Looks (readAt handle start length) := by
  apply Looks.attempt
  intro volume bytes after result
  cases handle <;> simp at result
  exact result.2.symm

theorem fileLength_looks (handle : Handle) : Looks (fileLength handle) := by
  apply Looks.attempt
  intro volume length after result
  cases handle <;> simp at result <;> exact result.2.symm

/-! ## Writing -/

theorem changes_write (id : FileId) (bytes : Bytes) :
    Changes Nowhere (Only id) before (before.write id bytes) where
  sound sound :=
    { rootless := sound.rootless
      parented := sound.parented
      named := sound.named
      stored := by simpa using sound.stored
      apart := sound.apart }
  faults_eq := rfl
  clock_le := Nat.le_refl _
  size_le := by simp
  entry_eq _ _ := rfl
  read_eq _ _ other := read_write_ne bytes other

theorem writeAt_runs {id : FileId} (known : id < before.contents.size) (start : Nat)
    (bytes : Bytes) :
    Runs (writeAt id start bytes) before Nowhere (Only id) fun _ after =>
      after.read id = splice (before.read id) start bytes :=
  Runs.attempt rfl (changes_write id _) (read_write_self _ known)

/-! ## Binding -/

/-- A new child of a directory keeps the bindings a tree. -/
theorem changes_bind {dir : Path} {name : String} {entry : Entry} (isDir : before.IsDir dir)
    (fits : FitsDirectory name) (free : before.binding? (dir.child name) = none)
    (stored : ∀ id, entry = .file id → id < before.contents.size)
    (unnamed : ∀ id path, entry = .file id → before.binding? path ≠ some (.file id)) :
    Changes (At (dir.child name)) NoFile before (before.bind (dir.child name) entry) where
  sound sound :=
    { rootless := by
        rw [bind_binding?, if_neg (Path.child_ne_nil dir name), sound.rootless]
      parented := by
        intro other part bound
        have isDirStill : ∀ path, before.IsDir path →
            (before.bind (dir.child name) entry).IsDir path := by
          rintro path (rfl | found)
          · exact Or.inl rfl
          · refine Or.inr ?_
            rw [bind_binding?, if_neg, found]
            rintro rfl
            simp [free] at found
        rw [bind_binding?] at bound
        split at bound
        · rename_i same
          obtain ⟨rfl, -⟩ := List.append_inj' same rfl
          exact isDirStill dir isDir
        · exact isDirStill other (sound.parented other part bound)
      named := by
        intro path bound
        rw [bind_binding?] at bound
        split at bound
        · rename_i same
          subst same
          intro part mem
          rcases List.mem_append.mp mem with mem | mem
          · exact fits_of_isDir sound isDir part mem
          · exact List.mem_singleton.mp mem ▸ fits
        · exact sound.named path bound
      stored := by
        intro path id bound
        rw [bind_binding?] at bound
        split at bound
        · exact stored id (Option.some.inj bound)
        · exact sound.stored path id bound
      apart := by
        intro first second id firstBound secondBound
        rw [bind_binding?] at firstBound secondBound
        split at firstBound <;> split at secondBound
        · rename_i same other
          exact same.symm.trans other
        · exact absurd secondBound (unnamed id second (Option.some.inj firstBound))
        · exact absurd firstBound (unnamed id first (Option.some.inj secondBound))
        · exact sound.apart first second id firstBound secondBound }
  faults_eq := rfl
  clock_le := Nat.le_refl _
  size_le := Nat.le_refl _
  entry_eq path other := by rw [bind_binding?, if_neg fun same => other same.symm]
  read_eq _ _ _ := rfl

theorem changes_grown (volume : Volume) : Changes Nowhere NoFile volume volume.grown where
  sound sound :=
    { rootless := sound.rootless
      parented := sound.parented
      named := sound.named
      stored := fun path id bound => by
        rw [grown_size]
        exact Nat.lt_succ_of_lt (sound.stored path id bound)
      apart := sound.apart }
  faults_eq := rfl
  clock_le := Nat.le_refl _
  size_le := by simp
  entry_eq _ _ := rfl
  read_eq _ known _ := read_grown known

/-- A new file is empty and has contents that no other file shares. -/
theorem createFile_runs (sound : before.Sound) {dir : Path} {name : String}
    (isDir : before.IsDir dir) (fits : FitsDirectory name)
    (free : before.binding? (dir.child name) = none) :
    Runs (createFile (dir.child name)) before (At (dir.child name)) NoFile fun id after =>
      id = before.contents.size ∧ id < after.contents.size ∧
        after.binding? (dir.child name) = some (.file id) ∧ after.read id = #[] := by
  have bound : Changes (At (dir.child name)) NoFile before.ticked.grown
      (before.ticked.grown.bind (dir.child name) (.file before.contents.size)) := by
    refine changes_bind isDir fits free (fun other same => ?_) fun other path same bound => ?_
    · cases same
      simp
    · cases same
      exact absurd (sound.stored path _ bound) (Nat.lt_irrefl _)
  refine Runs.attempt ?_ ((changes_grown before.ticked).ofNothing.trans bound)
    ⟨rfl, by simp, by simp, ?_⟩
  · rw [find_ticked, find_child sound isDir fits, free]
    rfl
  · exact read_grown_size before.ticked

/-! ## Unbinding -/

/-- Without a path that has nothing below it the bindings are still a tree. -/
theorem changes_unbind {path : Path} (empty : ∀ name, before.binding? (path.child name) = none) :
    Changes (At path) NoFile before (before.unbind path) where
  sound sound :=
    { rootless := by
        rw [unbind_binding?, sound.rootless, ite_self]
      parented := by
        intro dir name bound
        rw [unbind_binding?] at bound
        split at bound
        · contradiction
        · rcases sound.parented dir name bound with rfl | isDir
          · exact Or.inl rfl
          · refine Or.inr ?_
            rw [unbind_binding?, if_neg, isDir]
            rintro rfl
            exact bound (empty name)
      named := by
        intro other bound
        rw [unbind_binding?] at bound
        split at bound
        · contradiction
        · exact sound.named other bound
      stored := by
        intro other id bound
        rw [unbind_binding?] at bound
        split at bound
        · contradiction
        · exact sound.stored other id bound
      apart := by
        intro first second id firstBound secondBound
        rw [unbind_binding?] at firstBound secondBound
        split at firstBound
        · contradiction
        split at secondBound
        · contradiction
        exact sound.apart first second id firstBound secondBound }
  faults_eq := rfl
  clock_le := Nat.le_refl _
  size_le := Nat.le_refl _
  entry_eq other outside := by rw [unbind_binding?, if_neg fun same => outside same.symm]
  read_eq _ _ _ := rfl

/-- Nothing lies below a file. -/
theorem free_below_file (sound : before.Sound) {path : Path} {id : FileId}
    (bound : before.binding? path = some (.file id)) (name : String) :
    before.binding? (path.child name) = none := by
  cases found : before.binding? (path.child name) with
  | none => rfl
  | some entry =>
      rcases sound.parented path name (by simp [found]) with rfl | isDir
      · simp [sound.rootless] at bound
      · simp [bound] at isDir

theorem removeFile_runs (sound : before.Sound) {path : Path} {id : FileId}
    (bound : before.binding? path = some (.file id)) :
    Runs (removeFile path) before (At path) NoFile fun _ after => after.binding? path = none := by
  refine Runs.attempt (a := ()) ?_
    (changes_unbind (free_below_file (ticked_sound sound) bound)) (by simp)
  rw [find_ticked, find_bound sound bound]
  rfl

/-- However the removal of a file ends, no other path is touched. -/
theorem removeFile_changes (sound : before.Sound) (path : Path) :
    Meets (removeFile path) before (fun _ after => Changes (At path) NoFile before after)
      fun _ after => Changes (At path) NoFile before after := by
  have ticked : Changes (At path) NoFile before before.ticked := (changes_ticked before).ofNothing
  cases found : before.ticked.find path with
  | error failure =>
      refine Meets.attempt_error (show _ = Except.error failure from ?_) ticked fun _ _ => ticked
      rw [found]
      rfl
  | ok entry =>
      cases entry with
      | none =>
          refine Meets.attempt_error (show _ = Except.error (.refused .notFound) from ?_) ticked
            fun _ _ => ticked
          rw [found]
          rfl
      | some entry =>
          cases entry with
          | directory =>
              refine Meets.attempt_error (show _ = Except.error (.refused .isDirectory) from ?_)
                ticked fun _ _ => ticked
              rw [found]
              rfl
          | file id =>
              have nonempty : path ≠ [] := by
                rintro rfl
                simp [find_isDir (ticked_sound sound) (Or.inl rfl)] at found
              have bound := binding?_of_find nonempty found
              rw [ticked_binding?] at bound
              apply Meets.mono (removeFile_runs sound bound)
              · exact fun _ _ holds => holds.1
              · exact fun _ _ holds => holds.1

theorem removeDirectory_happens (sound : before.Sound) {path : Path}
    (bound : before.binding? path = some .directory) (empty : before.below path = []) :
    Happens (removeDirectory path) before (At path) NoFile fun _ after =>
      after.binding? path = none := by
  have free (name : String) : before.ticked.binding? (path.child name) = none := by
    rw [ticked_binding?]
    cases found : before.binding? (path.child name) with
    | none => rfl
    | some entry =>
        have mem : (path.child name, entry) ∈ before.below path :=
          mem_below_iff.mpr ⟨found, by simp [Path.strictlyWithin, Path.child]⟩
        simp [empty] at mem
  have emptyStill : before.ticked.below path = [] := empty
  refine Happens.attempt (a := ()) ?_ (changes_unbind free) (by simp)
  rw [find_ticked, find_bound sound bound]
  show (if (before.ticked.below path).isEmpty then _ else _) = _
  rw [emptyStill]
  rfl

end FingerprintSet.Storage
