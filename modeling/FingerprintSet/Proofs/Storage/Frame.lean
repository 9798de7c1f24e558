import FingerprintSet.Storage.Volume

/-!
# Sound volumes and what a step changes

A volume is sound when its bindings form a tree: what is bound lies in a directory, every name
is one that a directory takes, and each file has contents of its own.  On a sound volume a path
is looked up by its binding alone, which is what every later argument about steps uses.

What work on a volume leaves alone is said by `Changes`: outside the given paths all bindings
stay, and the contents of every file that was there stay, the given files apart.  Work that only
creates files leaves all earlier contents alone, so whoever holds a file open is not disturbed.
-/

namespace FingerprintSet.Storage

/-- A name that a directory takes. -/
def FitsDirectory (name : String) : Prop :=
  name.utf8ByteSize ≤ Volume.longestName ∧ name.toList.contains '\x00' = false

namespace Path

@[simp]
theorem child_ne_nil (dir : Path) (name : String) : dir.child name ≠ [] := by
  simp [child]

theorem ne_child (dir : Path) (name : String) : dir ≠ dir.child name := by
  intro same
  simpa [child] using congrArg List.length same

theorem child_inj {dir : Path} {first second : String} :
    dir.child first = dir.child second ↔ first = second := by
  simp [child]

theorem within_iff {dir path : Path} : dir.within path = true ↔ ∃ rest, path = dir ++ rest := by
  simp only [within, List.isPrefixOf_iff_prefix]
  exact ⟨fun ⟨rest, equal⟩ => ⟨rest, equal.symm⟩, fun ⟨rest, equal⟩ => ⟨rest, equal.symm⟩⟩

theorem within_append (dir rest : Path) : dir.within (dir ++ rest) = true :=
  within_iff.mpr ⟨rest, rfl⟩

@[simp]
theorem within_self (dir : Path) : dir.within dir = true := by
  simpa using within_append dir []

@[simp]
theorem within_child (dir : Path) (name : String) : dir.within (dir.child name) = true :=
  within_append dir [name]

theorem within_trans {outer middle inner : Path} (first : outer.within middle = true)
    (second : middle.within inner = true) : outer.within inner = true := by
  rcases within_iff.mp first with ⟨rest, rfl⟩
  rcases within_iff.mp second with ⟨more, rfl⟩
  rw [List.append_assoc]
  exact within_append outer _

theorem isChildOf_iff {path dir : Path} :
    path.isChildOf dir = true ↔ ∃ name, path = dir.child name := by
  simp only [isChildOf, Bool.and_eq_true, List.isPrefixOf_iff_prefix, beq_iff_eq]
  constructor
  · rintro ⟨⟨rest, rfl⟩, length⟩
    simp only [List.length_append, Nat.add_left_cancel_iff] at length
    rcases List.length_eq_one_iff.mp length with ⟨name, rfl⟩
    exact ⟨name, rfl⟩
  · rintro ⟨name, rfl⟩
    simp [child]

/-- Two children of a directory with different names have nothing below them in common. -/
theorem not_within_sibling {dir path : Path} {first second : String} (different : first ≠ second)
    (below : (dir.child first).within path = true) : (dir.child second).within path = false := by
  rcases within_iff.mp below with ⟨rest, rfl⟩
  rw [Bool.eq_false_iff]
  intro other
  rcases within_iff.mp other with ⟨more, equal⟩
  simp only [child, List.append_assoc, List.cons_append, List.nil_append,
    List.append_cancel_left_eq, List.cons.injEq] at equal
  exact different equal.1

end Path

namespace Volume

/-- What a path is bound to. -/
def binding? (volume : Volume) (path : Path) : Option Entry :=
  volume.entries[path]?

/-- From now on the schedule refuses nothing. -/
def Quiet (volume : Volume) : Prop :=
  ∀ tick, volume.clock ≤ tick → volume.faults tick = none

/-- The root and every path bound to a directory. -/
def IsDir (volume : Volume) (path : Path) : Prop :=
  path = [] ∨ volume.binding? path = some .directory

/-- The bindings form a tree and each file has contents of its own. -/
structure Sound (volume : Volume) : Prop where
  rootless : volume.binding? [] = none
  parented : ∀ dir name, volume.binding? (dir.child name) ≠ none → volume.IsDir dir
  named : ∀ path, volume.binding? path ≠ none → ∀ name ∈ path, FitsDirectory name
  stored : ∀ path id, volume.binding? path = some (.file id) → id < volume.contents.size
  apart : ∀ first second id, volume.binding? first = some (.file id) →
    volume.binding? second = some (.file id) → first = second

@[simp]
theorem empty_binding? (faults : Nat → Option Errno) (path : Path) :
    Volume.binding? { faults } path = none :=
  Std.TreeMap.getElem?_emptyc

/-- An empty volume, whatever it refuses. -/
theorem empty_sound (faults : Nat → Option Errno) : Volume.Sound { faults } where
  rootless := empty_binding? faults []
  parented dir name present := absurd (empty_binding? faults _) present
  named path present := absurd (empty_binding? faults _) present
  stored path id bound := by simp at bound
  apart first second id bound := by simp at bound

/-- The volume as the next step finds it. -/
def ticked (volume : Volume) : Volume :=
  { volume with clock := volume.clock + 1 }

@[simp]
theorem ticked_binding? (volume : Volume) (path : Path) :
    volume.ticked.binding? path = volume.binding? path := rfl

@[simp]
theorem ticked_contents (volume : Volume) : volume.ticked.contents = volume.contents := rfl

@[simp]
theorem ticked_read (volume : Volume) (id : FileId) : volume.ticked.read id = volume.read id := rfl

/-! ## Bindings -/

@[simp]
theorem bind_binding? (volume : Volume) (path other : Path) (entry : Entry) :
    (volume.bind path entry).binding? other =
      if path = other then some entry else volume.binding? other := by
  simp [binding?, bind, Std.TreeMap.getElem?_insert]

@[simp]
theorem unbind_binding? (volume : Volume) (path other : Path) :
    (volume.unbind path).binding? other =
      if path = other then none else volume.binding? other := by
  simp [binding?, unbind, Std.TreeMap.getElem?_erase]

@[simp]
theorem bind_contents (volume : Volume) (path : Path) (entry : Entry) :
    (volume.bind path entry).contents = volume.contents := rfl

@[simp]
theorem unbind_contents (volume : Volume) (path : Path) :
    (volume.unbind path).contents = volume.contents := rfl

@[simp]
theorem write_binding? (volume : Volume) (id : FileId) (bytes : Bytes) (path : Path) :
    (volume.write id bytes).binding? path = volume.binding? path := rfl

@[simp]
theorem write_size (volume : Volume) (id : FileId) (bytes : Bytes) :
    (volume.write id bytes).contents.size = volume.contents.size := by
  simp [write]

theorem read_write_self {volume : Volume} {id : FileId} (bytes : Bytes)
    (known : id < volume.contents.size) : (volume.write id bytes).read id = bytes := by
  simp [write, read, Array.getD, known]

theorem read_write_ne {volume : Volume} {id other : FileId} (bytes : Bytes)
    (different : other ≠ id) : (volume.write id bytes).read other = volume.read other := by
  simp only [write, read, Array.getD_eq_getD_getElem?]
  rw [Array.getElem?_setIfInBounds_ne (Ne.symm different)]

/-- A volume with an empty file more, which has no name yet. -/
def grown (volume : Volume) : Volume :=
  { volume with contents := volume.contents.push #[] }

@[simp]
theorem grown_binding? (volume : Volume) (path : Path) :
    volume.grown.binding? path = volume.binding? path := rfl

@[simp]
theorem grown_size (volume : Volume) :
    volume.grown.contents.size = volume.contents.size + 1 := by
  simp [grown]

theorem read_grown {volume : Volume} {id : FileId} (known : id < volume.contents.size) :
    volume.grown.read id = volume.read id := by
  simp [Volume.read, grown, Array.getD_eq_getD_getElem?, Array.getElem?_push_lt, known]

@[simp]
theorem read_grown_size (volume : Volume) : volume.grown.read volume.contents.size = #[] := by
  simp [Volume.read, grown, Array.getD_eq_getD_getElem?]

@[simp]
theorem bind_read (volume : Volume) (path : Path) (entry : Entry) (id : FileId) :
    (volume.bind path entry).read id = volume.read id := rfl

theorem mem_below_iff {volume : Volume} {path : Path} {item : Path × Entry} :
    item ∈ volume.below path ↔
      volume.binding? item.1 = some item.2 ∧ path.strictlyWithin item.1 = true := by
  rw [below, List.mem_filter, Std.TreeMap.mem_toList_iff_getElem?_eq_some]
  rfl

theorem mem_children_iff {volume : Volume} {dir : Path} {name : String} :
    name ∈ volume.children dir ↔ volume.binding? (dir.child name) ≠ none := by
  simp only [children, List.mem_filterMap, List.mem_filter,
    Std.TreeMap.mem_toList_iff_getElem?_eq_some, Prod.exists, Path.isChildOf_iff]
  constructor
  · rintro ⟨path, entry, ⟨bound, child, rfl⟩, last⟩
    simp only [Path.child, List.getLast?_append, List.getLast?_singleton, Option.some_or,
      Option.some.injEq] at last
    subst last
    simp [binding?, bound]
  · intro present
    obtain ⟨entry, bound⟩ := Option.ne_none_iff_exists'.mp present
    exact ⟨dir.child name, entry, ⟨bound, name, rfl⟩, by simp [Path.child]⟩

theorem children_nodup (volume : Volume) (dir : Path) : (volume.children dir).Nodup := by
  rw [children, List.Nodup, List.pairwise_filterMap]
  apply List.Pairwise.imp_of_mem _ (volume.entries.distinct_keys_toList.filter _)
  intro first second firstMem secondMem different firstName firstLast secondName secondLast same
  subst same
  have isChild (item : Path × Entry) (mem : item ∈ volume.entries.toList.filter
      fun item => item.1.isChildOf dir) (last : item.1.getLast? = some firstName) :
      item.1 = dir.child firstName := by
    obtain ⟨name, child⟩ := Path.isChildOf_iff.mp (List.mem_filter.mp mem).2
    rw [child, Path.child, List.getLast?_concat] at last
    rw [child, Option.some.inj last]
  rw [isChild first firstMem firstLast, isChild second secondMem secondLast] at different
  exact different Std.ReflCmp.compare_self

/-! ## Looking up a path -/

theorem isDir_of_child {volume : Volume} (sound : volume.Sound) {dir : Path} {name : String}
    (isDir : volume.IsDir (dir.child name)) : volume.IsDir dir := by
  rcases isDir with nil | bound
  · exact absurd nil (Path.child_ne_nil dir name)
  · exact sound.parented dir name (by simp [bound])

/-- All directories on the way to a directory are directories. -/
theorem isDir_of_append {volume : Volume} (sound : volume.Sound) (dir rest : Path)
    (isDir : volume.IsDir (dir ++ rest)) : volume.IsDir dir := by
  induction rest generalizing dir with
  | nil => simpa using isDir
  | cons name rest ih =>
      have inner : dir ++ name :: rest = dir.child name ++ rest := by simp [Path.child]
      exact isDir_of_child sound (ih (dir.child name) (inner ▸ isDir))

theorem fits_of_isDir {volume : Volume} (sound : volume.Sound) {path : Path}
    (isDir : volume.IsDir path) : ∀ name ∈ path, FitsDirectory name := by
  rcases isDir with rfl | bound
  · simp
  · exact sound.named path (by simp [bound])

theorem follow_last (volume : Volume) (above : Path) {name : String}
    (fits : FitsDirectory name) :
    volume.follow above [name] = .ok (volume.binding? (above.child name)) := by
  unfold follow
  rw [if_neg (Nat.not_lt.mpr fits.1)]
  rfl

theorem follow_cons (volume : Volume) {above rest : Path} {name : String}
    (fits : FitsDirectory name) (bound : volume.binding? (above.child name) = some .directory)
    (more : rest ≠ []) :
    volume.follow above (name :: rest) = volume.follow (above.child name) rest := by
  have found : volume.entries[above.child name]? = some .directory := bound
  cases rest with
  | nil => contradiction
  | cons =>
      conv => lhs; unfold follow
      rw [if_neg (Nat.not_lt.mpr fits.1), found]

/-- Names that lead into a directory can be passed over. -/
theorem follow_append {volume : Volume} (sound : volume.Sound) (name : String)
    (above rest : Path) (isDir : volume.IsDir (above ++ rest)) :
    volume.follow above (rest ++ [name]) = volume.follow (above ++ rest) [name] := by
  induction rest generalizing above with
  | nil => rw [List.nil_append, List.append_nil]
  | cons first rest ih =>
      have inner : above ++ first :: rest = above.child first ++ rest := by simp [Path.child]
      rw [inner] at isDir ⊢
      have firstIsDir := isDir_of_append sound _ rest isDir
      have firstFits : FitsDirectory first :=
        fits_of_isDir sound firstIsDir first (by simp [Path.child])
      have bound := firstIsDir.resolve_left (Path.child_ne_nil above first)
      rw [List.cons_append, follow_cons volume firstFits bound (by simp)]
      exact ih (above.child first) isDir

theorem find_eq (volume : Volume) {path : Path}
    (names : ∀ name ∈ path, FitsDirectory name) :
    volume.find path =
      match volume.binding? path with
      | some entry => .ok (some entry)
      | none => volume.follow [] path := by
  have clean : ¬(path.any fun name => name.toList.contains '\x00') = true := by
    rw [List.any_eq_true]
    rintro ⟨name, mem, found⟩
    rw [(names name mem).2] at found
    contradiction
  rw [find, if_neg clean]
  rfl

/-- In a directory, a path is what it is bound to. -/
theorem find_child {volume : Volume} (sound : volume.Sound) {dir : Path} {name : String}
    (isDir : volume.IsDir dir) (fits : FitsDirectory name) :
    volume.find (dir.child name) = .ok (volume.binding? (dir.child name)) := by
  have names : ∀ part ∈ dir.child name, FitsDirectory part := by
    intro part mem
    rcases List.mem_append.mp mem with mem | mem
    · exact fits_of_isDir sound isDir part mem
    · exact List.mem_singleton.mp mem ▸ fits
  rw [find_eq volume names]
  cases bound : volume.binding? (dir.child name) with
  | some entry => rfl
  | none =>
      have followed := follow_append sound name [] dir (by simpa using isDir)
      rw [List.nil_append, follow_last volume dir fits, bound] at followed
      exact followed

/-- What no directory takes cannot be looked up. -/
theorem find_unfit {volume : Volume} (sound : volume.Sound) {dir : Path} {name : String}
    (isDir : volume.IsDir dir) (unfit : ¬FitsDirectory name) :
    ∃ failure, volume.find (dir.child name) = .error failure := by
  have free : volume.entries[dir.child name]? = none := by
    cases bound : volume.entries[dir.child name]? with
    | none => rfl
    | some entry =>
        have present : volume.binding? (dir.child name) ≠ none := by simp [binding?, bound]
        exact absurd (sound.named _ present name (by simp [Path.child])) unfit
  rw [find]
  split
  · exact ⟨_, rfl⟩
  · rename_i clean
    have long : longestName < name.utf8ByteSize := by
      apply Nat.lt_of_not_le
      intro short
      have found : name.toList.contains '\x00' = true := by
        rw [← Bool.not_eq_false]
        exact fun none => unfit ⟨short, none⟩
      exact clean (List.any_eq_true.mpr ⟨name, by simp [Path.child], found⟩)
    rw [free]
    have last : volume.follow dir [name] = .error (.refused .nameTooLong) := by
      unfold follow
      exact if_pos long
    have followed := follow_append sound name [] dir (by simpa using isDir)
    exact ⟨_, followed.trans last⟩

/-- A bound path is found. -/
theorem find_bound {volume : Volume} (sound : volume.Sound) {path : Path} {entry : Entry}
    (bound : volume.binding? path = some entry) : volume.find path = .ok (some entry) := by
  rw [find_eq volume (sound.named path (by simp [bound])), bound]

theorem find_isDir {volume : Volume} (sound : volume.Sound) {path : Path}
    (isDir : volume.IsDir path) : volume.find path = .ok (some .directory) := by
  rcases isDir with rfl | bound
  · rw [find_eq volume (by simp), sound.rootless]
    rfl
  · exact find_bound sound bound

theorem follow_bound {volume : Volume} {above path : Path} {entry : Entry} (nonempty : path ≠ [])
    (followed : volume.follow above path = .ok (some entry)) :
    volume.binding? (above ++ path) = some entry := by
  induction path generalizing above with
  | nil => contradiction
  | cons name rest ih =>
      unfold follow at followed
      split at followed
      · contradiction
      · split at followed
        · simpa [binding?, Path.child] using followed
        · contradiction
        · contradiction
        · rename_i next more _
          have inner := ih (by simp) followed
          simpa [Path.child] using inner

/-- What is found below the root is bound. -/
theorem binding?_of_find {volume : Volume} {path : Path} {entry : Entry} (nonempty : path ≠ [])
    (found : volume.find path = .ok (some entry)) : volume.binding? path = some entry := by
  unfold find at found
  split at found
  · contradiction
  · split at found
    · rename_i bound
      simpa [binding?, bound] using found
    · simpa using follow_bound nonempty found

/-- The clock has no part in following names. -/
theorem follow_ticked (volume : Volume) (above path : Path) :
    volume.ticked.follow above path = volume.follow above path := by
  induction path generalizing above with
  | nil => rfl
  | cons name rest ih =>
      have entries : volume.ticked.entries = volume.entries := rfl
      unfold follow
      rw [entries]
      simp only [ih]

@[simp]
theorem find_ticked (volume : Volume) (path : Path) :
    volume.ticked.find path = volume.find path := by
  have entries : volume.ticked.entries = volume.entries := rfl
  rw [find, find, follow_ticked, entries]

/-! ## Changes -/

/-- No path. -/
def Nowhere (_ : Path) : Prop := False

/-- No file. -/
def NoFile (_ : FileId) : Prop := False

/-- The files that are there. -/
def Known (volume : Volume) (id : FileId) : Prop :=
  id < volume.contents.size

/-- The files that are not there yet. -/
def Fresh (volume : Volume) (id : FileId) : Prop :=
  volume.contents.size ≤ id

/-- What differs after some work: bindings at the given paths only and, of the files that were
there, the contents of the given ones only. -/
structure Changes (paths : Path → Prop) (files : FileId → Prop) (before after : Volume) :
    Prop where
  sound : before.Sound → after.Sound
  faults_eq : after.faults = before.faults
  clock_le : before.clock ≤ after.clock
  size_le : before.contents.size ≤ after.contents.size
  entry_eq : ∀ path, ¬paths path → after.binding? path = before.binding? path
  read_eq : ∀ id, id < before.contents.size → ¬files id → after.read id = before.read id

namespace Changes

variable {paths morePaths : Path → Prop} {files moreFiles : FileId → Prop}
  {before middle after : Volume}

theorem refl (volume : Volume) : Changes paths files volume volume where
  sound := id
  faults_eq := rfl
  clock_le := Nat.le_refl _
  size_le := Nat.le_refl _
  entry_eq _ _ := rfl
  read_eq _ _ _ := rfl

theorem trans (first : Changes paths files before middle)
    (second : Changes paths files middle after) : Changes paths files before after where
  sound sound := second.sound (first.sound sound)
  faults_eq := second.faults_eq.trans first.faults_eq
  clock_le := Nat.le_trans first.clock_le second.clock_le
  size_le := Nat.le_trans first.size_le second.size_le
  entry_eq path outside :=
    (second.entry_eq path outside).trans (first.entry_eq path outside)
  read_eq id known outside :=
    (second.read_eq id (Nat.lt_of_lt_of_le known first.size_le) outside).trans
      (first.read_eq id known outside)

theorem mono (changes : Changes paths files before after)
    (pathsSub : ∀ path, paths path → morePaths path)
    (filesSub : ∀ id, id < before.contents.size → files id → moreFiles id) :
    Changes morePaths moreFiles before after where
  sound := changes.sound
  faults_eq := changes.faults_eq
  clock_le := changes.clock_le
  size_le := changes.size_le
  entry_eq path outside := changes.entry_eq path fun inside => outside (pathsSub path inside)
  read_eq id known outside :=
    changes.read_eq id known fun inside => outside (filesSub id known inside)

theorem ofNothing (changes : Changes Nowhere NoFile before after) :
    Changes paths files before after :=
  changes.mono (fun _ nowhere => nowhere.elim) fun _ _ none => none.elim

/-- Work that writes only to files it created itself leaves all earlier contents alone. -/
theorem ofFresh (changes : Changes paths before.Fresh before after) :
    Changes paths NoFile before after :=
  changes.mono (fun _ inside => inside) fun _ known fresh => absurd known (Nat.not_lt.mpr fresh)

theorem toFresh (changes : Changes paths NoFile before after) (volume : Volume) :
    Changes paths volume.Fresh before after :=
  changes.mono (fun _ inside => inside) fun _ _ none => none.elim

/-- A schedule that refuses nothing goes on refusing nothing. -/
theorem quiet (changes : Changes paths files before after) (quiet : before.Quiet) :
    after.Quiet := by
  intro tick later
  rw [changes.faults_eq]
  exact quiet tick (Nat.le_trans changes.clock_le later)

theorem isDir (changes : Changes paths files before after) {dir : Path} (outside : ¬paths dir)
    (isDir : before.IsDir dir) : after.IsDir dir := by
  rcases isDir with rfl | bound
  · exact Or.inl rfl
  · exact Or.inr ((changes.entry_eq dir outside).trans bound)

end Changes

theorem ticked_sound {volume : Volume} (sound : volume.Sound) : volume.ticked.Sound where
  rootless := sound.rootless
  parented := sound.parented
  named := sound.named
  stored := sound.stored
  apart := sound.apart

theorem changes_ticked (volume : Volume) : Changes Nowhere NoFile volume volume.ticked where
  sound := ticked_sound
  faults_eq := rfl
  clock_le := Nat.le_succ _
  size_le := Nat.le_refl _
  entry_eq _ _ := rfl
  read_eq _ _ _ := rfl

end Volume

end FingerprintSet.Storage
