import FingerprintSet.Proofs.OpenSet.Confined

/-!
# Sets side by side

Sets are opened under different names in one directory and used in turns, and steps of any turn may
be refused.  No entry of the directory belongs to two of the names, so whatever is done with one
set, the files and directories of the others stay as they are, and each set gives the answers it
would give if it were alone.  The one thing it can tell is that file numbers were given out
elsewhere.
-/

namespace FingerprintSet

open Storage Volume Storage.Region Checkpoint

/-! ## What belongs to a name -/

/-- The paths of all that belongs to a name. -/
def Belongings (dir : Path) (name : String) (path : Path) : Prop :=
  ∃ entry, Belongs name entry ∧ Within (dir.child entry) path

variable {dir path : Path} {name other : String}

/-- A path that belongs to two names belongs to one. -/
theorem Belongings.name_eq (first : Belongings dir name path) (second : Belongings dir other path) :
    name = other := by
  obtain ⟨entry, belongs, within⟩ := first
  obtain ⟨also, also_belongs, also_within⟩ := second
  obtain ⟨rest, rfl⟩ := Path.within_iff.mp within
  obtain ⟨more, same⟩ := Path.within_iff.mp also_within
  rw [Path.child, Path.child, List.append_assoc, List.append_assoc, List.append_cancel_left_eq] at same
  obtain rfl := (List.cons.inj same).1
  exact belongs.name_eq also_belongs

/-- The directory itself belongs to nobody, nor does anything above it. -/
theorem Belongings.not_above (belongs : Belongings dir name path) : ¬Within path dir := by
  obtain ⟨entry, -, within⟩ := belongs
  intro above
  have circle := Path.within_trans within above
  obtain ⟨rest, same⟩ := Path.within_iff.mp circle
  have length := congrArg List.length same
  rw [Path.child, List.length_append, List.length_append, List.length_singleton] at length
  omega

/-- The part of a volume that belongs to a name. -/
def place (dir : Path) (name : String) (others : FileId → Prop) : Region where
  reads path := Belongings dir name path ∨ Within path dir
  writes := Belongings dir name
  others := others
  writes_reads _ := Or.inl
  reads_above above path within reads := by
    rcases reads with ⟨entry, belongs, inside⟩ | up
    · rcases List.prefix_or_prefix_of_prefix (List.isPrefixOf_iff_prefix.mp within)
        (List.isPrefixOf_iff_prefix.mp inside) with shorter | longer
      · rw [Path.child, List.prefix_concat_iff] at shorter
        rcases shorter with same | shorter
        · exact Or.inl ⟨entry, belongs, same ▸ Path.within_self _⟩
        · exact Or.inr (List.isPrefixOf_iff_prefix.mpr shorter)
      · exact Or.inl ⟨entry, belongs, List.isPrefixOf_iff_prefix.mpr longer⟩
    · exact Or.inr (Path.within_trans within up)
  writes_within _ _ within := fun ⟨entry, belongs, inside⟩ =>
    ⟨entry, belongs, Path.within_trans inside within⟩

theorem place_serves (dir : Path) (name : String) (others : FileId → Prop) :
    (place dir name others).Serves dir name where
  directory := Or.inr (Path.within_self dir)
  entries entry belongs := ⟨entry, belongs, Path.within_self _⟩

/-! ## Volumes at a turn -/

/-- A volume that refuses some of the steps from now on. -/
def Storage.Volume.refusing (volume : Volume) (faults : Nat → Option Errno) : Volume :=
  volume.reschedule fun tick => faults (tick - volume.clock)

/-- A volume on which more file numbers have been given out. -/
def Storage.Volume.passing (volume : Volume) (numbers : Nat) : Volume :=
  { volume with contents := volume.contents ++ Array.replicate numbers #[] }

theorem read_passing (volume : Volume) (numbers : Nat) (id : FileId) :
    (volume.passing numbers).read id = volume.read id := by
  simp only [Volume.read, passing, Array.getD_eq_getD_getElem?, Array.getElem?_append]
  split
  · rfl
  · rename_i above
    rw [Array.getElem?_replicate, Array.getElem?_eq_none (Nat.not_lt.mp above)]
    split <;> rfl

namespace OpenSet

/-! ## Files that a set reads -/

/-- Files that a set keeps open. -/
def Opened : OpenSet → FileId → Prop
  | .bounded set => fun id => ∃ index < set.segments.size,
      ∃ item ∈ (set.segmentAt index).store.handles.entries, item.2 = .file id
  | .resident _ => fun _ => False

/-- Files of a set, if there is one: those that belong to its name and those that it keeps open. -/
def Uses (dir : Path) (name : String) (held : Option OpenSet) (volume : Volume) (id : FileId) : Prop :=
  (∃ path, Belongings dir name path ∧ volume.binding? path = some (.file id)) ∨
    ∃ set, held = some set ∧ set.Opened id

variable {region more : Region} {set : OpenSet} {files many : Nat} {id : FileId}

theorem owns_of_opened (here : (region.sets dir name).holds files set) (opened : set.Opened id) :
    region.Owns files id := by
  cases set with
  | bounded set =>
      obtain ⟨index, below, item, mem, same⟩ := opened
      obtain ⟨count, inside⟩ := here
      exact (inside.segments index (inside.count_eq ▸ below)).opened item mem id same
  | resident set => exact opened.elim

/-- A set is in another region for the same paths if that has the files it keeps open. -/
theorem sets_of_owns (here : (region.sets dir name).holds files set)
    (writes : more.writes = region.writes) (owns : ∀ id, set.Opened id → more.Owns many id) :
    (more.sets dir name).holds many set := by
  cases set with
  | bounded set =>
      obtain ⟨count, inside⟩ := here
      refine ⟨count, inside.checkpoints, writes ▸ inside.overflow, inside.count_eq, inside.routes, ?_⟩
      intro index below
      have segment := inside.segments index below
      refine ⟨writes ▸ segment.directory, writes ▸ segment.pages, fun item mem id same => ?_⟩
      exact owns id ⟨index, inside.count_eq.symm ▸ below, item, mem, same⟩
  | resident set => exact here

/-- A set, if there is one, for a name in a directory. -/
def held (region : Region) (dir : Path) (name : String) : Custody (Option OpenSet) where
  holds files held := ∀ set, held = some set → (region.sets dir name).holds files set
  grows more here set same := (region.sets dir name).grows more (here set same)

/-! ## Turns -/

/-- What can be done under a name. -/
inductive Operation
  | openAt (settings : Settings) (seed : UInt64)
  | ask (command : Command)
  | close

/-- What is told, if anything, and the set that is open then, if any. -/
abbrev Told := Option (Except Error BoundedSet.Reply) × Option OpenSet

/-- A set that could be opened is open. -/
def opening : Except Error OpenSet → Told
  | .ok set => (some (.ok .done), some set)
  | .error error => (some (.error error), none)

/-- A set that was given up is open no more. -/
def closing (closed : Except Error Unit) : Told :=
  (some (closed.map fun _ => .done), none)

/-- Do something under a name, with the set that is open under it.  Nothing can be asked of a set
that is not open, and one that is open is dropped when another one is opened. -/
def act (dir : Path) (name : String) : Operation → Option OpenSet → StateM Volume Told
  | .openAt settings seed, _ => do
      return opening (← (OpenSet.openAt settings seed dir name).run)
  | .ask command, some set => do
      let (reply, set) ← (OpenSet.ask command).run set
      return (some reply, some set)
  | .close, some set => do
      return closing (← set.close.run)
  | _, none => return (none, none)

theorem held_none (region : Region) (files : Nat) : (held region dir name).holds files none :=
  fun _ impossible => nomatch impossible

theorem held_some (here : (region.sets dir name).holds files set) :
    (held region dir name).holds files (some set) :=
  fun _ same => Option.some.inj same ▸ here

theorem act_agrees (serves : region.Serves dir name) (operation : Operation)
    {open? : Option OpenSet} {first second : Volume} (alike : region.Alike first second)
    (here : (held region dir name).holds first.contents.size open?) :
    region.Agree (fun told files => (held region dir name).holds files told.2) first
      (act dir name operation open? first) (act dir name operation open? second) := by
  have idle : region.Agree (fun (told : Told) files => (held region dir name).holds files told.2)
      first ((none, none), first) ((none, none), second) := Agree.here alike (held_none region _)
  rcases operation with ⟨settings, seed⟩ | command | _
  · have agree := openAt_confined serves settings seed first second alike
    refine ⟨congrArg opening agree.same, agree.alike, agree.keeps, ?_⟩
    show (held region dir name).holds _ (opening (OpenSet.openAt settings seed dir name first).1).2
    cases ended : (OpenSet.openAt settings seed dir name first).1 with
    | ok set => exact held_some (agree.holds set ended)
    | error error => exact held_none region _
  · cases open? with
    | none => exact idle
    | some set =>
        have agree := ask_confined serves command set first second alike (here set rfl)
        exact ⟨congrArg (fun ended => (some ended.1, some ended.2)) agree.same, agree.alike,
          agree.keeps, held_some agree.holds.1⟩
  · cases open? with
    | none => exact idle
    | some set =>
        have agree := close_confined (here set rfl) first second alike
        exact ⟨congrArg closing agree.same, agree.alike, agree.keeps, held_none region _⟩

/-- One move: whose turn it is, what is done, and which of its steps are refused, the first one being
that with number zero. -/
structure Move (ι : Type) where
  whose : ι
  operation : Operation
  faults : Nat → Option Errno

/-- Sets side by side, each of them open or not. -/
structure Together (ι : Type) where
  sets : ι → Option OpenSet
  volume : Volume

/-- No set is open yet. -/
def Together.start {ι : Type} (volume : Volume) : Together ι where
  sets _ := none
  volume := volume

namespace Together

variable {ι : Type} [DecidableEq ι]

/-- What is told in a turn, and how things are after it. -/
def take (dir : Path) (names : ι → String) (turn : Move ι) (together : Together ι) :
    Option (Except Error BoundedSet.Reply) × Together ι :=
  let ended := act dir (names turn.whose) turn.operation (together.sets turn.whose)
    (together.volume.refusing turn.faults)
  (ended.1.1, { sets := Function.update together.sets turn.whose ended.1.2, volume := ended.2 })

/-- What is told in some turns, and to whom, and how things are after them. -/
def run (dir : Path) (names : ι → String) :
    List (Move ι) → Together ι → List (ι × Option (Except Error BoundedSet.Reply)) × Together ι
  | [], together => ([], together)
  | turn :: turns, together =>
      let taken := together.take dir names turn
      let ended := run dir names turns taken.2
      ((turn.whose, taken.1) :: ended.1, ended.2)

end Together

/-- A moment in the life of a set that is alone: something is done with it, or file numbers are given
out elsewhere. -/
inductive Moment
  | act (operation : Operation) (faults : Nat → Option Errno)
  | pass (numbers : Nat)

/-- A set that is alone on its volume, open or not. -/
structure Lone where
  open? : Option OpenSet
  volume : Volume

/-- What a set that is alone tells, and how things are in the end. -/
def Lone.run (dir : Path) (name : String) :
    List Moment → Lone → List (Option (Except Error BoundedSet.Reply)) × Lone
  | [], lone => ([], lone)
  | .pass numbers :: moments, lone =>
      run dir name moments { lone with volume := lone.volume.passing numbers }
  | .act operation faults :: moments, lone =>
      let told := OpenSet.act dir name operation lone.open? (lone.volume.refusing faults)
      let ended := run dir name moments ⟨told.1.2, told.2⟩
      (told.1.1 :: ended.1, ended.2)

/-- The life of a set that is alone, in which nothing but file numbers is left of the others. -/
def Alone {ι : Type} (whose : ι) : List (Move ι) → List Moment → Prop :=
  List.Forall₂ fun turn moment =>
    (turn.whose = whose ∧ moment = .act turn.operation turn.faults) ∨
      (turn.whose ≠ whose ∧ ∃ numbers, moment = .pass numbers)

/-- What belongs to a name is the same on two volumes. -/
structure Untouched (dir : Path) (name : String) (before after : Volume) : Prop where
  entry_eq : ∀ path, Belongings dir name path → after.binding? path = before.binding? path
  read_eq : ∀ path id, Belongings dir name path → before.binding? path = some (.file id) →
    after.read id = before.read id

/-- Two volumes look the same to a set: what belongs to its name is the same, and so is the way to
the directory and the number of files. -/
structure LooksSame (dir : Path) (name : String) (first second : Volume) : Prop
    extends Untouched dir name first second where
  above : ∀ path, Within path dir → second.binding? path = first.binding? path
  numbers : second.contents.size = first.contents.size

/-! ## What a turn keeps -/

/-- The part of a volume in which a set takes its turns.  Files that it does not use are others'. -/
def ground (dir : Path) (name : String) (open? : Option OpenSet) (volume : Volume) : Region :=
  place dir name fun id => id < volume.contents.size ∧ ¬Uses dir name open? volume id

/-- The directory is there, and the set keeps to its part of the volume. -/
structure Seated (dir : Path) (name : String) (open? : Option OpenSet) (volume : Volume) : Prop where
  there : ∀ path, Within path dir → volume.IsDir path
  noFile : ∀ path id, Within path dir → volume.binding? path ≠ some (.file id)
  known : ∀ id, Uses dir name open? volume id → id < volume.contents.size
  inside : (held (ground dir name open? volume) dir name).holds volume.contents.size open?

/-- A set finds the same on two volumes. -/
structure Mirrored (dir : Path) (name : String) (open? : Option OpenSet) (first second : Volume) :
    Prop where
  entry_eq : ∀ path, Belongings dir name path ∨ Within path dir →
    first.binding? path = second.binding? path
  read_eq : ∀ id, Uses dir name open? first id → first.read id = second.read id
  size_eq : first.contents.size = second.contents.size

variable {open? : Option OpenSet} {first second before after : Volume}

theorem Mirrored.refl (volume : Volume) : Mirrored dir name open? volume volume :=
  ⟨fun _ _ => rfl, fun _ _ => rfl, rfl⟩

/-- A file that is not others' is used or not known yet. -/
theorem Mirrored.read_ground (mirrored : Mirrored dir name open? first second)
    (own : ¬(ground dir name open? first).others id) : first.read id = second.read id := by
  by_cases uses : Uses dir name open? first id
  · exact mirrored.read_eq id uses
  · have above : first.contents.size ≤ id := Nat.not_lt.mp fun known => own ⟨known, uses⟩
    rw [Volume.read, Volume.read, Array.getD_eq_getD_getElem?, Array.getD_eq_getD_getElem?,
      Array.getElem?_eq_none above, Array.getElem?_eq_none (mirrored.size_eq ▸ above)]

theorem Seated.alike (seated : Seated dir name open? first)
    (mirrored : Mirrored dir name open? first second) (faults : Nat → Option Errno) :
    (ground dir name open? first).Alike (first.refusing faults) (second.refusing faults) where
  entry_eq := mirrored.entry_eq
  read_eq _ own := mirrored.read_ground own
  size_eq := mirrored.size_eq
  refusals_eq ticks := by
    show faults (first.clock + ticks - first.clock) = faults (second.clock + ticks - second.clock)
    rw [Nat.add_sub_cancel_left, Nat.add_sub_cancel_left]
  there path reads only := seated.there path (reads.resolve_left only)
  noFile path id only reads := seated.noFile path id (reads.resolve_left only)
  own path id writes bound :=
    have uses : Uses dir name open? first id := Or.inl ⟨path, writes, bound⟩
    ⟨fun foreign => foreign.2 uses, seated.known id uses⟩
  known _ foreign := foreign.1

/-- Files that a set uses after some work in a region are the region's. -/
theorem owns_of_uses (alike : region.Alike first second)
    (writes : region.writes = Belongings dir name)
    (inside : (held region dir name).holds first.contents.size open?)
    (uses : Uses dir name open? first id) : region.Owns first.contents.size id := by
  rcases uses with ⟨path, belongs, bound⟩ | ⟨set, same, opened⟩
  · exact alike.own path id (writes ▸ belongs) bound
  · exact owns_of_opened (inside set same) opened

/-- In its turn a set tells the same on volumes that it finds the same, and it finds the same
afterwards.  It uses no file that was another's. -/
theorem Seated.act (seated : Seated dir name open? first)
    (mirrored : Mirrored dir name open? first second) (operation : Operation)
    (faults : Nat → Option Errno) :
    let told := OpenSet.act dir name operation open? (first.refusing faults)
    let other := OpenSet.act dir name operation open? (second.refusing faults)
    told.1 = other.1 ∧ Seated dir name told.1.2 told.2 ∧
      Mirrored dir name told.1.2 told.2 other.2 ∧
      (ground dir name open? first).Keeps first told.2 ∧
      ∀ id, Uses dir name told.1.2 told.2 id → ¬(ground dir name open? first).others id := by
  intro told other
  have agree := act_agrees (place_serves dir name _) operation (seated.alike mirrored faults)
    seated.inside
  have owns (id : FileId) (uses : Uses dir name told.1.2 told.2 id) :
      (ground dir name open? first).Owns told.2.contents.size id :=
    owns_of_uses agree.alike rfl agree.holds uses
  have only {path : Path} (above : Within path dir) : ¬Belongings dir name path :=
    fun belongs => belongs.not_above above
  refine ⟨agree.same, ⟨fun path above => ?_, fun path id above => ?_, fun id uses => ?_, ?_⟩,
    ⟨agree.alike.entry_eq, fun id uses => ?_, agree.alike.size_eq⟩, ?_, fun id uses => ?_⟩
  · exact agree.alike.there path (Or.inr above) (only above)
  · exact agree.alike.noFile path id (only above) (Or.inr above)
  · exact (owns id uses).2
  · intro set same
    refine sets_of_owns (agree.holds set same) rfl fun id opened => ?_
    have uses : Uses dir name told.1.2 told.2 id := Or.inr ⟨set, same, opened⟩
    exact ⟨fun foreign => foreign.2 uses, (owns id uses).2⟩
  · exact agree.alike.read_eq id (owns id uses).1
  · exact ⟨agree.keeps.entry_eq, agree.keeps.read_eq, agree.keeps.size_le⟩
  · exact (owns id uses).1

/-! ## Turns of others -/

theorem entry_eq_beside {others : FileId → Prop} (different : name ≠ other)
    (keeps : (place dir other others).Keeps before after)
    (reads : Belongings dir name path ∨ Within path dir) :
    after.binding? path = before.binding? path := by
  refine keeps.entry_eq path fun belongs => ?_
  rcases reads with own | above
  · exact different (own.name_eq belongs)
  · exact belongs.not_above above

theorem uses_beside {others : FileId → Prop} (different : name ≠ other)
    (keeps : (place dir other others).Keeps before after) :
    Uses dir name open? after id ↔ Uses dir name open? before id := by
  refine or_congr_left (exists_congr fun path => and_congr_right fun belongs => ?_)
  rw [entry_eq_beside different keeps (Or.inl belongs)]

/-- After a turn of another set everything is in its place still. -/
theorem Seated.beside {others : FileId → Prop} (seated : Seated dir name open? before)
    (different : name ≠ other) (keeps : (place dir other others).Keeps before after) :
    Seated dir name open? after where
  there path above := by
    rcases seated.there path above with root | bound
    · exact Or.inl root
    · exact Or.inr ((entry_eq_beside different keeps (Or.inr above)).trans bound)
  noFile path id above := by
    rw [entry_eq_beside different keeps (Or.inr above)]
    exact seated.noFile path id above
  known id uses :=
    Nat.lt_of_lt_of_le (seated.known id ((uses_beside different keeps).mp uses)) keeps.size_le
  inside set same := by
    refine sets_of_owns (seated.inside set same) rfl fun id opened => ?_
    have uses : Uses dir name open? after id := Or.inr ⟨set, same, opened⟩
    have usedBefore := (uses_beside different keeps).mp uses
    exact ⟨fun foreign => foreign.2 uses,
      Nat.lt_of_lt_of_le (seated.known id usedBefore) keeps.size_le⟩

/-- Another set's turn is to a set that is alone as if file numbers were given out. -/
theorem Mirrored.beside {others : FileId → Prop} {alone : Volume}
    (mirrored : Mirrored dir name open? before alone) (different : name ≠ other)
    (keeps : (place dir other others).Keeps before after)
    (spared : ∀ id, Uses dir name open? before id → others id) :
    Mirrored dir name open? after
      (alone.passing (after.contents.size - before.contents.size)) where
  entry_eq path reads := (entry_eq_beside different keeps reads).trans (mirrored.entry_eq path reads)
  read_eq id uses := by
    have usedBefore := (uses_beside different keeps).mp uses
    rw [keeps.read_eq id (spared id usedBefore), mirrored.read_eq id usedBefore, read_passing]
  size_eq := by
    rw [passing, Array.size_append, Array.size_replicate, ← mirrored.size_eq]
    exact (Nat.add_sub_cancel' keeps.size_le).symm

/-! ## All sets together -/

namespace Together

variable {ι : Type} {names : ι → String} {together : Together ι} {volume : Volume}

/-- All sets keep to their parts, and no file is used by two of them. -/
structure Sound (dir : Path) (names : ι → String) (together : Together ι) : Prop where
  seated : ∀ i, Seated dir (names i) (together.sets i) together.volume
  apart : ∀ i j id, Uses dir (names i) (together.sets i) together.volume id →
    Uses dir (names j) (together.sets j) together.volume id → i = j

/-- Before any set is open only what belongs to the names counts. -/
theorem start_sound (distinct : Function.Injective names) (sound : volume.Sound)
    (isDir : volume.IsDir dir) : (start volume : Together ι).Sound dir names := by
  have bound {i : ι} {id : FileId} (uses : Uses dir (names i) none volume id) :
      ∃ path, Belongings dir (names i) path ∧ volume.binding? path = some (.file id) :=
    uses.resolve_right fun ⟨_, impossible, _⟩ => nomatch impossible
  have there (path : Path) (above : Within path dir) : volume.IsDir path := by
    obtain ⟨rest, rfl⟩ := Path.within_iff.mp above
    exact isDir_of_append sound path rest isDir
  refine ⟨fun i => ⟨there, fun path id above isFile => ?_, fun id uses => ?_, held_none _ _⟩,
    fun i j id uses also => ?_⟩
  · rcases there path above with rfl | isDir
    · exact Option.some_ne_none _ (isFile.symm.trans sound.rootless)
    · exact nomatch isFile.symm.trans isDir
  · obtain ⟨path, -, isFile⟩ := bound uses
    exact sound.stored path id isFile
  · obtain ⟨path, belongs, isFile⟩ := bound uses
    obtain ⟨second, also_belongs, also_isFile⟩ := bound also
    obtain rfl := sound.apart path second id isFile also_isFile
    exact distinct (belongs.name_eq also_belongs)

/-- The part of the volume that belongs to the set whose turn it is. -/
def turnGround (dir : Path) (names : ι → String) (turn : Move ι) (together : Together ι) : Region :=
  ground dir (names turn.whose) (together.sets turn.whose) together.volume

/-- The set whose turn it is not finds all its files among those of others. -/
theorem Sound.spared (sound : together.Sound dir names) {turn : Move ι} {i : ι}
    (other : i ≠ turn.whose) {id : FileId}
    (uses : Uses dir (names i) (together.sets i) together.volume id) :
    (together.turnGround dir names turn).others id :=
  ⟨(sound.seated i).known id uses, fun also => other (sound.apart i turn.whose id uses also)⟩

variable [DecidableEq ι]

theorem Sound.take_keeps (sound : together.Sound dir names) (turn : Move ι) :
    (together.turnGround dir names turn).Keeps together.volume
      (together.take dir names turn).2.volume :=
  ((sound.seated turn.whose).act (.refl _) turn.operation turn.faults).2.2.2.1

theorem sets_take (turn : Move ι) {i : ι} (other : i ≠ turn.whose) :
    (together.take dir names turn).2.sets i = together.sets i :=
  Function.update_of_ne other _ _

theorem Sound.take (distinct : Function.Injective names) (sound : together.Sound dir names)
    (turn : Move ι) : (together.take dir names turn).2.Sound dir names := by
  obtain ⟨-, seated, -, keeps, fresh⟩ :=
    (sound.seated turn.whose).act (.refl _) turn.operation turn.faults
  have own : (together.take dir names turn).2.sets turn.whose =
      (act dir (names turn.whose) turn.operation (together.sets turn.whose)
        (together.volume.refusing turn.faults)).1.2 := Function.update_self _ _ _
  have beside {i : ι} (other : i ≠ turn.whose) {id : FileId} :
      Uses dir (names i) ((together.take dir names turn).2.sets i)
          (together.take dir names turn).2.volume id ↔
        Uses dir (names i) (together.sets i) together.volume id := by
    rw [sets_take turn other]
    exact uses_beside (distinct.ne other) (sound.take_keeps turn)
  have mine {i : ι} (other : i ≠ turn.whose) {id : FileId}
      (uses : Uses dir (names turn.whose) ((together.take dir names turn).2.sets turn.whose)
        (together.take dir names turn).2.volume id)
      (also : Uses dir (names i) (together.sets i) together.volume id) : False := by
    rw [own] at uses
    exact fresh id uses (sound.spared other also)
  refine ⟨fun i => ?_, fun i j id uses also => ?_⟩
  · by_cases same : i = turn.whose
    · subst same
      rw [own]
      exact seated
    · rw [sets_take turn same]
      exact (sound.seated i).beside (distinct.ne same) (sound.take_keeps turn)
  · by_cases first : i = turn.whose <;> by_cases second : j = turn.whose
    · exact first.trans second.symm
    · exact (mine second (first ▸ uses) ((beside second).mp also)).elim
    · exact (mine first (second ▸ also) ((beside first).mp uses)).elim
    · exact sound.apart i j id ((beside first).mp uses) ((beside second).mp also)

theorem Sound.run (distinct : Function.Injective names) (sound : together.Sound dir names)
    (turns : List (Move ι)) : (run dir names turns together).2.Sound dir names := by
  induction turns generalizing together with
  | nil => exact sound
  | cons turn turns ih => exact ih (sound.take distinct turn)

/-- A turn leaves what belongs to other names as it is. -/
theorem Sound.untouched (distinct : Function.Injective names) (sound : together.Sound dir names)
    (turn : Move ι) {i : ι} (other : i ≠ turn.whose) :
    Untouched dir (names i) together.volume (together.take dir names turn).2.volume where
  entry_eq _ belongs := entry_eq_beside (distinct.ne other) (sound.take_keeps turn) (Or.inl belongs)
  read_eq path _ belongs bound :=
    (sound.take_keeps turn).read_eq _ (sound.spared other (Or.inl ⟨path, belongs, bound⟩))

/-- What is told to one set. -/
def toldTo (i : ι) (told : List (ι × Option (Except Error BoundedSet.Reply))) :
    List (Option (Except Error BoundedSet.Reply)) :=
  (told.filter fun item => item.1 = i).map (·.2)

theorem toldTo_own (i : ι) (reply : Option (Except Error BoundedSet.Reply))
    (told : List (ι × Option (Except Error BoundedSet.Reply))) :
    toldTo i ((i, reply) :: told) = reply :: toldTo i told := by
  rw [toldTo, List.filter_cons_of_pos (by simp), List.map_cons, toldTo]

theorem toldTo_other {i j : ι} (other : j ≠ i) (reply : Option (Except Error BoundedSet.Reply))
    (told : List (ι × Option (Except Error BoundedSet.Reply))) :
    toldTo i ((j, reply) :: told) = toldTo i told := by
  rw [toldTo, List.filter_cons_of_neg (by simpa using other), toldTo]

/-- Turns of several sets are for one of them the life of a set that is alone. -/
theorem Sound.alone (distinct : Function.Injective names) (sound : together.Sound dir names)
    (turns : List (Move ι)) (i : ι) {alone : Volume}
    (mirrored : Mirrored dir (names i) (together.sets i) together.volume alone) :
    ∃ moments, Alone i turns moments ∧
      let ended := Together.run dir names turns together
      let last := Lone.run dir (names i) moments ⟨together.sets i, alone⟩
      last.1 = toldTo i ended.1 ∧ last.2.open? = ended.2.sets i ∧
        Mirrored dir (names i) (ended.2.sets i) ended.2.volume last.2.volume := by
  induction turns generalizing together alone with
  | nil => exact ⟨[], .nil, rfl, rfl, mirrored⟩
  | cons turn turns ih =>
      have next := sound.take distinct turn
      by_cases mine : turn.whose = i
      · subst mine
        obtain ⟨same, -, mirroredNext, -⟩ :=
          (sound.seated turn.whose).act mirrored turn.operation turn.faults
        have own : (together.take dir names turn).2.sets turn.whose =
            (act dir (names turn.whose) turn.operation (together.sets turn.whose)
              (together.volume.refusing turn.faults)).1.2 := Function.update_self _ _ _
        rw [← own] at mirroredNext
        obtain ⟨moments, follows, told, last⟩ := ih next mirroredNext
        refine ⟨.act turn.operation turn.faults :: moments, .cons (Or.inl ⟨rfl, rfl⟩) follows, ?_⟩
        rw [own, same] at told last
        refine ⟨?_, last⟩
        rw [Together.run, toldTo_own, ← told, Lone.run]
        exact congrArg (· :: _) (congrArg Prod.fst same).symm
      · obtain ⟨moments, follows, told, last⟩ := ih next <|
          sets_take turn (Ne.symm mine) ▸ mirrored.beside (distinct.ne (Ne.symm mine))
            (sound.take_keeps turn) fun id uses => sound.spared (Ne.symm mine) uses
        rw [sets_take turn (Ne.symm mine)] at told last
        refine ⟨.pass _ :: moments, .cons (Or.inr ⟨mine, _, rfl⟩) follows, ?_, last⟩
        rw [Together.run, toldTo_other mine]
        exact told

end Together

/-! ## Sets that are as if alone -/

theorem Mirrored.looksSame (mirrored : Mirrored dir name open? first second) :
    LooksSame dir name first second where
  entry_eq path belongs := (mirrored.entry_eq path (Or.inl belongs)).symm
  read_eq path id belongs bound := (mirrored.read_eq id (Or.inl ⟨path, belongs, bound⟩)).symm
  above path way := (mirrored.entry_eq path (Or.inr way)).symm
  numbers := mirrored.size_eq.symm

/-- A set that is not open uses no more than what belongs to its name. -/
theorem LooksSame.mirrored (same : LooksSame dir name first second) :
    Mirrored dir name none first second where
  entry_eq path := fun
    | .inl belongs => (same.entry_eq path belongs).symm
    | .inr way => (same.above path way).symm
  read_eq id := fun
    | .inl ⟨path, belongs, bound⟩ => (same.read_eq path id belongs bound).symm
    | .inr ⟨_, impossible, _⟩ => nomatch impossible
  size_eq := same.numbers.symm

/-- Sets are opened under different names in a directory, in use, closed and opened again in turns,
and in every turn any steps are refused.  No entry of the directory belongs to two of the names.
A turn changes only what belongs to the name whose turn it is, and leaves the files and directories
of every other set as they are.  And each set tells what it would tell alone, on any volume that
looks the same to it such as one without the others, and leaves the same behind; of the turns of
the others nothing is left but that file numbers are given out. -/
theorem neighbours_apart {ι : Type} [DecidableEq ι] {names : ι → String}
    (distinct : Function.Injective names) {volume : Volume} (sound : volume.Sound)
    (isDir : volume.IsDir dir) (turns : List (Move ι)) :
    (∀ i j entry, Belongs (names i) entry → Belongs (names j) entry → i = j) ∧
      let ended := Together.run dir names turns (.start volume)
      (∀ turn,
        let after := (ended.2.take dir names turn).2.volume
        (∀ path, ¬Belongings dir (names turn.whose) path →
          after.binding? path = ended.2.volume.binding? path) ∧
        ∀ i ≠ turn.whose, Untouched dir (names i) ended.2.volume after) ∧
      ∀ i alone, LooksSame dir (names i) volume alone → ∃ moments, Alone i turns moments ∧
        let last := Lone.run dir (names i) moments ⟨none, alone⟩
        last.1 = Together.toldTo i ended.1 ∧ last.2.open? = ended.2.sets i ∧
          LooksSame dir (names i) ended.2.volume last.2.volume := by
  have start : (Together.start volume : Together ι).Sound dir names :=
    Together.start_sound distinct sound isDir
  have later := start.run distinct turns
  refine ⟨fun i j entry first second => distinct (first.name_eq second), ?_, ?_⟩
  · intro turn
    exact ⟨(later.take_keeps turn).entry_eq, fun i other => later.untouched distinct turn other⟩
  · intro i alone same
    obtain ⟨moments, follows, told, open_eq, mirrored⟩ := start.alone distinct turns i same.mirrored
    exact ⟨moments, follows, told, open_eq, mirrored.looksSame⟩

/-- Two sets, one under a name that ends like a generation of the other one.  A put into the second
one is refused a step in between. -/
theorem neighbours_apart_nested :
    let names : Bool → String := fun second => if second then "fps.chkpt.5" else "fps"
    let turns : List (Move Bool) :=
      [⟨false, .openAt tightSettings 7, fun _ => none⟩,
       ⟨true, .openAt tightSettings 1, fun _ => none⟩,
       ⟨true, .ask (.put 3), fun tick => if tick = 1 then some .noSpace else none⟩,
       ⟨false, .ask (.put 3), fun _ => none⟩,
       ⟨true, .ask .beginCheckpoint, fun _ => none⟩,
       ⟨false, .ask .beginCheckpoint, fun _ => none⟩,
       ⟨false, .ask .commitCheckpoint, fun _ => none⟩]
    Function.Injective names ∧ (∀ i, isUsableName (names i) = true) ∧
      Site.root.volume.Sound ∧ Site.root.volume.IsDir [] ∧
      let ended := Together.run [] names turns (.start Site.root.volume)
      Untouched [] (names true) ended.2.volume
          (ended.2.take [] names ⟨false, .close, fun _ => none⟩).2.volume ∧
        ∃ moments, Alone true turns moments ∧
          (Lone.run [] (names true) moments ⟨none, Site.root.volume⟩).1 =
            Together.toldTo true ended.1 := by
  intro names turns
  have distinct : Function.Injective names := by
    rintro (_ | _) (_ | _) same
    · rfl
    · exact absurd same (by decide)
    · exact absurd same (by decide)
    · rfl
  have usable : ∀ i, isUsableName (names i) = true := by decide
  have same : LooksSame [] (names true) Site.root.volume Site.root.volume :=
    { entry_eq := fun _ _ => rfl
      read_eq := fun _ _ _ _ => rfl
      above := fun _ _ => rfl
      numbers := rfl }
  have isDir : Site.root.volume.IsDir [] := Site.root.isDir
  obtain ⟨-, kept, lives⟩ := neighbours_apart distinct Site.root.sound isDir turns
  obtain ⟨moments, follows, told, -⟩ := lives true _ same
  have other : true ≠ false := by decide
  refine ⟨distinct, usable, Site.root.sound, isDir, ?_, moments, follows, told⟩
  exact (kept ⟨false, .close, fun _ => none⟩).2 true other

end OpenSet

end FingerprintSet
