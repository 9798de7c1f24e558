import FingerprintSet.Checkpoint.Keeper
import FingerprintSet.Proofs.Checkpoint.Generation
import FingerprintSet.Proofs.Storage.Keeping
import FingerprintSet.Proofs.Storage.Trees
import FingerprintSet.Proofs.Storage.Renaming

/-!
# The directories of a set's checkpoints

What holds of them at every moment, also when some work on them was cut short: the generation
that was published last is complete, and no directory stands for a later one.  Recovery relies
on nothing else, so what it finds is that generation.
-/

namespace FingerprintSet

open Storage Volume SortedFile Checkpoint

variable {before : Volume} {dir : Path} {name : String} {last : Option Generation}

/-- The directory of a generation as a checkpoint that was loaded from it. -/
def Generation.checkpoint (dir : Path) (name : String) (generation : Generation) : Checkpoint where
  directory := dir.child (generationName name generation.number)
  manifest := generation.manifest

/-- The generation published last is complete, and no directory stands for a later one. -/
structure Kept (dir : Path) (name : String) (last : Option Generation) (volume : Volume) : Prop where
  isDir : volume.IsDir dir
  /-- What stands for a generation stands for the last one or an earlier one, and for the last
  one only under its own name. -/
  earlier : ∀ entry number, generationOf? name entry = some number →
    volume.binding? (dir.child entry) ≠ none → ∃ latest, last = some latest ∧
      number ≤ latest.number ∧ (number = latest.number → entry = generationName name number)
  staging : ∀ id, volume.binding? (dir.child (stagingName name)) ≠ some (.file id)
  sound : ∀ latest, last = some latest → latest.Sound
  isGeneration : ∀ latest, last = some latest →
    volume.binding? (dir.child (generationName name latest.number)) = some .directory
  complete : ∀ latest, last = some latest →
    latest.Complete volume (dir.child (generationName name latest.number))

/-- Work outside the generations' directories. -/
def Spares (dir : Path) (name : String) (paths : Path → Prop) : Prop :=
  ¬paths dir ∧ ∀ entry number, generationOf? name entry = some number →
    ∀ path, Within (dir.child entry) path → ¬paths path

theorem Kept.of_changes {paths : Path → Prop} {after : Volume} (kept : Kept dir name last before)
    (volumeSound : before.Sound) (changes : Changes paths NoFile before after)
    (spares : Spares dir name paths)
    (staging : ∀ id, after.binding? (dir.child (stagingName name)) ≠ some (.file id)) :
    Kept dir name last after where
  isDir := changes.isDir spares.1 kept.isDir
  earlier entry number stands present := by
    rw [changes.entry_eq _ (spares.2 entry number stands _ (Path.within_self _))] at present
    exact kept.earlier entry number stands present
  staging := staging
  sound := kept.sound
  isGeneration latest same := by
    have stands := @generationOf?_generationName name _ (kept.sound latest same).number
    rw [changes.entry_eq _ (spares.2 _ _ stands _ (Path.within_self _))]
    exact kept.isGeneration latest same
  complete latest same := by
    have stands := @generationOf?_generationName name _ (kept.sound latest same).number
    apply (kept.complete latest same).of_changes volumeSound changes
    · exact fun file => spares.2 _ _ stands _ (Path.within_child _ file)
    · exact fun _ _ _ none => none

/-- The directory in which a checkpoint is written is apart from the generations. -/
theorem spares_staging (dir : Path) (name : String) :
    Spares dir name (Within (dir.child (stagingName name))) := by
  constructor
  · intro within
    obtain ⟨rest, same⟩ := Path.within_iff.mp within
    simpa [Path.child] using congrArg List.length same
  · intro entry number stands path within inStaging
    have different : entry ≠ stagingName name := by
      rintro rfl
      rw [generationOf?_stagingName] at stands
      contradiction
    rw [Within, Path.not_within_sibling different within] at inStaging
    contradiction

/-- What belongs to the checkpoints under a name: all names that start with the stem. -/
def Owned (dir : Path) (name : String) (path : Path) : Prop :=
  ∃ suffix, Within (dir.child (stem name ++ suffix)) path

/-- Work outside of all that belongs to the checkpoints. -/
structure Apart (dir : Path) (name : String) (paths : Path → Prop) : Prop where
  directory : ¬paths dir
  owned : ∀ path, Owned dir name path → ¬paths path

theorem Spares.or {first second : Path → Prop} (one : Spares dir name first)
    (other : Spares dir name second) : Spares dir name fun path => first path ∨ second path := by
  constructor
  · rintro (inside | inside)
    · exact one.1 inside
    · exact other.1 inside
  · rintro entry number stands path within (inside | inside)
    · exact one.2 entry number stands path within inside
    · exact other.2 entry number stands path within inside

theorem owned_staging {path : Path} (within : Within (dir.child (stagingName name)) path) :
    Owned dir name path :=
  ⟨"staging", within⟩

theorem Apart.spares {paths : Path → Prop} (apart : Apart dir name paths) : Spares dir name paths := by
  refine ⟨apart.directory, fun entry number stands path within => ?_⟩
  obtain ⟨suffix, rfl⟩ := stem_of_generationOf? stands
  exact apart.owned path ⟨suffix, within⟩

theorem apart_nowhere (dir : Path) (name : String) : Apart dir name Nowhere :=
  ⟨fun nowhere => nowhere, fun _ _ nowhere => nowhere⟩

theorem Kept.of_look {after : Volume} (kept : Kept dir name last before)
    (volumeSound : before.Sound) (changes : Changes Nowhere NoFile before after) :
    Kept dir name last after := by
  apply kept.of_changes volumeSound changes (apart_nowhere dir name).spares
  intro id
  rw [changes.entry_eq _ (fun nowhere => nowhere)]
  exact kept.staging id

/-! ## The generations there are -/

/-- A directory that stands for a generation. -/
def Stands (volume : Volume) (dir : Path) (name : String) (found : Nat × Path) : Prop :=
  ∃ entry, generationOf? name entry = some found.1 ∧ found.2 = dir.child entry ∧
    volume.binding? found.2 = some .directory

/-- The directories that stand for generations are among what the directory holds. -/
theorem stands_iff {item : Nat × Path} : Stands before dir name item ↔
    ∃ entry ∈ before.children dir, generationOf? name entry = some item.1 ∧
      item.2 = dir.child entry ∧ before.binding? item.2 = some .directory := by
  refine exists_congr fun entry => ⟨fun stands => ⟨?_, stands⟩, And.right⟩
  rw [mem_children_iff, ← stands.2.1, stands.2.2]
  exact Option.some_ne_none _

/-- The same directories are generations while work spares them. -/
theorem stands_congr {paths : Path → Prop} {after : Volume} {item : Nat × Path}
    (changes : Changes paths NoFile before after) (spares : Spares dir name paths) :
    Stands after dir name item ↔ Stands before dir name item := by
  have same {entry : String} (number : generationOf? name entry = some item.1) :
      after.binding? (dir.child entry) = before.binding? (dir.child entry) :=
    changes.entry_eq _ (spares.2 entry _ number _ (Path.within_self _))
  constructor
  · rintro ⟨entry, number, path, bound⟩
    exact ⟨entry, number, path, by rw [path, ← same number, ← path, bound]⟩
  · rintro ⟨entry, number, path, bound⟩
    exact ⟨entry, number, path, by rw [path, same number, ← path, bound]⟩

namespace CheckpointKeeper

theorem generationsIn_runs (volumeSound : before.Sound) (isDir : before.IsDir dir) :
    Runs (generationsIn dir name) before Nowhere NoFile fun found _ =>
      found.Pairwise (fun first second => first.1 ≤ second.1) ∧
        ∀ item, item ∈ found ↔ Stands before dir name item := by
  have lists := (listDirectory_runs volumeSound isDir).mono fun _ _ changes names =>
    And.intro changes names
  apply Runs.bind (Activity.runs lists)
  rintro entries after _ ⟨changes, rfl⟩
  have afterSound := changes.sound volumeSound
  apply Meets.getVolumeThen
  apply Runs.pure
  constructor
  · have trans (a b c : Nat × Path) (first : decide (a.1 ≤ b.1) = true)
        (second : decide (b.1 ≤ c.1) = true) : decide (a.1 ≤ c.1) = true :=
      decide_eq_true (Nat.le_trans (of_decide_eq_true first) (of_decide_eq_true second))
    have total (a b : Nat × Path) : (decide (a.1 ≤ b.1) || decide (b.1 ≤ a.1)) = true := by
      rw [Bool.or_eq_true, decide_eq_true_iff, decide_eq_true_iff]
      exact Nat.le_total a.1 b.1
    exact (List.pairwise_mergeSort trans total _).imp fun below => of_decide_eq_true below
  · rintro ⟨number, path⟩
    rw [List.mem_mergeSort, List.mem_filterMap]
    constructor
    · rintro ⟨entry, -, found⟩
      obtain ⟨stood, stands, found⟩ := Option.bind_eq_some_iff.mp found
      dsimp only at found
      split at found
      · rename_i isDirectory
        obtain ⟨rfl, rfl⟩ := Prod.mk.inj (Option.some.inj found)
        have there := ((isDirectory_iff afterSound).mp isDirectory).resolve_left
          (Path.child_ne_nil dir entry)
        rw [changes.entry_eq _ (fun nowhere => nowhere)] at there
        exact ⟨entry, stands, rfl, there⟩
      · contradiction
    · rintro ⟨entry, stands, same, there⟩
      dsimp only at stands same there
      subst same
      refine ⟨entry, mem_children_iff.mpr (by simp [there]), ?_⟩
      rw [← changes.entry_eq _ (fun nowhere => nowhere)] at there
      rw [stands, Option.bind_eq_bind, Option.bind_some,
        if_pos ((isDirectory_iff afterSound).mpr (Or.inr there))]

/-- The last of the generations there are is the one published last. -/
theorem getLast?_of_kept (kept : Kept dir name last before) {found : List (Nat × Path)}
    (ordered : found.Pairwise fun first second => first.1 ≤ second.1)
    (exactly : ∀ item, item ∈ found ↔ Stands before dir name item) :
    found.getLast? =
      last.map fun latest => (latest.number, dir.child (generationName name latest.number)) := by
  have earlier {item : Nat × Path} (mem : item ∈ found) : ∃ latest, last = some latest ∧
      item.1 ≤ latest.number ∧
        (item.1 = latest.number → item.2 = dir.child (generationName name item.1)) := by
    obtain ⟨entry, stands, path, there⟩ := (exactly item).mp mem
    rw [path] at there
    obtain ⟨latest, same, below, own⟩ := kept.earlier entry _ stands (by simp [there])
    exact ⟨latest, same, below, fun equal => by rw [path, own equal]⟩
  cases last with
  | none =>
      rw [Option.map_none, List.getLast?_eq_none_iff, List.eq_nil_iff_forall_not_mem]
      intro item mem
      obtain ⟨latest, same, -⟩ := earlier mem
      contradiction
  | some latest =>
      have stands := @generationOf?_generationName name _ (kept.sound latest rfl).number
      have mem := (exactly (latest.number, _)).mpr ⟨_, stands, rfl, kept.isGeneration latest rfl⟩
      obtain ⟨item, isLast⟩ := Option.isSome_iff_exists.mp
        (List.getLast?_isSome.mpr (List.ne_nil_of_mem mem))
      obtain ⟨others, rfl⟩ := List.getLast?_eq_some_iff.mp isLast
      have above : latest.number ≤ item.1 := by
        rcases List.mem_append.mp mem with before | same
        · exact (List.pairwise_append.mp ordered).2.2 _ before item (List.mem_singleton_self item)
        · exact Nat.le_of_eq (congrArg Prod.fst (List.mem_singleton.mp same))
      obtain ⟨_, same, below, own⟩ := earlier (List.mem_append_right others (List.mem_singleton_self item))
      cases same
      have number := Nat.le_antisymm below above
      rw [isLast, Option.map_some, ← number]
      exact congrArg some (Prod.ext rfl (own number))

theorem generations_runs (volumeSound : before.Sound) (kept : Kept dir name last before) :
    Runs (generationsIn dir name) before Nowhere NoFile fun found _ =>
      (∀ item, item ∈ found ↔ Stands before dir name item) ∧
        found.getLast? = last.map fun latest =>
          (latest.number, dir.child (generationName name latest.number)) := by
  apply (generationsIn_runs volumeSound kept.isDir).mono
  exact fun found _ _ ⟨ordered, exactly⟩ => ⟨exactly, getLast?_of_kept kept ordered exactly⟩

/-- The number of the next generation, if there is one. -/
def numberBehind (least : Nat) : Option Generation → Except Error Nat
  | none => .ok least
  | some latest => (successor latest.number).map (max least ·)

theorem numberAfter_of_getLast? {least : Nat} {found : List (Nat × Path)}
    (isLast : found.getLast? = last.map fun latest =>
      (latest.number, dir.child (generationName name latest.number))) :
    numberAfter least found = numberBehind least last := by
  rw [numberAfter, isLast]
  cases last <;> rfl

/-! ## Opening -/

/-- A keeper in charge of the generations under a name, with what is staged and not committed. -/
structure Sound (dir : Path) (name : String) (last staged : Option Generation) (volume : Volume)
    (keeper : CheckpointKeeper) : Prop where
  path : keeper.directory = dir
  named : keeper.name = name
  kept : Kept dir name last volume
  next : keeper.nextGeneration < generationLimit
  first : last = none → keeper.nextGeneration = 1
  behind : ∀ latest, last = some latest → latest.number + 1 < generationLimit →
    keeper.nextGeneration = latest.number + 1
  isStaged : keeper.staged = staged.map Generation.manifest
  sound : ∀ generation, staged = some generation → generation.Sound
  inStaging : ∀ generation, staged = some generation →
    volume.binding? (dir.child (stagingName name)) = some .directory ∧
      generation.Complete volume (dir.child (stagingName name))
  number : ∀ generation, staged = some generation → generation.number = keeper.nextGeneration ∧
    ∀ latest, last = some latest → latest.number < generation.number

/-- Work on other things leaves all checkpoints alone. -/
theorem Sound.of_changes {staged : Option Generation} {keeper : CheckpointKeeper}
    {paths : Path → Prop} {after : Volume} (sound : keeper.Sound dir name last staged before)
    (volumeSound : before.Sound) (changes : Changes paths NoFile before after)
    (apart : Apart dir name paths) : keeper.Sound dir name last staged after :=
  have staging (path : Path) (within : Within (dir.child (stagingName name)) path) : ¬paths path :=
    apart.owned path (owned_staging within)
  have same := changes.entry_eq _ (staging _ (Path.within_self _))
  { sound with
    kept := sound.kept.of_changes volumeSound changes apart.spares (same ▸ sound.kept.staging)
    inStaging := by
      intro generation isStaged
      obtain ⟨there, complete⟩ := sound.inStaging generation isStaged
      refine ⟨same.trans there, complete.of_changes volumeSound changes ?_ fun _ _ _ none => none⟩
      exact fun file => staging _ (Path.within_child _ file) }

theorem Sound.of_look {staged : Option Generation} {keeper : CheckpointKeeper} {after : Volume}
    (sound : keeper.Sound dir name last staged before) (volumeSound : before.Sound)
    (changes : Changes Nowhere NoFile before after) : keeper.Sound dir name last staged after :=
  sound.of_changes volumeSound changes (apart_nowhere dir name)

/-- A number behind all generations there are, and the least such number. -/
structure Behind (volume : Volume) (dir : Path) (name : String) (number : Nat) : Prop where
  below : number < generationLimit
  above : ∀ item, Stands volume dir name item → item.1 < number
  least : number = 1 ∨ ∃ item, Stands volume dir name item ∧ number = item.1 + 1

/-- The number after all generations there are is above them, and no greater than it has to be. -/
theorem numberAfter_above {least : Nat} {found : List (Nat × Path)}
    (ordered : found.Pairwise fun first second => first.1 ≤ second.1)
    (exactly : ∀ item, item ∈ found ↔ Stands before dir name item)
    (room : ∀ item, Stands before dir name item → item.1 + 1 < generationLimit) :
    ∃ number, numberAfter least found = .ok number ∧ least ≤ number ∧
      (∀ item, Stands before dir name item → item.1 < number) ∧
      (number = least ∨ ∃ item, Stands before dir name item ∧ number = item.1 + 1) := by
  cases isLast : found.getLast? with
  | none =>
      obtain rfl := List.getLast?_eq_none_iff.mp isLast
      refine ⟨least, rfl, Nat.le_refl _, fun item stands => ?_, Or.inl rfl⟩
      exact absurd ((exactly item).mpr stands) List.not_mem_nil
  | some latest =>
      obtain ⟨others, rfl⟩ := List.getLast?_eq_some_iff.mp isLast
      have stands := (exactly latest).mp (List.mem_append_right others List.mem_cons_self)
      refine ⟨max least (latest.1 + 1), ?_, Nat.le_max_left _ _, fun item other => ?_, ?_⟩
      · rw [numberAfter, isLast]
        dsimp only
        rw [successor, if_pos (room latest stands)]
        rfl
      · apply Nat.lt_of_lt_of_le _ (Nat.le_max_right _ _)
        apply Nat.lt_succ_of_le
        rcases List.mem_append.mp ((exactly item).mpr other) with earlier | same
        · exact (List.pairwise_append.mp ordered).2.2 item earlier latest List.mem_cons_self
        · exact Nat.le_of_eq (congrArg Prod.fst (List.mem_singleton.mp same))
      · rcases Nat.le_total (latest.1 + 1) least with below | above
        · exact Or.inl (Nat.max_eq_left below)
        · exact Or.inr ⟨latest, stands, Nat.max_eq_right above⟩

theorem numberAfter_behind {found : List (Nat × Path)}
    (ordered : found.Pairwise fun first second => first.1 ≤ second.1)
    (exactly : ∀ item, item ∈ found ↔ Stands before dir name item)
    (room : ∀ item, Stands before dir name item → item.1 + 1 < generationLimit) :
    ∃ number, numberAfter 1 found = .ok number ∧ Behind before dir name number := by
  obtain ⟨number, counted, -, above, least⟩ := numberAfter_above ordered exactly room
  refine ⟨number, counted, ?_, above, least⟩
  rcases least with rfl | ⟨item, stands, rfl⟩
  · decide
  · exact room item stands

/-- Opening counts on from the generations there are, whatever they hold. -/
theorem openAt_counts (volumeSound : before.Sound) (isDir : before.IsDir dir)
    (usable : isUsableName name = true) (durable : Bool)
    (room : ∀ item, Stands before dir name item → item.1 + 1 < generationLimit) :
    Runs (CheckpointKeeper.openAt dir name durable) before Nowhere NoFile fun keeper _ =>
      ∃ number, Behind before dir name number ∧
        keeper = { directory := dir, name, durable, nextGeneration := number, staged := none } := by
  have accepted : (!isUsableName name) = false := by rw [usable]; rfl
  rw [CheckpointKeeper.openAt, accepted, if_neg Bool.false_ne_true]
  have makes := (makeDirectories_isDir volumeSound isDir).mono fun _ _ changes _ => changes
  apply Runs.bind (Runs.adapt makes)
  rintro _ made - changes
  have madeSound := changes.sound volumeSound
  have spares := (apart_nowhere dir name).spares
  have isDirStill := changes.isDir spares.1 isDir
  apply Meets.getVolumeThen
  have there : (!made.isDirectory dir) = false := by
    rw [(isDirectory_iff madeSound).mpr isDirStill]
    rfl
  rw [there, if_neg Bool.false_ne_true]
  apply Runs.bind (generationsIn_runs madeSound isDirStill)
  rintro found listed - ⟨ordered, exactly⟩
  obtain ⟨number, counted, behind⟩ := numberAfter_behind ordered
    (fun item => (exactly item).trans (stands_congr changes spares)) room
  rw [counted]
  exact Meets.of_ok rfl ⟨.refl listed, number, behind, rfl⟩

/-- Opening takes charge of the generations there are. -/
theorem openAt_runs (volumeSound : before.Sound) (kept : Kept dir name last before)
    (usable : isUsableName name = true) (durable : Bool)
    (room : ∀ latest, last = some latest → latest.number + 1 < generationLimit) :
    Runs (CheckpointKeeper.openAt dir name durable) before Nowhere NoFile fun keeper after =>
      keeper.Sound dir name last none after ∧ keeper.durable = durable := by
  have earlier (item : Nat × Path) (stands : Stands before dir name item) :
      ∃ latest, last = some latest ∧ item.1 ≤ latest.number := by
    obtain ⟨entry, number, path, there⟩ := stands
    rw [path] at there
    obtain ⟨latest, same, below, -⟩ := kept.earlier entry _ number (by simp [there])
    exact ⟨latest, same, below⟩
  have roomy (item : Nat × Path) (stands : Stands before dir name item) :
      item.1 + 1 < generationLimit := by
    obtain ⟨latest, same, below⟩ := earlier item stands
    exact Nat.lt_of_le_of_lt (Nat.succ_le_succ below) (room latest same)
  apply (openAt_counts volumeSound kept.isDir usable durable roomy).mono
  rintro _ after changes ⟨number, behind, rfl⟩
  refine ⟨?_, rfl⟩
  exact
    { path := rfl
      named := rfl
      kept := kept.of_look volumeSound changes
      next := behind.below
      first := by
        rintro rfl
        rcases behind.least with one | ⟨item, stands, -⟩
        · exact one
        · obtain ⟨latest, none, -⟩ := earlier item stands
          contradiction
      behind := by
        rintro latest rfl _
        have stands := @generationOf?_generationName name _ (kept.sound latest rfl).number
        have above := behind.above (latest.number, _) ⟨_, stands, rfl, kept.isGeneration latest rfl⟩
        apply Nat.le_antisymm _ above
        rcases behind.least with one | ⟨item, itemStands, next⟩
        · exact Nat.le_trans (Nat.le_of_eq one) (Nat.le_add_left 1 _)
        · obtain ⟨_, same, below⟩ := earlier item itemStands
          cases same
          exact Nat.le_trans (Nat.le_of_eq next) (Nat.succ_le_succ below)
      isStaged := rfl
      sound := fun _ none => nomatch none
      inStaging := fun _ none => nomatch none
      number := fun _ none => nomatch none }

/-! ## Recovering -/

/-- Clearing a directory that may not be there leaves nothing of it.  A refusal leaves the
directory itself. -/
theorem clearDirectory_meets (volumeSound : before.Sound) (activity : Path → Activity)
    (noFile : ∀ id, before.binding? (dir.child name) ≠ some (.file id)) :
    Meets (clearDirectory activity (dir.child name)) before
      (fun _ after => Changes (Within (dir.child name)) NoFile before after ∧
        ∀ path, Within (dir.child name) path → after.binding? path = none)
      fun _ after => Changes (Below (dir.child name)) NoFile before after ∧ ¬before.Quiet := by
  apply Meets.getVolumeThen
  cases bound : before.binding? (dir.child name) with
  | none =>
      have absent : ¬before.isPresent (dir.child name) = true := by
        rw [isPresent_iff volumeSound (Path.child_ne_nil dir name), bound]
        exact fun present => present rfl
      rw [if_neg absent]
      exact Meets.of_ok rfl ⟨.refl before, fun path within => free_within volumeSound bound within⟩
  | some entry =>
      have present : before.isPresent (dir.child name) = true := by
        rw [isPresent_iff volumeSound (Path.child_ne_nil dir name), bound]
        exact Option.some_ne_none entry
      rw [if_pos present]
      cases entry with
      | file id => exact absurd bound (noFile id)
      | directory => exact Meets.adapt (removeTree_meets volumeSound bound)

/-- Clearing leaves nothing, but it fails on a file. -/
theorem clearDirectory_clears (volumeSound : before.Sound) (activity : Path → Activity) :
    Meets (clearDirectory activity (dir.child name)) before
      (fun _ after => (∀ id, before.binding? (dir.child name) ≠ some (.file id)) ∧
        Changes (Within (dir.child name)) NoFile before after ∧
        ∀ path, Within (dir.child name) path → after.binding? path = none)
      fun _ _ => True := by
  by_cases file : ∃ id, before.binding? (dir.child name) = some (.file id)
  · obtain ⟨id, bound⟩ := file
    have nonempty := Path.child_ne_nil dir name
    apply Meets.getVolumeThen
    rw [if_pos ((isPresent_iff volumeSound nonempty).mpr (by simp [bound]))]
    apply Meets.adapt
    apply Meets.mono (removeTree_fails nonempty (by simp [bound]))
    · exact fun _ _ impossible => impossible.elim
    · exact fun _ _ _ => trivial
  · have noFile (id : FileId) : before.binding? (dir.child name) ≠ some (.file id) :=
      fun bound => file ⟨id, bound⟩
    apply Meets.mono (clearDirectory_meets volumeSound activity noFile)
    · exact fun _ _ holds => ⟨noFile, holds⟩
    · exact fun _ _ _ => trivial

theorem loadFirst_looks (found : List (Nat × Path)) : Looks (loadFirst found) := by
  induction found with
  | nil => exact Looks.pure none
  | cons item found ih =>
      apply Looks.tryCatch
      · exact (load_looks item.2 item.1).bind fun checkpoint => Looks.pure (some checkpoint)
      · exact fun _ => ih

/-- Nothing keeps the generation published last from being read. -/
def Readable (last : Option Generation) (volume : Volume) : Prop :=
  volume.Quiet ∧ ∀ latest, last = some latest → latest.Counted

theorem Readable.of_changes {paths : Path → Prop} {files : FileId → Prop} {after : Volume}
    (readable : Readable last before) (changes : Changes paths files before after) :
    Readable last after :=
  ⟨changes.quiet readable.1, readable.2⟩

/-- Of all generations the one published last is loaded. -/
theorem loadFirst_meets (volumeSound : before.Sound) (kept : Kept dir name last before)
    {found : List (Nat × Path)} (isLast : found.getLast? = last.map fun latest =>
      (latest.number, dir.child (generationName name latest.number))) :
    Meets (loadFirst found.reverse) before
      (fun loaded after => Changes Nowhere NoFile before after ∧
        (Readable last before → loaded = last.map (Generation.checkpoint dir name)))
      fun _ after => Changes Nowhere NoFile before after ∧ ¬Readable last before := by
  by_cases readable : Readable last before
  · obtain ⟨quiet, counted⟩ := readable
    cases last with
    | none =>
        obtain rfl := List.getLast?_eq_none_iff.mp isLast
        exact Meets.of_ok rfl ⟨.refl before, fun _ => rfl⟩
    | some latest =>
        obtain ⟨others, rfl⟩ := List.getLast?_eq_some_iff.mp isLast
        have loads := load_runs volumeSound (kept.sound latest rfl) (counted latest rfl)
          (kept.complete latest rfl)
        obtain ⟨checkpoint, after, loaded, changes, rfl⟩ := loads.of_quiet quiet
        rw [List.reverse_append, List.reverse_singleton, List.singleton_append]
        have given : Meets
            (some <$> load (dir.child (generationName name latest.number)) latest.number) before
            (fun loaded after => Changes Nowhere NoFile before after ∧
              (Readable (some latest) before →
                loaded = (some latest).map (Generation.checkpoint dir name)))
            fun _ _ => False := by
          apply Meets.of_ok _ ⟨changes, fun _ => rfl⟩
          rw [map_eq_pure_bind, bind_apply, loaded]
          rfl
        exact Meets.tryCatch given fun _ _ impossible => impossible.elim
  · apply Meets.mono (loadFirst_looks found.reverse before)
    · exact fun _ _ changes => ⟨changes, fun isReadable => absurd isReadable readable⟩
    · exact fun _ _ changes => ⟨changes, readable⟩

variable {keeper : CheckpointKeeper}

/-- Recovery clears away what was not published and finds the generation published last. -/
theorem recover_meets (volumeSound : before.Sound) (path : keeper.directory = dir)
    (named : keeper.name = name) (kept : Kept dir name last before) :
    Meets keeper.recover before
      (fun found after => Changes (Within (dir.child (stagingName name))) NoFile before after ∧
        Kept dir name last after ∧
        (Readable last before → found = last.map (Generation.checkpoint dir name)))
      fun _ after => Changes (Within (dir.child (stagingName name))) NoFile before after ∧
        Kept dir name last after ∧ ¬Readable last before := by
  have cleared (after : Volume)
      (changes : Changes (Within (dir.child (stagingName name))) NoFile before after)
      (gone : ∀ id, after.binding? (dir.child (stagingName name)) ≠ some (.file id)) :
      Kept dir name last after :=
    kept.of_changes volumeSound changes (spares_staging dir name) gone
  rw [recover, stagingDirectory, generations, path, named]
  apply Meets.bind
  · apply Meets.mono (clearDirectory_meets volumeSound .removing kept.staging)
    · rintro _ after ⟨changes, gone⟩
      have keptStill := cleared after changes fun id => by
        rw [gone _ (Path.within_self _)]
        exact fun none => nomatch none
      exact And.intro changes keptStill
    · rintro _ after ⟨changes, refused⟩
      have same := changes.entry_eq _ (not_below_self (dir.child (stagingName name)))
      have within := changes.mono (fun _ => Below.within) fun _ _ none => none
      exact ⟨within, cleared after within (same ▸ kept.staging),
        fun readable => refused readable.1⟩
  rintro _ middle ⟨changes, keptMiddle⟩
  have middleSound := changes.sound volumeSound
  have lists := (generations_runs middleSound keptMiddle).mono fun _ _ changes holds =>
    And.intro (keptMiddle.of_look middleSound changes) holds
  apply Meets.bind
  · apply Meets.mono lists
    · rintro found after ⟨more, keptAfter, exactly, isLast⟩
      exact And.intro (changes.trans more.ofNothing) (And.intro keptAfter (And.intro exactly isLast))
    · rintro _ after ⟨more, refused⟩
      exact ⟨changes.trans more.ofNothing, keptMiddle.of_look middleSound more,
        fun readable => refused (changes.quiet readable.1)⟩
  rintro found listed ⟨sinceListed, keptListed, exactly, isLast⟩
  have listedSound := sinceListed.sound volumeSound
  apply Meets.bind
  · apply Meets.mono (loadFirst_meets listedSound keptListed isLast)
    · rintro loaded after ⟨more, whenReadable⟩
      have sinceLoaded := sinceListed.trans more.ofNothing
      have keptLoaded := keptListed.of_look listedSound more
      exact And.intro sinceLoaded (And.intro keptLoaded fun readable : Readable last before =>
        whenReadable (readable.of_changes sinceListed))
    · rintro _ after ⟨more, unreadable⟩
      exact ⟨sinceListed.trans more.ofNothing, keptListed.of_look listedSound more,
        fun readable => unreadable (readable.of_changes sinceListed)⟩
  rintro loaded after ⟨sinceLoaded, keptLoaded, whenReadable⟩
  cases loaded with
  | some checkpoint => exact Meets.of_ok rfl ⟨sinceLoaded, keptLoaded, whenReadable⟩
  | none =>
      dsimp only
      split
      · exact Meets.of_ok rfl ⟨sinceLoaded, keptLoaded, whenReadable⟩
      · rename_i nonempty
        apply Meets.of_error rfl
        refine ⟨sinceLoaded, keptLoaded, fun readable => ?_⟩
        have noneLast := Option.map_eq_none_iff.mp (whenReadable readable).symm
        rw [noneLast] at isLast
        rw [List.getLast?_eq_none_iff.mp isLast] at nonempty
        exact nonempty rfl

end CheckpointKeeper

end FingerprintSet
