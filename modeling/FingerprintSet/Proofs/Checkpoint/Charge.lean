import FingerprintSet.Proofs.Checkpoint.History
import FingerprintSet.Proofs.Storage.Contents
import FingerprintSet.Proofs.Timely

/-!
# A keeper in charge

A keeper may be asked to begin and to commit in any order, beginning may fail at any of its steps,
and directories may stand under the names of generations without the keeper having put them there.
All that its work relies on is that no file has such a name and that the numbers do not run out.
-/

namespace FingerprintSet

open Storage Volume SortedFile Checkpoint

variable {before after : Volume} {dir : Path} {name : String} {most : Nat}
  {keeper : CheckpointKeeper} {paths : Path → Prop}

/-! ## What stands under the names of generations -/

/-- Only directories stand under the names of generations, with numbers up to a bound. -/
structure StandsUpTo (dir : Path) (name : String) (most : Nat) (volume : Volume) : Prop where
  isDir : volume.IsDir dir
  noFile : ∀ entry number, generationOf? name entry = some number →
    ∀ id, volume.binding? (dir.child entry) ≠ some (.file id)
  upTo : ∀ item, Stands volume dir name item → item.1 ≤ most

namespace StandsUpTo

theorem of_changes (standing : StandsUpTo dir name most before)
    (changes : Changes paths NoFile before after) (spares : Spares dir name paths) :
    StandsUpTo dir name most after where
  isDir := changes.isDir spares.1 standing.isDir
  noFile entry number stands id := by
    rw [changes.entry_eq _ (spares.2 entry number stands _ (Path.within_self _))]
    exact standing.noFile entry number stands id
  upTo item stands := standing.upTo item ((stands_congr changes spares).mp stands)

/-- The schedule has no part in what stands. -/
theorem reschedule (standing : StandsUpTo dir name most before) (faults : Nat → Option Errno) :
    StandsUpTo dir name most (before.reschedule faults) where
  isDir := standing.isDir
  noFile := standing.noFile
  upTo := standing.upTo

theorem mono {more : Nat} (standing : StandsUpTo dir name most before) (below : most ≤ more) :
    StandsUpTo dir name more before :=
  { standing with upTo := fun item stands => Nat.le_trans (standing.upTo item stands) below }

/-- What is bound under the name of a generation stands for it. -/
theorem stands_of_bound (standing : StandsUpTo dir name most before) {entry : String} {number : Nat}
    (named : generationOf? name entry = some number)
    (bound : before.binding? (dir.child entry) ≠ none) :
    Stands before dir name (number, dir.child entry) := by
  refine ⟨entry, named, rfl, ?_⟩
  cases found : before.binding? (dir.child entry) with
  | none => exact absurd found bound
  | some there =>
      cases there with
      | directory => rfl
      | file id => exact absurd found (standing.noFile entry number named id)

/-- A number that nothing stands for can be given to a directory. -/
theorem vacant (standing : StandsUpTo dir name most before) (volumeSound : before.Sound) {number : Nat}
    (below : number < generationLimit)
    (above : ∀ item, Stands before dir name item → item.1 < number) :
    Vacant before (dir.child (generationName name number)) := by
  apply Vacant.of_free volumeSound
  by_contra bound
  have stands := standing.stands_of_bound (generationOf?_generationName below) bound
  exact Nat.lt_irrefl _ (above _ stands)

/-- When the generations below a number have been removed, none is left, and the others stay. -/
theorem cleared {number : Nat} (standing : StandsUpTo dir name most before)
    (changes : Changes (CheckpointKeeper.Earlier before dir name number) NoFile before after)
    (gone : ∀ path, CheckpointKeeper.Earlier before dir name number path →
      after.binding? path = none) :
    StandsUpTo dir name most after ∧ ∀ item, Stands after dir name item → number ≤ item.1 := by
  have still {path : Path} {entry : Entry} (bound : after.binding? path = some entry) :
      before.binding? path = some entry ∧
        ¬CheckpointKeeper.Earlier before dir name number path := by
    have kept : ¬CheckpointKeeper.Earlier before dir name number path := by
      intro earlier
      rw [gone path earlier] at bound
      contradiction
    exact ⟨(changes.entry_eq _ kept).symm.trans bound, kept⟩
  have stood {item : Nat × Path} (stands : Stands after dir name item) :
      Stands before dir name item := by
    obtain ⟨entry, named, path, bound⟩ := stands
    exact ⟨entry, named, path, (still bound).1⟩
  constructor
  · exact
      { isDir := changes.isDir CheckpointKeeper.dir_not_earlier standing.isDir
        noFile := fun entry other named id file =>
          standing.noFile entry other named id (still file).1
        upTo := fun item stands => standing.upTo item (stood stands) }
  · intro item stands
    apply Nat.not_lt.mp
    intro below
    obtain ⟨entry, -, -, bound⟩ := id stands
    exact (still bound).2 ⟨item, stood stands, below, Path.within_self _⟩

end StandsUpTo

theorem Storage.Vacant.of_changes {path : Path} (vacant : Vacant before path)
    (changes : Changes paths NoFile before after) (outside : ∀ other, Within path other → ¬paths other) :
    Vacant after path where
  noFile id := by
    rw [changes.entry_eq _ (outside _ (Path.within_self _))]
    exact vacant.noFile id
  below other inside := by
    rw [changes.entry_eq _ (outside _ inside.within)]
    exact vacant.below other inside

namespace CheckpointKeeper

/-! ## A keeper in charge -/

/-- A keeper is in charge of a directory.  What waits to be committed is in the staging directory,
under the number that is given next, and nothing is in the way of its new name. -/
structure InCharge (dir : Path) (name : String) (most : Nat) (volume : Volume)
    (keeper : CheckpointKeeper) : Prop extends StandsUpTo dir name most volume where
  path : keeper.directory = dir
  named : keeper.name = name
  staging : ∀ id, volume.binding? (dir.child (stagingName name)) ≠ some (.file id)
  next : keeper.nextGeneration ≤ most + 1
  waits : ∀ manifest, keeper.staged = some manifest →
    manifest.generation = keeper.nextGeneration ∧
      volume.binding? (dir.child (stagingName name)) = some .directory ∧
      Vacant volume (dir.child (generationName name manifest.generation))

namespace InCharge

/-- Work on other things leaves a keeper in charge. -/
theorem of_changes (charge : keeper.InCharge dir name most before)
    (changes : Changes paths NoFile before after) (apart : Apart dir name paths) :
    keeper.InCharge dir name most after :=
  have same := changes.entry_eq _ (apart.owned _ (owned_staging (Path.within_self _)))
  { charge with
    toStandsUpTo := charge.toStandsUpTo.of_changes changes apart.spares
    staging := same ▸ charge.staging
    waits := by
      intro manifest staged
      obtain ⟨number, there, vacant⟩ := charge.waits manifest staged
      refine ⟨number, same.trans there, vacant.of_changes changes fun path within => ?_⟩
      exact apart.owned path (owned_generation within) }

theorem reschedule (charge : keeper.InCharge dir name most before) (faults : Nat → Option Errno) :
    keeper.InCharge dir name most (before.reschedule faults) :=
  { charge with
    toStandsUpTo := charge.toStandsUpTo.reschedule faults
    staging := charge.staging
    waits := fun manifest staged =>
      have ⟨number, there, vacant⟩ := charge.waits manifest staged
      ⟨number, there, vacant.noFile, vacant.below⟩ }

theorem mono {more : Nat} (charge : keeper.InCharge dir name most before) (below : most ≤ more) :
    keeper.InCharge dir name more before :=
  { charge with
    toStandsUpTo := charge.toStandsUpTo.mono below
    next := Nat.le_trans charge.next (Nat.succ_le_succ below) }

/-- While nothing waits, a keeper only needs the generations to be spared. -/
theorem spared (charge : keeper.InCharge dir name most before) (idle : keeper.staged = none)
    (changes : Changes paths NoFile before after) (spares : Spares dir name paths)
    (noFile : ∀ id, after.binding? (dir.child (stagingName name)) ≠ some (.file id)) :
    keeper.InCharge dir name most after :=
  { charge with
    toStandsUpTo := charge.toStandsUpTo.of_changes changes spares
    staging := noFile
    waits := fun manifest staged => by
      rw [idle] at staged
      contradiction }

/-- A keeper that nothing waits for counts on. -/
theorem counted (charge : keeper.InCharge dir name most before) (idle : keeper.staged = none)
    {number : Nat} (low : number ≤ most + 1) :
    InCharge dir name most before { keeper with nextGeneration := number } :=
  { charge with
    next := low
    waits := fun manifest staged => by
      rw [show keeper.staged = some manifest from staged] at idle
      contradiction }

end InCharge

/-- Somebody else may make a directory under the name of a generation. -/
theorem InCharge.beside {entry : String} {number : Nat} (charge : keeper.InCharge dir name most before)
    (changes : Changes (At (dir.child entry)) NoFile before after)
    (named : generationOf? name entry = some number) (low : number ≤ most)
    (noFile : ∀ id, after.binding? (dir.child entry) ≠ some (.file id)) :
    keeper.InCharge dir name most after := by
  have staging : after.binding? (dir.child (stagingName name)) =
      before.binding? (dir.child (stagingName name)) := by
    apply changes.entry_eq
    intro same
    exact (spares_staging dir name).2 entry number named _ (Path.within_self _)
      (same ▸ Path.within_self _)
  have others {other : String} (different : other ≠ entry) :
      after.binding? (dir.child other) = before.binding? (dir.child other) :=
    changes.entry_eq _ fun same => different (Path.child_inj.mp same)
  exact
    { isDir := changes.isDir (Path.ne_child dir entry) charge.isDir
      noFile := by
        intro other count stands id
        by_cases same : other = entry
        · exact same ▸ noFile id
        · rw [others same]
          exact charge.noFile other count stands id
      upTo := by
        rintro item ⟨other, stands, path, bound⟩
        by_cases same : other = entry
        · rw [same, named] at stands
          exact Option.some.inj stands ▸ low
        · rw [path, others same] at bound
          exact charge.upTo item ⟨other, stands, path, path ▸ bound⟩
      path := charge.path
      named := charge.named
      staging := staging ▸ charge.staging
      next := charge.next
      waits := by
        intro manifest staged
        obtain ⟨same, there, vacant⟩ := charge.waits manifest staged
        refine ⟨same, staging.trans there, ?_, fun path below => ?_⟩
        · by_cases target : generationName name manifest.generation = entry
          · exact target ▸ noFile
          · rw [others target]
            exact vacant.noFile
        · rw [changes.entry_eq path]
          · exact vacant.below path below
          · rintro rfl
            obtain ⟨part, rest, long⟩ := below_iff.mp below
            simpa [Path.child] using congrArg List.length long }

/-! ## Beginning -/

theorem beginStaging_busy (busy : keeper.staged ≠ none) (seed : UInt64) (bits : Nat)
    (before : Volume) :
    beginStaging seed bits keeper before = ((.error (.protocol .alreadyStaged), keeper), before) := by
  have isStaged : keeper.staged.isSome = true := Option.isSome_iff_ne_none.mpr busy
  show (if keeper.staged.isSome = true then _ else _ : Keeping CheckpointKeeper Staging)
    keeper before = _
  rw [if_pos isStaged]
  rfl

/-- A checkpoint is begun with a number above all generations there are, or nothing is begun. -/
theorem InCharge.beginStaging_ends (charge : keeper.InCharge dir name most before)
    (volumeSound : before.Sound) (idle : keeper.staged = none) (room : most + 1 < generationLimit)
    (seed : UInt64) (bits : Nat) :
    Keeping.Ends (beginStaging seed bits) keeper before fun result final after =>
      Changes (Within (dir.child (stagingName name))) NoFile before after ∧
        final.InCharge dir name most after ∧ final.staged = none ∧
        keeper.nextGeneration ≤ final.nextGeneration ∧
        match result with
        | .ok staging => (∀ item, Stands before dir name item → item.1 < final.nextGeneration) ∧
            Writes dir name after staging
              { number := final.nextGeneration, seed, segmentBits := bits, parts := [] } []
        | .error _ => before.Quiet → ¬FitsDirectory (stagingName name) := by
  have spares := spares_staging dir name
  have roomy (item : Nat × Path) (stands : Stands before dir name item) :
      item.1 + 1 < generationLimit :=
    Nat.lt_of_le_of_lt (Nat.succ_le_succ (charge.upTo item stands)) room
  apply (beginStaging_clears volumeSound charge.isDir charge.staging charge.path charge.named idle
    seed bits).mono
  rintro (error | staging) final after ⟨changes, noFile, ends⟩
  · obtain ⟨rfl, hinders⟩ := ends
    refine ⟨changes, charge.spared idle changes spares noFile, idle, Nat.le_refl _, fun quiet => ?_⟩
    rcases hinders quiet with unfit | ⟨found, error, lists, fails⟩
    · exact unfit
    · obtain ⟨number, given, -⟩ := numberAfter_above lists.1 lists.2 roomy
      rw [given] at fails
      contradiction
  · obtain ⟨found, number, lists, given, rfl, -, writes⟩ := ends
    obtain ⟨_, same, low, above, least⟩ := numberAfter_above lists.1 lists.2 roomy
    obtain rfl := Except.ok.inj (given.symm.trans same)
    have high : number ≤ most + 1 := by
      rcases least with rfl | ⟨item, stands, rfl⟩
      · exact charge.next
      · exact Nat.succ_le_succ (charge.upTo item stands)
    have still := charge.spared idle changes spares noFile
    exact ⟨changes, still.counted idle high, idle, low, above, writes⟩

/-- The manifest makes what was written wait to be committed. -/
theorem InCharge.stage_runs {staging : Staging} {generation : Generation} {tried : List Nat}
    (charge : keeper.InCharge dir name most before) (volumeSound : before.Sound)
    (idle : keeper.staged = none) (room : most + 1 < generationLimit)
    (writes : Writes dir name before staging generation tried)
    (number : generation.number = keeper.nextGeneration)
    (above : ∀ item, Stands before dir name item → item.1 < keeper.nextGeneration) :
    Keeping.Runs (stage staging) keeper before (Below (dir.child (stagingName name))) NoFile
      (fun _ final after => final = { keeper with staged := some generation.manifest } ∧
        final.InCharge dir name most after)
      fun final after => final = keeper ∧ keeper.InCharge dir name most after := by
  have still {after : Volume}
      (changes : Changes (Below (dir.child (stagingName name))) NoFile before after) :
      keeper.InCharge dir name most after := by
    have within := changes.mono (fun _ => Below.within) fun _ _ none => none
    apply charge.spared idle within (spares_staging dir name)
    rw [changes.entry_eq _ (not_below_self _)]
    exact writes.noFile
  apply Keeping.Runs.liftThen (writeManifest_runs writes volumeSound)
  · exact fun after changes => ⟨rfl, still changes⟩
  rintro _ after changes ⟨there, -⟩
  apply Keeping.Runs.modifyThen
  apply Keeping.Runs.pure
  rw [writes.manifest]
  have below : generation.number < generationLimit :=
    number ▸ Nat.lt_of_le_of_lt charge.next room
  have within := changes.mono (fun _ => Below.within) fun _ _ none => none
  have vacant := (still changes).vacant (changes.sound volumeSound) below fun item stands =>
    number ▸ above item ((stands_congr within (spares_staging dir name)).mp stands)
  refine ⟨rfl, ?_⟩
  exact
    { still changes with
      waits := by
        rintro _ same
        cases same
        exact ⟨number, there, vacant⟩ }

/-! ## Committing -/

theorem commit_idle (idle : keeper.staged = none) (before : Volume) :
    commit keeper before = ((.error (.protocol .nothingStaged), keeper), before) := by
  rw [commit, Keeping.getThen_apply, idle]
  rfl

/-- Nothing is left of those generations of a list that are below a number, and all else stays. -/
structure Gone (found : List (Nat × Path)) (number : Nat) (before after : Volume) : Prop where
  changes : Changes (fun path => ∃ item ∈ found, item.1 < number ∧ Within item.2 path) NoFile
    before after
  gone : ∀ item ∈ found, item.1 < number → ∀ path, Within item.2 path → after.binding? path = none

namespace Gone

variable {found others : List (Nat × Path)} {item : Nat × Path} {number : Nat} {middle : Volume}

theorem one (changes : Changes (Within item.2) NoFile before after) (below : item.1 < number)
    (gone : ∀ path, Within item.2 path → after.binding? path = none) :
    Gone [item] number before after where
  changes := changes.mono (fun _ within => ⟨item, List.mem_cons_self, below, within⟩)
    fun _ _ none => none
  gone := List.forall_mem_singleton.mpr fun _ => gone

theorem of_kept (kept : ¬item.1 < number) (volume : Volume) : Gone [item] number volume volume where
  changes := .refl volume
  gone := List.forall_mem_singleton.mpr fun below => absurd below kept

/-- Removing brings no file to where none was. -/
theorem noFile (cleared : Gone found number before after) {path : Path}
    (free : ∀ id, before.binding? path ≠ some (.file id)) (id : FileId) :
    after.binding? path ≠ some (.file id) := by
  by_cases inside : ∃ item ∈ found, item.1 < number ∧ Within item.2 path
  · obtain ⟨item, mem, below, within⟩ := inside
    rw [cleared.gone item mem below path within]
    exact (Option.some_ne_none _).symm
  · rw [cleared.changes.entry_eq _ inside]
    exact free id

/-- What was removed first does not come back. -/
theorem append (first : Gone found number before middle) (then_ : Gone others number middle after) :
    Gone (found ++ others) number before after where
  changes := by
    apply (first.changes.mono _ fun _ _ none => none).trans
      (then_.changes.mono _ fun _ _ none => none)
    · rintro _ ⟨item, mem, holds⟩
      exact ⟨item, List.mem_append_left others mem, holds⟩
    · rintro _ ⟨item, mem, holds⟩
      exact ⟨item, List.mem_append_right found mem, holds⟩
  gone := by
    refine List.forall_mem_append.mpr ⟨fun item mem below path within => ?_, then_.gone⟩
    by_cases again : ∃ other ∈ others, other.1 < number ∧ Within other.2 path
    · obtain ⟨other, otherMem, otherBelow, inside⟩ := again
      exact then_.gone other otherMem otherBelow path inside
    · rw [then_.changes.entry_eq _ again]
      exact first.gone item mem below path within

end Gone

/-- A generation is removed where nothing is refused, and one that is not there leaves nothing. -/
theorem removeGeneration_clears (volumeSound : before.Sound) (quiet : before.Quiet) {entry : String}
    (noFile : ∀ id, before.binding? (dir.child entry) ≠ some (.file id)) :
    Meets (removeGeneration (dir.child entry)) before
      (fun _ after => Changes (Within (dir.child entry)) NoFile before after ∧
        ∀ path, Within (dir.child entry) path → after.binding? path = none)
      fun _ _ => False := by
  have unfolded : removeGeneration (dir.child entry) before =
      (.ok (), (removeTree (dir.child entry) before).2) := rfl
  cases bound : before.binding? (dir.child entry) with
  | none =>
      have fails : Meets (removeTree (dir.child entry)) before _ _ :=
        removeTree_fails (Path.child_ne_nil dir entry) (by simp [bound])
      rcases fails.cases with ⟨_, _, _, impossible⟩ | ⟨_, _, result, rfl⟩
      · exact impossible.elim
      · refine Meets.of_ok (unfolded.trans (by rw [result]))
          ⟨(changes_ticked before).ofNothing, fun path within => ?_⟩
        exact free_within volumeSound bound within
  | some there =>
      cases there with
      | file id => exact absurd bound (noFile id)
      | directory =>
          obtain ⟨_, after, result, changes, gone⟩ :=
            (removeTree_runs volumeSound bound).of_quiet quiet
          exact Meets.of_ok (unfolded.trans (by rw [result])) ⟨changes, gone⟩

/-- Where nothing is refused, removing the generations below a number leaves nothing of them. -/
theorem removeBelow_clears (volumeSound : before.Sound) (quiet : before.Quiet) (number : Nat)
    {found : List (Nat × Path)} (children : ∀ item ∈ found, ∃ entry, item.2 = dir.child entry)
    (noFile : ∀ item ∈ found, ∀ id, before.binding? item.2 ≠ some (.file id)) :
    Meets (removeBelow number found) before (fun _ after => Gone found number before after)
      fun _ _ => False := by
  induction found generalizing before with
  | nil => exact Meets.of_ok rfl ⟨.refl before, fun _ mem => absurd mem List.not_mem_nil⟩
  | cons item found ih =>
      rw [List.forall_mem_cons] at children noFile
      have rest {middle : Volume} (first : Gone [item] number before middle) :
          Meets (removeBelow number found) middle
            (fun _ after => Gone (item :: found) number before after) fun _ _ => False := by
        apply Meets.mono (ih (first.changes.sound volumeSound) (first.changes.quiet quiet) children.2
          fun other mem => first.noFile (noFile.2 other mem))
        · exact fun _ after others => first.append others
        · exact fun _ _ impossible => impossible
      rw [removeBelow]
      split
      · rename_i below
        obtain ⟨entry, child⟩ := children.1
        rw [child] at noFile
        have removes := removeGeneration_clears volumeSound quiet noFile.1
        rw [← child] at removes
        apply Meets.bind removes
        rintro _ middle ⟨changes, gone⟩
        exact rest (.one changes below gone)
      · rename_i kept
        exact rest (.of_kept kept before)

/-- Where nothing is refused, no generation below a number is left. -/
theorem clears_ends (standing : StandsUpTo dir name most before) (volumeSound : before.Sound)
    (quiet : before.Quiet) (path : keeper.directory = dir) (named : keeper.name = name)
    (manifest : Manifest) (following : CheckpointKeeper) :
    Keeping.Ends (do
      let found ← (keeper.generations : Task (List (Nat × Path)))
      (removeBelow manifest.generation found : Task Unit)
      pure manifest : Keeping CheckpointKeeper Manifest) following before fun result final after =>
        result = .ok manifest ∧ final = following ∧
          Changes (Earlier before dir name manifest.generation) NoFile before after ∧
          StandsUpTo dir name most after ∧
          ∀ item, Stands after dir name item → manifest.generation ≤ item.1 := by
  have spares := (apart_nowhere dir name).spares
  rw [generations, path, named]
  apply Keeping.Ends.liftThen
    (Meets.mono (generationsIn_runs volumeSound standing.isDir) (fun _ _ holds => holds) _)
  swap
  · rintro _ _ ⟨-, refused⟩
    exact absurd quiet refused
  rintro found listed ⟨looked, -, exactly⟩
  have stand {item : Nat × Path} (mem : item ∈ found) : Stands listed dir name item :=
    (stands_congr looked spares).mpr ((exactly item).mp mem)
  have children : ∀ item ∈ found, ∃ entry, item.2 = dir.child entry := by
    intro item mem
    obtain ⟨entry, -, same, -⟩ := stand mem
    exact ⟨entry, same⟩
  have noFile : ∀ item ∈ found, ∀ id, listed.binding? item.2 ≠ some (.file id) := by
    intro item mem id
    obtain ⟨entry, -, -, bound⟩ := stand mem
    rw [bound]
    rintro ⟨⟩
  apply Keeping.Ends.liftThen (Meets.mono (removeBelow_clears (looked.sound volumeSound)
    (looked.quiet quiet) manifest.generation children noFile) (fun _ _ holds => holds) _)
  swap
  · exact fun _ _ impossible => impossible.elim
  rintro _ after ⟨removed, gone⟩
  have changes : Changes (Earlier before dir name manifest.generation) NoFile before after := by
    apply looked.ofNothing.trans (removed.mono _ fun _ _ none => none)
    rintro path ⟨item, mem, below, within⟩
    exact ⟨item, (exactly item).mp mem, below, within⟩
  refine Keeping.Ends.of_eq rfl ⟨rfl, rfl, changes, standing.cleared changes ?_⟩
  rintro path ⟨item, stands, below, within⟩
  exact gone item ((exactly item).mpr stands) below path within

/-- What waited has been given its number, and nothing is left of the staging directory. -/
structure Renamed (dir : Path) (name : String) (most : Nat) (manifest : Manifest)
    (before after : Volume) : Prop where
  tree : after.Sound
  changes : Changes (Owned dir name) NoFile before after
  standing : StandsUpTo dir name (most + 1) after
  there : after.binding? (dir.child (generationName name manifest.generation)) = some .directory
  moved : SameTree before (dir.child (stagingName name)) after
    (dir.child (generationName name manifest.generation))
  vacated : after.binding? (dir.child (stagingName name)) = none

theorem Renamed.of_look {manifest : Manifest} {middle : Volume}
    (renamed : Renamed dir name most manifest before middle)
    (changes : Changes Nowhere NoFile middle after) :
    Renamed dir name most manifest before after where
  tree := changes.sound renamed.tree
  changes := renamed.changes.trans changes.ofNothing
  standing := renamed.standing.of_changes changes (apart_nowhere dir name).spares
  there := (changes.entry_eq _ fun nowhere => nowhere).trans renamed.there
  moved := renamed.moved.trans (SameTree.of_changes renamed.tree changes fun _ _ nowhere => nowhere)
  vacated := (changes.entry_eq _ fun nowhere => nowhere).trans renamed.vacated

/-- Renaming gives what waited its number, and the other generations stay. -/
theorem InCharge.renamed {manifest : Manifest} (charge : keeper.InCharge dir name most before)
    (volumeSound : before.Sound) (staged : keeper.staged = some manifest)
    (room : most + 2 < generationLimit)
    (changes : Changes (fun path => Within (dir.child (stagingName name)) path ∨
      Within (dir.child (generationName name manifest.generation)) path) NoFile before after)
    (moved : ∀ rest, after.binding? (dir.child (generationName name manifest.generation) ++ rest) =
      before.binding? (dir.child (stagingName name) ++ rest))
    (gone : ∀ path, Within (dir.child (stagingName name)) path → after.binding? path = none) :
    Renamed dir name most manifest before after := by
  obtain ⟨number, there, -⟩ := charge.waits manifest staged
  have low : manifest.generation ≤ most + 1 := number ▸ charge.next
  have below : manifest.generation < generationLimit :=
    Nat.lt_of_le_of_lt low (Nat.lt_of_succ_lt room)
  have target : after.binding? (dir.child (generationName name manifest.generation)) =
      some .directory := by
    have root := moved []
    rwa [List.append_nil, List.append_nil, there] at root
  have others {entry : String} {other : Nat} (named : generationOf? name entry = some other)
      (different : entry ≠ generationName name manifest.generation) :
      after.binding? (dir.child entry) = before.binding? (dir.child entry) := by
    apply changes.entry_eq
    rintro (within | within)
    · exact (spares_staging dir name).2 entry other named _ (Path.within_self _) within
    · have apart := Path.not_within_sibling (Ne.symm different) within
      rw [Path.within_self] at apart
      contradiction
  have standing : StandsUpTo dir name (most + 1) after :=
    { isDir := by
        apply changes.isDir _ charge.isDir
        rintro (within | within) <;> obtain ⟨rest, same⟩ := Path.within_iff.mp within <;>
          simpa [Path.child] using congrArg List.length same
      noFile := by
        intro entry other named id
        by_cases same : entry = generationName name manifest.generation
        · rw [same, target]
          rintro ⟨⟩
        · rw [others named same]
          exact charge.noFile entry other named id
      upTo := by
        rintro item ⟨entry, named, path, bound⟩
        by_cases same : entry = generationName name manifest.generation
        · rw [same, generationOf?_generationName below] at named
          exact Option.some.inj named ▸ low
        · rw [path, others named same] at bound
          exact Nat.le_succ_of_le (charge.upTo item ⟨entry, named, path, path ▸ bound⟩) }
  exact
    { tree := changes.sound volumeSound
      changes := changes.mono (fun _ => Or.rec owned_staging owned_generation) fun _ _ none => none
      standing
      there := target
      moved := fun rest => content?_congr volumeSound changes (moved rest)
      vacated := gone _ (Path.within_self _) }

/-- What a commit leaves that nothing got in the way of. -/
structure Publishes (dir : Path) (name : String) (most : Nat) (keeper : CheckpointKeeper)
    (manifest : Manifest) (before : Volume) (following : CheckpointKeeper) (after : Volume) : Prop where
  final : following = { keeper with staged := none, nextGeneration := manifest.generation + 1 }
  changes : Changes (Owned dir name) NoFile before after
  moved : SameTree before (dir.child (stagingName name)) after
    (dir.child (generationName name manifest.generation))
  there : after.binding? (dir.child (generationName name manifest.generation)) = some .directory
  cleared : ∀ item, Stands after dir name item → manifest.generation ≤ item.1
  charge : following.InCharge dir name (most + 1) after

/-- How a commit ends that no step of is refused: with what waited published, or its new name is one
that no directory takes. -/
def CommitsTo (dir : Path) (name : String) (most : Nat) (keeper : CheckpointKeeper)
    (manifest : Manifest) (before : Volume) :
    Except Error Manifest → CheckpointKeeper → Volume → Prop
  | .ok _, following, after => Publishes dir name most keeper manifest before following after
  | .error _, following, after =>
      ¬FitsDirectory (generationName name manifest.generation) ∧ following = keeper ∧
        after = before.ticked

/-- The keeper of what was renamed is in charge again, whatever is left of earlier generations. -/
theorem Renamed.inCharge {manifest : Manifest} {middle : Volume}
    (renamed : Renamed dir name most manifest before middle)
    (charge : keeper.InCharge dir name most before) (low : manifest.generation ≤ most + 1)
    (removed : Changes (Earlier middle dir name manifest.generation) NoFile middle after)
    (standing : StandsUpTo dir name (most + 1) after) :
    InCharge dir name (most + 1) after
      { keeper with staged := none, nextGeneration := manifest.generation + 1 } where
  toStandsUpTo := standing
  path := charge.path
  named := charge.named
  staging := by
    intro id
    rw [removed.entry_eq _ (staging_not_earlier (Path.within_self _)), renamed.vacated]
    exact (Option.some_ne_none _).symm
  next := Nat.succ_le_succ low
  waits := by rintro _ ⟨⟩

/-- With the earlier generations gone, what was renamed is published. -/
theorem Renamed.publishes {manifest : Manifest} {middle : Volume}
    (renamed : Renamed dir name most manifest before middle)
    (charge : keeper.InCharge dir name most before) (low : manifest.generation ≤ most + 1)
    (below : manifest.generation < generationLimit)
    (removed : Changes (Earlier middle dir name manifest.generation) NoFile middle after)
    (standing : StandsUpTo dir name (most + 1) after)
    (cleared : ∀ item, Stands after dir name item → manifest.generation ≤ item.1) :
    Publishes dir name most keeper manifest before
      { keeper with staged := none, nextGeneration := manifest.generation + 1 } after where
  final := rfl
  changes := renamed.changes.trans (removed.mono (fun _ => owned_earlier) fun _ _ none => none)
  moved := renamed.moved.trans (SameTree.of_changes renamed.tree removed
    fun _ within => generation_not_earlier below within)
  there := (removed.entry_eq _ (generation_not_earlier below (Path.within_self _))).trans
    renamed.there
  cleared := cleared
  charge := renamed.inCharge charge low removed standing

/-- From the renaming on only earlier generations are touched. -/
theorem Renamed.clears {manifest : Manifest} {middle : Volume}
    (renamed : Renamed dir name most manifest before middle)
    (charge : keeper.InCharge dir name most before) (quiet : before.Quiet)
    (low : manifest.generation ≤ most + 1) (below : manifest.generation < generationLimit) :
    Keeping.Ends (do
      let found ← (keeper.generations : Task (List (Nat × Path)))
      (removeBelow manifest.generation found : Task Unit)
      pure manifest : Keeping CheckpointKeeper Manifest)
      { keeper with staged := none, nextGeneration := manifest.generation + 1 } middle
      (CommitsTo dir name most keeper manifest before) := by
  apply (clears_ends renamed.standing renamed.tree (renamed.changes.quiet quiet) charge.path
    charge.named manifest _).mono
  rintro result final after ⟨rfl, rfl, removed, standing, cleared⟩
  exact renamed.publishes charge low below removed standing cleared

/-- What waits has one of the next numbers. -/
theorem InCharge.staged_le {manifest : Manifest} (charge : keeper.InCharge dir name most before)
    (staged : keeper.staged = some manifest) : manifest.generation ≤ most + 1 := by
  obtain ⟨number, -⟩ := charge.waits manifest staged
  exact number ▸ charge.next

/-- The ways that a commit goes: its renaming cannot be done, or it is refused, or it is done and is
made durable, or that is refused, and then earlier generations are removed. -/
theorem InCharge.commit_goes {manifest : Manifest} (charge : keeper.InCharge dir name most before)
    (volumeSound : before.Sound) (staged : keeper.staged = some manifest)
    (room : most + 2 < generationLimit)
    {holds : Except Error Manifest → CheckpointKeeper → Volume → Prop}
    (unfit : ¬FitsDirectory (generationName name manifest.generation) → ∀ error,
      holds (.error error) keeper before.ticked)
    (refused : ∀ error after, Changes Nowhere NoFile before after → ¬before.Quiet →
      holds (.error error) keeper after)
    (unsynced : ∀ error after, Renamed dir name most manifest before after → ¬before.Quiet →
      holds (.error error)
        { keeper with staged := none, nextGeneration := manifest.generation + 1 } after)
    (clears : ∀ after, Renamed dir name most manifest before after →
      Keeping.Ends (do
        let found ← (keeper.generations : Task (List (Nat × Path)))
        (removeBelow manifest.generation found : Task Unit)
        pure manifest : Keeping CheckpointKeeper Manifest)
        { keeper with staged := none, nextGeneration := manifest.generation + 1 } after holds) :
    Keeping.Ends commit keeper before holds := by
  obtain ⟨-, there, vacant⟩ := charge.waits manifest staged
  have roomy : manifest.generation + 1 < generationLimit :=
    Nat.lt_of_le_of_lt (Nat.succ_le_succ (charge.staged_le staged)) room
  have below := Nat.lt_of_succ_lt roomy
  apply Keeping.Ends.getThen
  rw [staged]
  dsimp only
  rw [stagingDirectory, generationDirectory, charge.path, charge.named]
  have renames := renaming_meets volumeSound there charge.isDir vacant below
  apply Keeping.Ends.liftThen (Meets.adapt (renames.mono (fun _ _ holds => holds) _))
  swap
  · rintro _ after (⟨changes, loud⟩ | ⟨rfl, fits⟩)
    · exact refused _ after changes loud
    · exact unfit fits _
  rintro _ after ⟨changes, moved, gone⟩
  have renamed := charge.renamed volumeSound staged room changes moved gone
  apply Keeping.Ends.modifyThen
  rw [successor, if_pos roomy]
  apply Keeping.Ends.ofExceptThen
  · rintro _ ⟨⟩
  rintro _ ⟨⟩
  apply Keeping.Ends.modifyThen
  split
  · have syncs := syncDirectory_runs renamed.tree renamed.standing.isDir
    apply Keeping.Ends.liftThen (Meets.mono syncs (fun _ _ holds => holds) _)
    · exact fun _ synced holds => clears synced (renamed.of_look holds.1)
    · rintro error final ⟨looked, loud⟩
      exact unsynced error final (renamed.of_look looked) fun quiet => loud (renamed.changes.quiet quiet)
  · exact clears after renamed

theorem InCharge.commit_ends {manifest : Manifest} (charge : keeper.InCharge dir name most before)
    (volumeSound : before.Sound) (quiet : before.Quiet) (staged : keeper.staged = some manifest)
    (room : most + 2 < generationLimit) :
    Keeping.Ends commit keeper before (CommitsTo dir name most keeper manifest before) := by
  have low := charge.staged_le staged
  apply charge.commit_goes volumeSound staged room
  · exact fun unfit _ => ⟨unfit, rfl, rfl⟩
  · exact fun _ _ _ refused => absurd quiet refused
  · exact fun _ _ _ refused => absurd quiet refused
  · exact fun _ renamed => renamed.clears charge quiet low (by omega)

/-- A commit that is refused at the renaming leaves everything as it was. -/
theorem commit_refused {manifest : Manifest} (staged : keeper.staged = some manifest) {errno : Errno}
    (refused : before.faults before.clock = some errno) :
    commit keeper before =
      ((.error (.storage (.publishing keeper.stagingDirectory
        (keeper.generationDirectory manifest.generation)) (.refused errno)), keeper),
        before.ticked) := by
  have renames : rename keeper.stagingDirectory (keeper.generationDirectory manifest.generation)
      before = (.error (.refused errno), before.ticked) := by
    rw [rename, attempt_apply, refused]
  exact commit_unrenamed staged renames

/-! ## Errors -/

theorem generations_timely : Task.Timely keeper.generations :=
  (Task.Timely.run _ _).bind fun _ => .getVolumeThen fun _ => .pure _

theorem syncDirectory_timely (path : Storage.Path) : Task.Timely (syncDirectory path) :=
  .run _ _

theorem successor_timely (number : Nat) : Timely (successor number) := by
  rw [successor]
  split
  · exact .ok _
  · exact .error (by rintro _ ⟨⟩)

theorem numberAfter_timely (least : Nat) (found : List (Nat × Storage.Path)) :
    Timely (numberAfter least found) := by
  rw [numberAfter]
  split
  · exact .ok _
  · rename_i latest _ _
    have timely := successor_timely latest
    revert timely
    cases successor latest with
    | ok _ => exact fun _ => .ok _
    | error _ => exact Timely.again

theorem clearDirectory_timely (activity : Storage.Path → Activity) (path : Storage.Path) :
    Task.Timely (clearDirectory activity path) := by
  apply Task.Timely.getVolumeThen
  intro volume
  split
  · exact .run _ _
  · exact .pure _

/-- While nothing waits, beginning comes at the right time. -/
theorem beginStaging_timely (idle : keeper.staged = none) (seed : UInt64) (bits : Nat) :
    Keeping.Leaves (beginStaging seed bits) keeper fun result _ => Timely result := by
  have idleStill : ¬keeper.staged.isSome = true := by
    rw [idle]
    exact Bool.false_ne_true
  apply Keeping.Leaves.getThen
  rw [if_neg idleStill]
  refine (?_ : Keeping.Timely _) keeper
  apply (Keeping.Timely.lift (clearDirectory_timely _ _)).bind
  intro _
  apply (Keeping.Timely.lift (.run _ _)).bind
  intro _
  apply (Keeping.Timely.lift generations_timely).bind
  intro found
  apply (Keeping.Timely.ofExcept (numberAfter_timely _ found)).bind
  exact fun _ => .modifyThen (.pure _)

theorem stage_timely (staging : Staging) : Keeping.Timely (stage staging) := by
  have writes : Task.Timely (writeManifest staging) := by
    apply (Task.Timely.run _ _).bind
    intro _
    apply (Task.Timely.run _ _).bind
    intro _
    split
    · exact (Task.Timely.run _ _).bind fun _ => syncDirectory_timely _
    · exact .pure _
  exact (Keeping.Timely.lift writes).bind fun _ => .modifyThen (.pure _)

/-- While something waits, committing comes at the right time. -/
theorem commit_timely (waits : keeper.staged ≠ none) :
    Keeping.Leaves commit keeper fun result _ => Timely result := by
  obtain ⟨manifest, staged⟩ := Option.ne_none_iff_exists'.mp waits
  apply Keeping.Leaves.getThen
  rw [staged]
  have removes (found : List (Nat × Storage.Path)) :
      Task.Timely (removeBelow manifest.generation found) := by
    induction found with
    | nil => exact .pure _
    | cons item found ih =>
        rw [removeBelow]
        split
        · exact Task.Timely.bind (fun _ => .ok _) fun _ => ih
        · exact ih
  have publishes : Keeping.Timely (do
      let found ← keeper.generations
      removeBelow manifest.generation found
      pure manifest : Keeping CheckpointKeeper Manifest) :=
    (Keeping.Timely.lift generations_timely).bind fun found =>
      (Keeping.Timely.lift (removes found)).bind fun _ => .pure _
  refine (?_ : Keeping.Timely _) keeper
  apply (Keeping.Timely.lift (.run _ _)).bind
  intro _
  apply Keeping.Timely.modifyThen
  apply (Keeping.Timely.ofExcept (successor_timely _)).bind
  intro next
  apply Keeping.Timely.modifyThen
  split
  · exact (Keeping.Timely.lift (syncDirectory_timely _)).bind fun _ => publishes
  · exact publishes

end CheckpointKeeper

end FingerprintSet
