import FingerprintSet.Proofs.BoundedSet.Opening
import FingerprintSet.Proofs.Checkpoint.Resuming
import FingerprintSet.Proofs.Segment.Idle

/-!
# A bounded set turn by turn

A put, or the merging of pages before a checkpoint, may fail in one segment.  The other segments are
as they were then, and the one that it failed in can be put to and merged again.
-/

namespace FingerprintSet

open Storage Volume SortedFile Checkpoint

/-- The schedule has no part in what a store stands for. -/
theorem PageStore.Sound.reschedule {before : Volume} {pages : PageId → List Fingerprint}
    {store : PageStore} (sound : store.Sound before pages) (faults : Nat → Option Errno) :
    store.Sound (before.reschedule faults) pages :=
  { sound with
    isDir := sound.isDir
    filed := fun page mem =>
      have ⟨file, holds⟩ := sound.filed page mem
      ⟨file, holds.bound, holds.bytes⟩
    opened := sound.opened
    free := sound.free }

namespace BoundedSet

/-- No set has more segments. -/
def segmentLimit : Nat := 4096

/-- Nothing goes on in any segment of a set, and each has used up so many page numbers at most. -/
structure Idle (dir : Path) (name : String) (homes : Homes) (volume : Volume)
    (entries : Nat → PageId → List Fingerprint) (spent : Nat) (set : BoundedSet) : Prop
    extends Arranged homes entries set where
  place : set.overflow = overflowDirectory dir name
  few : set.segments.size ≤ segmentLimit
  idle : ∀ index < set.segments.size,
    (set.segmentAt index).Idle homes volume (entries index) spent

/-- Nothing goes on in a set, whatever it holds. -/
def Calm (dir : Path) (name : String) (spent : Nat) (volume : Volume) (set : BoundedSet) : Prop :=
  ∃ homes entries, set.Idle dir name homes volume entries spent

variable {dir : Path} {name : String} {homes : Homes} {before after : Volume} {set last : BoundedSet}
  {entries : Nat → PageId → List Fingerprint} {spent more index : Nat}

theorem Idle.mono (idle : set.Idle dir name homes before entries spent) (below : spent ≤ more) :
    set.Idle dir name homes before entries more :=
  { idle with
    idle := fun index inside => (idle.idle index inside).mono below }

/-- Work outside the directory of all pages leaves a set as it was. -/
theorem Idle.of_changes (idle : set.Idle dir name homes before entries spent)
    (volumeSound : before.Sound) {paths : Path → Prop} (changes : Changes paths NoFile before after)
    (outside : ∀ path, Within (overflowDirectory dir name) path → ¬paths path) :
    set.Idle dir name homes after entries spent :=
  { idle with
    idle := fun index inside => by
      apply (idle.idle index inside).of_changes volumeSound changes
      exact fun path within => outside path (idle.place ▸ idle.within_overflow inside within) }

theorem Calm.mono (calm : Calm dir name spent before set) (below : spent ≤ more) :
    Calm dir name more before set := by
  obtain ⟨homes, entries, idle⟩ := calm
  exact ⟨homes, entries, idle.mono below⟩

theorem Calm.of_changes (calm : Calm dir name spent before set) (volumeSound : before.Sound)
    {paths : Path → Prop} (changes : Changes paths NoFile before after)
    (outside : ∀ path, Within (overflowDirectory dir name) path → ¬paths path) :
    Calm dir name spent after set := by
  obtain ⟨homes, entries, idle⟩ := calm
  exact ⟨homes, entries, idle.of_changes volumeSound changes outside⟩

theorem Calm.reschedule (calm : Calm dir name spent before set) (faults : Nat → Option Errno) :
    Calm dir name spent (before.reschedule faults) set := by
  obtain ⟨homes, entries, idle⟩ := calm
  refine ⟨homes, entries, { idle with idle := fun index inside => ?_ }⟩
  have segment := idle.idle index inside
  exact { segment with sound := { segment.sound with store := segment.sound.store.reschedule faults } }

/-- What a bounded set keeps of itself. -/
def temper (dir : Path) (name : String) : (holder dir name).Temper where
  Calm := Calm dir name
  mono below calm := calm.mono below
  seat := by
    rintro spent volume set other ⟨homes, entries, idle⟩
    exact ⟨homes, entries, { idle with }⟩
  steady volumeSound changes calm := calm.of_changes volumeSound changes fun _ within owned =>
    (apart_overflow dir name).owned _ owned within
  reschedule faults calm := calm.reschedule faults

/-! ## Work on one segment -/

/-- A set with other contents of its segments. -/
def Follows (set last : BoundedSet) : Prop :=
  set.SameButSegments last ∧ last.segments.size = set.segments.size

theorem Follows.refl (set : BoundedSet) : set.Follows set :=
  ⟨rfl, rfl⟩

theorem Follows.trans {final : BoundedSet} (first : set.Follows last) (second : last.Follows final) :
    set.Follows final := by
  obtain ⟨firstSame, firstSize⟩ := first
  obtain ⟨secondSame, secondSize⟩ := second
  refine ⟨?_, secondSize.trans firstSize⟩
  rw [SameButSegments] at firstSame secondSame ⊢
  rw [secondSame, firstSame]

theorem Follows.checkpoints (follows : set.Follows last) : last.checkpoints = set.checkpoints := by
  have same := follows.1
  rw [SameButSegments] at same
  rw [same]

theorem Idle.replaced (idle : set.Idle dir name homes before entries spent)
    (volumeSound : before.Sound) (inside : index < set.segments.size)
    (changes : Changes (set.segmentAt index).Pages NoFile before after)
    {gained : List Fingerprint} {segment : Segment} (below : spent ≤ more)
    (routed : ∀ fp ∈ gained, set.router.segment fp = index)
    (endures : Segment.Endures homes after (entries index) (set.segmentAt index) gained more
      segment) :
    ∃ others, (set.putSegment index segment).Idle dir name homes after others more := by
  obtain ⟨others, there, directory, holds⟩ := endures
  refine ⟨given entries index others, ?_⟩
  exact
    { toArranged := idle.toArranged.replaced inside directory holds routed
      place := idle.place
      few := (size_putSegment index segment set).symm ▸ idle.few
      idle := by
        intro other otherIn
        rw [size_putSegment] at otherIn
        rw [segmentAt_putSegment segment inside, given]
        by_cases same : other = index
        · rw [if_pos same, if_pos same]
          exact there
        · rw [if_neg same, if_neg same]
          apply ((idle.idle other otherIn).mono below).of_changes volumeSound changes
          exact fun path within page => idle.apart otherIn inside same within page.within }

/-- What work on one segment leaves of it, it leaves of the set. -/
theorem Idle.segment_runs {α : Type} {work : Keeping Segment α} {gained : List Fingerprint}
    (idle : set.Idle dir name homes before entries spent) (volumeSound : before.Sound)
    (inside : index < set.segments.size) (below : spent ≤ more)
    (routed : ∀ fp ∈ gained, set.router.segment fp = index)
    (runs : Keeping.Runs work (set.segmentAt index) before (set.segmentAt index).Pages NoFile
      (fun _ last after =>
        Segment.Endures homes after (entries index) (set.segmentAt index) gained more last)
      fun last after =>
        Segment.Endures homes after (entries index) (set.segmentAt index) gained more last) :
    Keeping.Runs (onSegment index work) set before (Within (overflowDirectory dir name)) NoFile
      (fun _ last after => set.Follows last ∧ Calm dir name more after last)
      fun last after => set.Follows last ∧ Calm dir name more after last := by
  have pages (path : Path) (page : (set.segmentAt index).Pages path) :
      Within (overflowDirectory dir name) path :=
    idle.place ▸ (idle.pages_below inside path page).within
  have leaves {segment : Segment} {after : Volume}
      (changes : Changes (set.segmentAt index).Pages NoFile before after)
      (endures : Segment.Endures homes after (entries index) (set.segmentAt index) gained more
        segment) :
      set.Follows (set.putSegment index segment) ∧
        Calm dir name more after (set.putSegment index segment) := by
    obtain ⟨others, there⟩ := idle.replaced volumeSound inside changes below routed endures
    exact ⟨⟨rfl, size_putSegment index segment set⟩, homes, others, there⟩
  have noting := runs.mono (fun _ _ _ changes holds => And.intro changes holds)
    fun _ _ changes holds => And.intro changes holds
  apply ((onSegment_runs noting).widen pages fun _ _ none => none).mono
  · rintro _ _ after - ⟨segment, rfl, changes, endures⟩
    exact leaves changes endures
  · rintro _ after - ⟨segment, rfl, changes, endures⟩
    exact leaves changes endures

/-- A put leaves a calm set calm, whether or not it fails. -/
theorem Calm.put_runs (calm : Calm dir name spent before set) (volumeSound : before.Sound)
    (few : spent + 2 < numberLimit) (fp : Fingerprint) :
    Keeping.Runs (put fp) set before (Within (overflowDirectory dir name)) NoFile
      (fun _ last after => set.Follows last ∧ Calm dir name (spent + 2) after last)
      fun last after => set.Follows last ∧ Calm dir name (spent + 2) after last := by
  obtain ⟨homes, entries, idle⟩ := calm
  have inside := idle.segment_lt fp
  have puts := (idle.idle _ inside).put_runs volumeSound few fp
  rw [idle.home] at puts
  apply Keeping.Runs.getThen
  apply idle.segment_runs volumeSound inside (Nat.le_add_right _ 2) _ puts
  rintro _ mem
  rw [List.mem_singleton.mp mem]

/-- A membership test leaves a calm set calm, whether or not it fails. -/
theorem Calm.contains_runs (calm : Calm dir name spent before set) (volumeSound : before.Sound)
    (fp : Fingerprint) :
    Keeping.Runs (contains fp) set before (Within (overflowDirectory dir name)) NoFile
      (fun _ last after => set.Follows last ∧ Calm dir name spent after last)
      fun last after => set.Follows last ∧ Calm dir name spent after last := by
  obtain ⟨homes, entries, idle⟩ := calm
  have inside := idle.segment_lt fp
  have looks := (idle.idle _ inside).contains_runs volumeSound fp
  rw [idle.home] at looks
  apply Keeping.Runs.getThen
  exact idle.segment_runs volumeSound inside (Nat.le_refl _)
    (fun _ mem => absurd mem List.not_mem_nil) looks

/-! ## Filling the files of the segments -/

/-- Work on a segment is done in its place. -/
theorem onSegment_leaves {α : Type} {work : Keeping Segment α}
    {holds : Except Error α → Segment → Prop}
    (leaves : Keeping.Leaves work (set.segmentAt index) holds) :
    Keeping.Leaves (onSegment index work) set fun result last =>
      ∃ segment, last = set.putSegment index segment ∧ holds result segment :=
  Keeping.Leaves.onPart (leaves.mono fun _ segment there =>
    ⟨segment, putSegment_putSegment index default segment set, there⟩)

/-- Scanning a segment leaves the set as it was, however it ends. -/
theorem onSegment_scan_leaves {σ : Type} (sink : σ → Fingerprint → Task σ) (giveUp : σ → Task Unit)
    (state : σ) (index : Nat) (set : BoundedSet) :
    Keeping.Leaves (onSegment index (Segment.scan sink giveUp state)) set fun _ last => last = set := by
  refine (onSegment_leaves (Segment.scan_leaves sink giveUp state)).mono ?_
  rintro _ _ ⟨_, rfl, rfl⟩
  exact putSegment_self set index

/-- Writing the file of a segment leaves of the set what the merging before it leaves. -/
theorem stageSegment_leaves {kept : BoundedSet → Prop} {index : Nat}
    (merges : Keeping.Leaves (onSegment index Segment.compact) set fun _ last => kept last)
    (staging : Staging) : Keeping.Leaves (stageSegment staging index) set fun _ last => kept last := by
  refine Keeping.Leaves.bind _ merges ?_ fun _ _ still => still
  intro _ last still
  have files := fileSegment_leaves (fun writer => onSegment_scan_leaves Writer.push Writer.abandon
    writer index last) index staging
  exact files.mono fun _ _ same => same ▸ still

/-- The files of the first segments were tried, and the set follows on one. -/
def Fills (dir : Path) (name : String) (number spent : Nat) (set : BoundedSet) (count : Nat)
    (staging : Staging) (last : BoundedSet) (volume : Volume) : Prop :=
  (set.Follows last ∧ Calm dir name (spent + count) volume last) ∧ ∃ generation tried,
    Writes dir name volume staging generation tried ∧ generation.number = number ∧
      ∀ index ∈ tried, index < count

variable {staging : Staging} {number count : Nat}

/-- The pages of a segment are merged and then its file is written, or one of the two fails. -/
theorem stageSegment_fills (volumeSound : before.Sound) (few : spent + segmentLimit < numberLimit)
    (inside : count < set.segments.size)
    (fills : Fills dir name number spent set count staging last before) :
    Keeping.Runs (stageSegment staging count) last before
      (fun path => Below (dir.child (stagingName name)) path ∨
        Within (overflowDirectory dir name) path) NoFile
      (Fills dir name number spent set (count + 1))
      fun last after => set.Follows last ∧ Calm dir name (spent + (count + 1)) after last := by
  obtain ⟨⟨follows, homes, entries, idle⟩, generation, tried, writes, rfl, triedBelow⟩ := fills
  have here : count < last.segments.size := follows.2.symm ▸ inside
  have low : count < segmentLimit := Nat.lt_of_lt_of_le here idle.few
  have room : spent + count + 1 < numberLimit := by omega
  have merges := idle.segment_runs volumeSound here (Nat.le_succ _)
    (fun _ mem => absurd mem List.not_mem_nil) ((idle.idle count here).compact_runs volumeSound room)
  have noting := merges.mono (fun _ _ _ changes holds => And.intro changes holds)
    fun _ _ _ holds => holds
  apply Keeping.Runs.bind
  · apply (noting.widen (fun _ => Or.inr) fun _ _ none => none).mono (fun _ _ _ _ holds => holds)
    exact fun final after _ ⟨next, calm⟩ => ⟨follows.trans next, calm⟩
  rintro _ merged middle - ⟨changes, next, homes, others, mergedIdle⟩
  have mergedSound := changes.sound volumeSound
  have apart := apart_overflow dir name
  have stillWrites := writes.of_apart volumeSound changes apart
  have new : count ∉ tried := fun mem => Nat.lt_irrefl _ (triedBelow count mem)
  have there : count < merged.segments.size := next.2.symm ▸ here
  have elsewhere (path : Path) (within : Within (overflowDirectory dir name) path) :
      ¬At ((dir.child (stagingName name)).child (segmentFile count)) path := by
    rintro rfl
    exact apart.owned _ (owned_staging (Path.within_child _ _)) within
  have files := fileSegment_runs stillWrites mergedSound new
    (Nat.lt_of_lt_of_le low (by decide)) (sorted_ascending _) fun writer created _ changes taken file =>
      pushSegment_runs mergedSound (mergedIdle.idle count there).sound changes
        (fun path within => elsewhere path
          (mergedIdle.place ▸ mergedIdle.within_overflow there within)) taken file
  have inStaging (path : Path)
      (same : At ((dir.child (stagingName name)).child (segmentFile count)) path) :
      Below (dir.child (stagingName name)) path ∨ Within (overflowDirectory dir name) path :=
    Or.inl (below_iff.mpr ⟨segmentFile count, [], same⟩)
  have calmStill {final : Volume}
      (filed : Changes (At ((dir.child (stagingName name)).child (segmentFile count))) NoFile
        middle final) : Calm dir name (spent + (count + 1)) final merged :=
    ⟨homes, others, mergedIdle.of_changes mergedSound filed elsewhere⟩
  have leaves := fileSegment_leaves (fun writer => onSegment_scan_leaves Writer.push Writer.abandon
    writer count merged) count staging
  have both := (files.leaving leaves).mono
    (fun _ _ _ changes holds => And.intro changes holds) fun _ _ changes holds =>
      And.intro changes holds
  apply (both.widen inStaging fun _ _ none => none).mono
  · rintro recorded _ final - ⟨filed, ⟨-, recordedWrites⟩, rfl⟩
    refine ⟨⟨follows.trans next, calmStill filed⟩, _, _, recordedWrites, rfl, ?_⟩
    rw [List.forall_mem_cons]
    exact ⟨Nat.lt_succ_self _, fun index mem => Nat.lt_succ_of_lt (triedBelow index mem)⟩
  · rintro _ final - ⟨filed, -, rfl⟩
    exact ⟨follows.trans next, calmStill filed⟩

/-- All files are written, or one of them cannot be. -/
theorem Calm.fill_runs (calm : Calm dir name spent before set) (volumeSound : before.Sound)
    (few : spent + segmentLimit < numberLimit) {start : Generation}
    (writes : Writes dir name before staging start []) :
    Keeping.Runs ((List.range set.segments.size).foldlM stageSegment staging) set before
      (fun path => Below (dir.child (stagingName name)) path ∨
        Within (overflowDirectory dir name) path) NoFile
      (fun filled last after =>
        (holder dir name).FillLeaves (temper dir name) (spent + segmentLimit) set.checkpoints last
          after ∧
        ∃ generation tried, Writes dir name after filled generation tried ∧
          generation.number = start.number)
      fun last after => (holder dir name).FillLeaves (temper dir name) (spent + segmentLimit)
        set.checkpoints last after := by
  have size : set.segments.size ≤ segmentLimit := by
    obtain ⟨homes, entries, idle⟩ := calm
    exact idle.few
  have leaves {used : Nat} {last : BoundedSet} {after : Volume} (low : used ≤ segmentLimit)
      (there : set.Follows last ∧ Calm dir name (spent + used) after last) :
      (holder dir name).FillLeaves (temper dir name) (spent + segmentLimit) set.checkpoints last
        after :=
    ⟨there.1.checkpoints, there.2.mono (Nat.add_le_add_left low spent)⟩
  have begun : Fills dir name start.number spent set 0 staging set before :=
    ⟨⟨.refl set, calm⟩, start, [], writes, rfl, by simp⟩
  suffices rounds : Keeping.Runs ((List.range set.segments.size).foldlM stageSegment staging) set
      before (fun path => Below (dir.child (stagingName name)) path ∨
        Within (overflowDirectory dir name) path) NoFile
      (Fills dir name start.number spent set set.segments.size)
      fun last after => (holder dir name).FillLeaves (temper dir name) (spent + segmentLimit)
        set.checkpoints last after by
    apply rounds.mono
    · rintro filled last after - ⟨there, generation, tried, written, same, -⟩
      exact ⟨leaves size there, generation, tried, written, same⟩
    · exact fun _ _ _ there => there
  apply Keeping.Runs.foldRange (Fills dir name start.number spent set) begun
  intro index inside staging last after changes fills
  apply (stageSegment_fills (changes.sound volumeSound) few inside fills).mono
  · exact fun _ _ _ _ holds => holds
  · exact fun _ _ _ there => leaves (Nat.le_trans inside size) there

theorem stageSegment_timely (staging : Staging) (index : Nat) :
    Keeping.Timely (stageSegment staging index) := by
  apply (Keeping.Timely.onPart Segment.compact_timely).bind
  intro _
  refine fileSegment_timely (fun writer => ?_) index staging
  exact Keeping.Timely.onPart (Segment.scan_timely Writer.push_timely Writer.abandon_timely writer)

/-- Beginning a checkpoint while none waits. -/
theorem beginCheckpoint_turned {most : Nat}
    (orderly : (holder dir name).Orderly (temper dir name) most spent before set)
    (idle : set.checkpoints.staged = none) (room : most + 1 < generationLimit)
    (few : spent + segmentLimit < numberLimit) :
    Keeping.Ends beginCheckpoint set before fun result final after =>
      Changes (Touches dir name) NoFile before after ∧
        (holder dir name).Turned (temper dir name) most (spent + segmentLimit) set before result
          final after := by
  apply Keeping.Ends.comesTo (beginCheckpoint_apply dir name set before)
  apply Holder.begin_turned orderly idle room (Nat.le_add_right _ _) (apart_overflow dir name)
  intro staging keeper middle number sound calm writes
  exact Calm.fill_runs calm sound few writes

theorem beginCheckpoint_busy (busy : set.checkpoints.staged ≠ none) (before : Volume) :
    beginCheckpoint set before = ((.error (.protocol .alreadyStaged), set), before) := by
  rw [beginCheckpoint_apply [] "" set before]
  exact Holder.begin_busy busy before

theorem beginCheckpoint_timely (idle : set.checkpoints.staged = none) (before : Volume) :
    Timely (beginCheckpoint set before).1.1 := by
  rw [beginCheckpoint_apply [] "" set before]
  exact Holder.begin_timely idle (Keeping.Timely.foldlM stageSegment_timely _) before

/-! ## Taking up a directory -/

theorem keepsCalm (dir : Path) (name : String) :
    Holder.KeepsCalm (temper dir name) (Within (overflowDirectory dir name)) numberLimit put := by
  intro set spent fp before volumeSound calm few
  apply (calm.put_runs volumeSound few fp).mono
  · exact fun _ _ _ _ ⟨follows, calmAfter⟩ => ⟨follows.checkpoints, calmAfter⟩
  · exact fun _ _ _ ⟨follows, calmAfter⟩ => ⟨follows.checkpoints, calmAfter⟩

/-- Segments that were laid out make a calm set. -/
theorem Laid.calm {plan : Plan} (shaped : plan.Shaped)
    (laid : Laid homes set.overflow plan.segmentCount set.segments before)
    (place : set.overflow = overflowDirectory dir name) (home : homes.home = set.router.bucket)
    (bits : set.router.segmentBits = plan.segmentBits) :
    Calm dir name (2 * countLimit) before set := by
  have sound := laid.sound shaped home bits
  exact ⟨homes, _,
    { toArranged := sound.toArranged
      place
      few := Nat.le_trans (Nat.le_of_eq laid.size) shaped.segmentCount_le
      idle := fun index inside => (sound.rests index inside).isIdle (Nat.le_refl _) }⟩

variable {most : Nat} {settings : Settings} {seed : UInt64}

/-- What may have been given out when a set is opened. -/
def openingCost : Nat := 2 * countLimit + 2 * UInt64.size

/-- A set that is opened can be used from then on, whatever it was opened on. -/
theorem openAt_orderly (admits : Admits dir name most before) (room : most + 1 < generationLimit) :
    Meets (openAt settings seed dir name) before
      (fun set after => (holder dir name).Orderly (temper dir name) most openingCost after set ∧
        set.checkpoints.staged = none)
      fun _ _ => True := by
  rcases accepted : settings.storage.validate with error | _
  · rw [openAt, accepted]
    exact Meets.of_error rfl trivial
  rcases planned : Plan.compute settings.memory with error | plan
  · rw [openAt, accepted, planned]
    exact Meets.of_error rfl trivial
  have shaped := Plan.compute_shaped planned
  have apart := apart_overflow dir name
  rw [openAt_eq accepted planned]
  apply Meets.bind (CheckpointKeeper.openAt_takes admits room _)
  rintro keeper taken ⟨takenSound, standing, fresh, usable, -⟩
  have buckets : ((routerFor plan seed).homes shaped.buckets).buckets = plan.bucketsPerSegment := rfl
  apply Meets.bind (layOut_meets takenSound standing.isDir usable accepted planned buckets)
  rintro segments laid ⟨laying, blank⟩
  exact Holder.restored_orderly (keepsCalm dir name) apart (by decide) (laying.sound takenSound)
    (standing.of_changes laying apart.spares) fresh (blank.calm shaped rfl rfl rfl)

end BoundedSet

end FingerprintSet
