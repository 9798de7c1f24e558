import FingerprintSet.Proofs.BoundedSet.Limits
import FingerprintSet.Proofs.Segment.Merges

/-!
# The pages of a bounded set

Each segment of a bounded set keeps to the number of pages that the settings allow, because a put
that brings a page too many merges two pages at least into one.  Writing a checkpoint merges all
pages of each segment.
-/

namespace FingerprintSet

open Storage

namespace BoundedSet

variable {plan : Plan} {storage : StorageSettings} {settings : Settings} {set last : BoundedSet}
  {index : Nat} {before after : Volume}

/-- Merging the pages of one segment leaves it one page at most and the other segments as they are. -/
theorem Tidy.stageSegment_single (tidy : set.Tidy plan storage) (inside : index < set.segments.size)
    (staging : Staging) :
    Keeping.Leaves (stageSegment staging index) set fun result last => ∀ staged, result = .ok staged →
      ∃ segment, last = set.putSegment index segment ∧ segment.store.pageCount ≤ 1 := by
  have merges := onSegment_leaves (tidy.segments index inside).compact_single
  refine Keeping.Leaves.bind _ merges ?_ fun _ _ _ => by simp
  rintro _ merged ⟨segment, rfl, single⟩
  have files := fileSegment_leaves (fun writer => onSegment_scan_leaves SortedFile.Writer.push
    SortedFile.Writer.abandon writer index (set.putSegment index segment)) index staging
  exact files.mono fun _ _ same _ _ => ⟨segment, same, single rfl⟩

/-- A set of which the first segments have one page at most. -/
structure Gathered (plan : Plan) (storage : StorageSettings) (count : Nat) (set : BoundedSet) : Prop
    where
  tidy : set.Tidy plan storage
  single : ∀ index < count, (set.segmentAt index).store.pageCount ≤ 1

/-- A checkpoint that is written leaves each segment one page at most. -/
theorem Tidy.beginCheckpoint_single (tidy : set.Tidy plan storage) :
    Keeping.Leaves beginCheckpoint set fun result last => result = .ok () →
      ∀ index < last.segments.size, (last.segmentAt index).store.pageCount ≤ 1 := by
  apply Keeping.Leaves.getThen
  refine Keeping.Leaves.bind _ (tidy.onCheckpoints_leaves _) ?_ fun _ _ _ => by simp
  intro staging begun begunTidy
  have rounds : Keeping.Leaves ((List.range set.segments.size).foldlM stageSegment staging) begun
      fun result last => ∀ staged, result = .ok staged →
        last.Gathered plan storage set.segments.size := by
    refine Keeping.Leaves.foldRangeOk ⟨begunTidy, fun index none => absurd none (Nat.not_lt_zero _)⟩
      _ ?_ staging
    rintro index below staging current ⟨currentTidy, earlier⟩
    have count := tidy.count.trans currentTidy.count.symm
    have inside : index < current.segments.size := count ▸ below
    have stages := (currentTidy.stageSegment_single inside staging).and
      (currentTidy.stageSegment_leaves (tidy.count ▸ below) staging)
    refine stages.mono ?_
    rintro _ last ⟨merged, lastTidy⟩ staged answered
    refine ⟨lastTidy, fun other before => ?_⟩
    obtain ⟨segment, rfl, few⟩ := merged staged answered
    rw [segmentAt_putSegment segment inside]
    split
    · exact few
    · exact earlier other (by omega)
  refine Keeping.Leaves.bind _ rounds ?_ fun _ _ _ => by simp
  intro filled last there
  obtain ⟨lastTidy, few⟩ := there filled rfl
  have kept : Keeping.Leaves (onCheckpoints (CheckpointKeeper.stage filled)) last
      fun _ final => final.segments = last.segments :=
    fun _ => rfl
  refine Keeping.Leaves.bind _ kept ?_ fun _ _ _ => by simp
  intro _ final same
  refine Keeping.Leaves.pure fun _ index inside => ?_
  have segment : final.segmentAt index = last.segmentAt index := by
    rw [segmentAt, same, segmentAt]
  rw [segment]
  exact few index (tidy.count.trans lastTidy.count.symm ▸ same ▸ inside)

/-- A put changes one segment, and the pages of that as a put does. -/
theorem Tidy.put_takes (tidy : set.Tidy plan storage) (shaped : plan.Shaped)
    (buffered : 0 < plan.pendingCapacity) (two : 2 ≤ storage.maxPagesPerSegment.toNat)
    (fp : Fingerprint) :
    Keeping.Leaves (put fp) set fun result last => ∀ known, result = .ok known →
      ∃ segment, last = set.putSegment (set.router.segment fp) segment ∧
        (set.segmentAt (set.router.segment fp)).store.Takes segment.store := by
  have inside := tidy.segment_lt shaped fp
  have takes := (tidy.segments _ inside).put_takes buffered two (tidy.bucket_lt shaped fp) fp
  refine Keeping.Leaves.getThen ((onSegment_leaves takes).mono ?_)
  rintro result _ ⟨segment, rfl, taken⟩ known answered
  exact ⟨segment, rfl, taken known answered⟩

/-- Between operations no segment has more pages than the settings allow, and once a checkpoint is
written each has one at most.  A put changes one segment.  It writes one page there at most, and if it
merges pages it replaces at least two by one. -/
theorem pages_within_limit (planned : Plan.compute settings.memory = .ok plan)
    (accepted : settings.storage.validate = .ok ()) (arises : Arises settings plan set) :
    (∀ segment ∈ set.segments,
      segment.store.pageCount ≤ settings.storage.maxPagesPerSegment.toNat) ∧
    (∀ before last after, beginCheckpoint set before = ((.ok (), last), after) →
      ∀ segment ∈ last.segments, segment.store.pageCount ≤ 1) ∧
    ∀ fp known before last after, put fp set before = ((.ok known, last), after) →
      ∃ segment, last = set.putSegment (set.router.segment fp) segment ∧
        (set.segmentAt (set.router.segment fp)).store.Takes segment.store := by
  have tidy := arises.tidy planned accepted
  refine ⟨fun segment mem => (tidy.of_mem mem).store.few, ?_, ?_⟩
  · intro before last after ended segment mem
    have leaves := tidy.beginCheckpoint_single before
    rw [ended] at leaves
    obtain ⟨index, inside, rfl⟩ := exists_segmentAt mem
    exact leaves rfl index inside
  · intro fp known before last after ended
    have leaves := tidy.put_takes (Plan.compute_shaped planned)
      (budgeted_of_compute planned).buffered (pages_of_validate accepted) fp before
    rw [ended] at leaves
    exact leaves known rfl

/-- One bucket of one fingerprint, and two pages at most. -/
def narrowSettings : Settings where
  kind := .disk
  memory := crowdedSettings.memory
  storage := { crowdedSettings.storage with maxPagesPerSegment := 2 }
  log := .standard

/-- The third page is merged with another one, and both that there are then when a checkpoint is
written. -/
theorem pages_within_limit_narrow :
    ∃ set middle last after, filled narrowSettings [1, 2, 3, 4, 5] {} = (.ok set, middle) ∧
      beginCheckpoint set middle = ((.ok (), last), after) ∧
      (set.stats.pages, set.stats.compactions) = (2, 1) ∧
      (∀ segment ∈ set.segments, segment.store.pageCount ≤ 2) ∧
      ∀ segment ∈ last.segments, segment.store.pageCount ≤ 1 := by
  have evaluated : (filled narrowSettings [1, 2, 3, 4, 5] {}).1.toOption.map
      (fun set => (set.stats.pages, set.stats.compactions)) = some (2, 1) := by
    decide +kernel
  obtain ⟨set, middle, filling, told, arises⟩ := exists_filled evaluated
  have written : ((do
      let set ← filled narrowSettings [1, 2, 3, 4, 5]
      Keeping.build set beginCheckpoint : Task BoundedSet) {}).1.isOk = true := by
    decide +kernel
  rw [bind_apply, filling] at written
  dsimp only at written
  rw [Keeping.Runs.build_apply] at written
  rcases writing : beginCheckpoint set middle with ⟨⟨error | done, last⟩, after⟩
  · rw [writing] at written
    exact absurd written Bool.false_ne_true
  · have planned : Plan.compute narrowSettings.memory = .ok crowdedPlan := compute_crowded
    obtain ⟨few, single, -⟩ := pages_within_limit planned rfl (arises crowdedPlan)
    exact ⟨set, middle, last, after, filling, writing, told, few, single middle last after writing⟩

end BoundedSet

end FingerprintSet
