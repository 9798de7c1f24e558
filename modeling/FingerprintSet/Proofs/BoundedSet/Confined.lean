import FingerprintSet.Proofs.BoundedSet.Contents
import FingerprintSet.Proofs.Checkpoint.Confined
import FingerprintSet.Proofs.Plan
import FingerprintSet.Proofs.Segment.Confined

/-!
# Bounded sets keep to their directories

All that is done with a bounded set keeps to a region for its name: its pages lie in the overflow
directory, which belongs to the name, and its checkpoints do too.
-/

namespace FingerprintSet

open Storage Volume Storage.Region Checkpoint

variable {region : Region} {dir : Path} {name : String} {α : Type}

namespace BoundedSet

/-- A bounded set of so many segments, all of them in the region. -/
structure In (region : Region) (dir : Path) (name : String) (count files : Nat) (set : BoundedSet) :
    Prop where
  checkpoints : set.checkpoints.Serves dir name
  overflow : region.writes set.overflow
  count_eq : set.segments.size = count
  routes : ∀ fp, set.router.segment fp < count
  segments : ∀ index < count, region.segments.holds files (set.segmentAt index)

end BoundedSet

/-- Bounded sets of so many segments for a name in a directory. -/
def Storage.Region.boundedSets (region : Region) (dir : Path) (name : String) (count : Nat) :
    Custody BoundedSet where
  holds files set := set.In region dir name count files
  grows more inside :=
    { inside with
      segments := fun index below => region.segments.grows more (inside.segments index below) }

namespace BoundedSet

variable {count : Nat} {good : α → Prop} {set : BoundedSet}

theorem onSegment_confined {index : Nat} (below : index < count) {work : Keeping Segment α}
    (confines : region.ConfinesKeeping region.segments work good) :
    region.ConfinesKeeping (region.boundedSets dir name count) (onSegment index work) good := by
  refine confines.onPart (fun _ _ inside => inside.segments index below) ?_
  intro set segment files inside holds
  show (((set.putSegment index default).putSegment index segment).In region dir name count files)
  rw [putSegment_putSegment]
  refine ⟨inside.checkpoints, inside.overflow, ?_, inside.routes, fun other otherBelow => ?_⟩
  · rw [size_putSegment, inside.count_eq]
  · rw [segmentAt_putSegment segment (inside.count_eq ▸ below)]
    split
    · exact holds
    · exact inside.segments other otherBelow

theorem onCheckpoints_confined {work : Keeping CheckpointKeeper α}
    (confines : region.ConfinesKeeping (.always (CheckpointKeeper.Serves dir name)) work good) :
    region.ConfinesKeeping (region.boundedSets dir name count) (onCheckpoints work) good :=
  confines.onPart (fun _ _ inside => inside.checkpoints) fun _ _ _ inside serves =>
    { inside with checkpoints := serves }

theorem put_confined (fp : Fingerprint) :
    region.ConfinesKeeping (region.boundedSets dir name count) (put fp) fun _ => True :=
  .getThen fun _ _ inside => onSegment_confined (inside.routes fp) (Segment.put_confined _ fp)

theorem contains_confined (fp : Fingerprint) :
    region.ConfinesKeeping (region.boundedSets dir name count) (contains fp) fun _ => True :=
  .getThen fun _ _ inside => onSegment_confined (inside.routes fp) (Segment.contains_confined _ fp)

/-! ## Checkpoints -/

theorem stageSegment_confined {staging : Staging} (inside : staging.In region) {index : Nat}
    (below : index < count) :
    region.ConfinesKeeping (region.boundedSets dir name count) (stageSegment staging index)
      (Staging.In region) := by
  refine (onSegment_confined below Segment.compact_confined).bind fun _ _ => ?_
  have creates := Staging.segmentWriter_confined inside index
  refine (ConfinesKeeping.lift creates).bind fun writer created => ?_
  have scans := Segment.scan_confined (fun _ fp own => SortedFile.Writer.push_confined own fp)
    (fun _ own => SortedFile.Writer.abandon_confined own) created
  refine (onSegment_confined below scans).bind fun writer own => ?_
  exact (ConfinesKeeping.lift (SortedFile.Writer.finish_confined own)).bind fun _ _ => .pure inside

theorem commitCheckpoint_confined (serves : region.Serves dir name) :
    region.ConfinesKeeping (region.boundedSets dir name count) commitCheckpoint fun _ => True :=
  (onCheckpoints_confined (CheckpointKeeper.commit_confined serves)).bind fun _ _ => .pure trivial

theorem beginCheckpoint_confined (serves : region.Serves dir name) :
    region.ConfinesKeeping (region.boundedSets dir name count) beginCheckpoint fun _ => True := by
  refine .getThen fun set _ inside => ?_
  refine (onCheckpoints_confined (CheckpointKeeper.beginStaging_confined serves _ _)).bind
    fun staging begun => ?_
  refine (ConfinesKeeping.foldlM (fun staging index mem still => ?_) begun).bind fun staging staged => ?_
  · exact stageSegment_confined still (inside.count_eq ▸ List.mem_range.mp mem)
  · exact (onCheckpoints_confined (CheckpointKeeper.stage_confined staged)).bind
      fun _ _ => .pure trivial

theorem leastDistance_confined :
    region.ConfinesKeeping (region.boundedSets dir name count) leastDistance fun _ => True := by
  have observes (distance : LeastDistance) {index : Nat} (below : index < count) :
      region.ConfinesKeeping (region.boundedSets dir name count) (observeSegment distance index)
        fun _ => True := by
    have sinks (state : LeastDistance) (fp : Fingerprint) (_ : True) :
        region.ConfinesTask (Task.ofExcept (state.observe fp)) fun _ => True :=
      .ofExcept fun _ _ => trivial
    have idles (_ : LeastDistance) (_ : True) :
        region.ConfinesTask (pure () : Task Unit) fun _ => True := .pure trivial
    exact onSegment_confined below (Segment.scan_confined sinks idles trivial)
  refine .getThen fun set _ inside => ?_
  have rounds : region.ConfinesKeeping (region.boundedSets dir name count)
      ((List.range set.segments.size).foldlM observeSegment {}) fun _ => True :=
    .foldlM (fun distance index mem _ => observes distance (inside.count_eq ▸ List.mem_range.mp mem))
      trivial
  exact rounds.bind fun _ _ => .pure trivial

/-! ## Opening and closing -/

theorem createSegments_confined {overflow : Path} (writes : region.writes overflow) (plan : Plan)
    (storage : StorageSettings) :
    region.ConfinesTask (createSegments plan storage overflow) fun segments =>
      segments.size = plan.segmentCount ∧
        ∀ segment ∈ segments, ∀ files, region.segments.holds files segment := by
  suffices grows : ∀ (indices : List Nat) (first : Array Segment),
      (∀ segment ∈ first, ∀ files, region.segments.holds files segment) →
        region.ConfinesTask (indices.foldlM (fun segments index => do
          return segments.push (← Segment.create index plan storage overflow)) first)
          fun segments => segments.size = first.size + indices.length ∧
            ∀ segment ∈ segments, ∀ files, region.segments.holds files segment by
    have all := grows (List.range plan.segmentCount) #[] fun _ none => nomatch none
    rwa [List.length_range, Array.size_empty, Nat.zero_add] at all
  intro indices
  induction indices with
  | nil => exact fun first holds => .pure ⟨rfl, holds⟩
  | cons index indices ih =>
      intro first holds
      rw [List.foldlM_cons]
      have pushes : region.ConfinesTask (do
          return first.push (← Segment.create index plan storage overflow) : Task (Array Segment))
          fun segments => segments.size = first.size + 1 ∧
            ∀ segment ∈ segments, ∀ files, region.segments.holds files segment := by
        refine (Segment.create_confined writes index plan storage).bind fun segment inside => .pure ?_
        refine ⟨Array.size_push _, fun other mem => ?_⟩
        rcases Array.mem_push.mp mem with mem | rfl
        · exact holds other mem
        · exact inside
      refine pushes.bind fun segments pushed => (ih segments pushed.2).mono fun all grown => ?_
      rw [List.length_cons, Nat.add_comm indices.length, ← Nat.add_assoc, ← pushed.1]
      exact grown

/-- A plan that is accepted was computed. -/
theorem computed_of_mapError {settings : MemorySettings} {plan : Plan}
    (planned : (Plan.compute settings).mapError Error.invalidConfiguration = .ok plan) :
    Plan.compute settings = .ok plan := by
  cases computed : Plan.compute settings with
  | ok other =>
      rw [computed] at planned
      exact congrArg Except.ok (Except.ok.inj planned)
  | error cause =>
      rw [computed] at planned
      exact nomatch planned

/-- A new set with the segments that were created for it. -/
theorem in_of_created {plan : Plan} (shaped : plan.Shaped) {segments : Array Segment}
    (size : segments.size = plan.segmentCount)
    (created : ∀ segment ∈ segments, ∀ files, region.segments.holds files segment)
    {keeper : CheckpointKeeper} (keeps : keeper.Serves dir name) {overflow : Path}
    (writes : region.writes overflow) (seed : UInt64) (files : Nat) :
    BoundedSet.In region dir name plan.segmentCount files
      { plan, segments, overflow
        router := { seed, segmentBits := plan.segmentBits, buckets := plan.bucketsPerSegment }
        checkpoints := keeper } where
  checkpoints := keeps
  overflow := writes
  count_eq := size
  routes fp := Router.segment_lt (Nat.le_trans shaped.bits (by decide)) fp
  segments index below := by
    have inside : index < segments.size := size ▸ below
    show region.segments.holds files (segments.getD index default)
    rw [Array.getD_eq_getD_getElem?, Array.getElem?_eq_getElem inside]
    exact created _ (Array.getElem_mem inside) files

theorem openAt_confined (serves : region.Serves dir name) (settings : Settings) (seed : UInt64) :
    region.ConfinesMaking (openAt settings seed dir name) (.some (region.boundedSets dir name)) := by
  have overflow : region.writes (overflowDirectory dir name) := serves.entries _ .overflow
  refine (ConfinesTask.ofExcept fun _ told => told).bindMaking fun _ _ => ?_
  refine (ConfinesTask.ofExcept fun _ told => told).bindMaking fun plan planned => ?_
  refine (CheckpointKeeper.openAt_confined serves _).bindMaking fun keeper keeps => ?_
  refine (CheckpointKeeper.clearDirectory_confined _ overflow).bindMaking fun _ _ => ?_
  refine (makeDirectories_confined (region.writes_reads _ overflow)).run.bindMaking fun _ _ => ?_
  refine (createSegments_confined overflow plan _).bindMaking fun segments created => ?_
  refine (CheckpointKeeper.recover_confined serves keeps).bindMaking fun recovered writes => ?_
  have inside := in_of_created (Plan.compute_shaped (computed_of_mapError planned)) created.1
    created.2 keeps overflow seed
  cases recovered with
  | none => exact .pure fun files => ⟨plan.segmentCount, inside files⟩
  | some checkpoint =>
      have restores : region.ConfinesKeeping (region.boundedSets dir name plan.segmentCount)
          (checkpoint.restore put size) fun _ => True :=
        restore_confined put_confined size (writes checkpoint rfl)
      exact (restores.build inside).mono fun result files made set same =>
        ⟨plan.segmentCount, made set same⟩

theorem close_confined {files : Nat} (inside : set.In region dir name count files) :
    region.ConfinesTask set.close fun _ => True :=
  (removeTree_confined inside.overflow).run

end BoundedSet

end FingerprintSet
