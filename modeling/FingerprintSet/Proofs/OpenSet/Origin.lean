import FingerprintSet.Proofs.BoundedSet.Limits
import FingerprintSet.Proofs.OpenSet.Lives

/-!
# What a set stays

A set keeps the seed it was opened with and the number of its segments, whatever is asked of it and
whatever is refused.
-/

namespace FingerprintSet

open Storage Volume SortedFile Checkpoint

/-! ## Bounded sets -/

namespace BoundedSet

variable {set : BoundedSet} {first : UInt64 × Nat} {settings : Settings} {seed : UInt64} {dir : Path}
  {name : String} {plan : Plan} {before after : Volume} {α : Type}

/-- The seed of a set and its segment bits, which never change. -/
def origin (set : BoundedSet) : UInt64 × Nat :=
  (set.seed, set.plan.segmentBits)

section Operations

variable (same : set.origin = first)

include same

theorem onSegment_origin (index : Nat) (work : Keeping Segment α) :
    Keeping.Leaves (onSegment index work) set fun _ last => last.origin = first :=
  fun _ => same

theorem onCheckpoints_origin (work : Keeping CheckpointKeeper α) :
    Keeping.Leaves (onCheckpoints work) set fun _ last => last.origin = first :=
  fun _ => same

theorem put_origin (fp : Fingerprint) :
    Keeping.Leaves (put fp) set fun _ last => last.origin = first :=
  .getThen (onSegment_origin same _ _)

theorem contains_origin (fp : Fingerprint) :
    Keeping.Leaves (contains fp) set fun _ last => last.origin = first :=
  .getThen (onSegment_origin same _ _)

theorem beginCheckpoint_origin :
    Keeping.Leaves beginCheckpoint set fun _ last => last.origin = first := by
  apply Keeping.Leaves.getThen
  refine Keeping.Leaves.bind _ (onCheckpoints_origin same _) ?_ fun _ _ still => still
  intro staging begun still
  have rounds : Keeping.Leaves ((List.range set.segments.size).foldlM stageSegment staging) begun
      fun _ last => last.origin = first := by
    refine Keeping.Leaves.foldlM (fun staging index _ current there => ?_) ?_ staging
    · exact stageSegment_leaves (onSegment_origin there index _) staging
    · exact still
  refine Keeping.Leaves.bind _ rounds ?_ fun _ _ still => still
  intro filled last there
  refine Keeping.Leaves.bind _ (onCheckpoints_origin there _) ?_ fun _ _ still => still
  exact fun _ _ still => Keeping.Leaves.pure still

theorem commitCheckpoint_origin :
    Keeping.Leaves commitCheckpoint set fun _ last => last.origin = first := by
  refine Keeping.Leaves.bind _ (onCheckpoints_origin same _) ?_ fun _ _ still => still
  exact fun _ _ still => Keeping.Leaves.pure still

theorem leastDistance_origin :
    Keeping.Leaves leastDistance set fun _ last => last.origin = first :=
  (leastDistance_leaves set).mono fun _ _ unchanged => unchanged ▸ same

end Operations

theorem openAt_origin (opens : Opens settings name plan)
    (opened : openAt settings seed dir name before = (.ok set, after)) :
    set.origin = (seed, plan.segmentBits) := by
  rw [openAt_eq opens.accepted opens.planned] at opened
  obtain ⟨keeper, taken, -, laying⟩ := exists_of_bind_ok opened
  obtain ⟨segments, laid, -, filled⟩ := exists_of_bind_ok laying
  exact Holder.restored_leaves (fun set => set.origin = (seed, plan.segmentBits))
    (fun _ fp same => (put_origin same fp).mono fun _ _ still _ _ => still) rfl filled

end BoundedSet

/-! ## Resident sets -/

namespace ResidentSet

variable {set : ResidentSet} {settings : Settings} {seed : UInt64} {dir : Path} {name : String}
  {before after : Volume} {α : Type}

theorem openAt_seed (opened : openAt settings seed dir name before = (.ok set, after)) :
    set.seed = seed := by
  rw [openAt_eq] at opened
  obtain ⟨keeper, taken, -, filled⟩ := exists_of_bind_ok opened
  exact Holder.restored_leaves (fun set => set.seed = seed) (fun _ _ same _ _ _ => same) rfl filled

section Operations

variable (same : set.seed = seed)

include same

theorem onCheckpoints_seed (work : Keeping CheckpointKeeper α) :
    Keeping.Leaves (onCheckpoints work) set fun _ last => last.seed = seed :=
  fun _ => same

theorem beginCheckpoint_seed :
    Keeping.Leaves beginCheckpoint set fun _ last => last.seed = seed := by
  have lifted {β : Type} (task : Task β) {set : ResidentSet} (still : set.seed = seed) :
      Keeping.Leaves (liftM task : Keeping ResidentSet β) set fun _ last => last.seed = seed :=
    Keeping.Leaves.lift fun _ => still
  apply Keeping.Leaves.getThen
  refine Keeping.Leaves.bind _ (onCheckpoints_seed same _) ?_ fun _ _ still => still
  intro staging begun still
  refine Keeping.Leaves.bind _ (lifted _ still) ?_ fun _ _ still => still
  intro writer created still
  apply Keeping.Leaves.getThen
  refine Keeping.Leaves.bind _ (lifted _ still) ?_ fun _ _ still => still
  intro pushed filled still
  refine Keeping.Leaves.bind _ (lifted _ still) ?_ fun _ _ still => still
  intro written finished still
  refine Keeping.Leaves.bind _ (onCheckpoints_seed still _) ?_ fun _ _ still => still
  exact fun _ _ still => Keeping.Leaves.pure still

theorem commitCheckpoint_seed :
    Keeping.Leaves commitCheckpoint set fun _ last => last.seed = seed := by
  refine Keeping.Leaves.bind _ (onCheckpoints_seed same _) ?_ fun _ _ still => still
  exact fun _ _ still => Keeping.Leaves.pure still

end Operations

end ResidentSet

/-! ## Sets of either kind -/

theorem Plan.segmentBits_of_compute {settings : MemorySettings} {plan : Plan}
    (planned : compute settings = .ok plan) : plan.segmentBits = settings.segmentBits.toNat := by
  have reserved := (withReserve_of_compute planned).2
  rw [withReserve] at reserved
  dsimp only at reserved
  split at reserved
  · contradiction
  · split at reserved
    · contradiction
    · obtain rfl := Except.ok.inj reserved
      rfl

/-- The segment bits that settings ask for; a set that is all in memory has one file. -/
def Settings.segmentBits (settings : Settings) : Nat :=
  match settings.kind with
  | .memory => 0
  | .disk => settings.memory.segmentBits.toNat

namespace OpenSet

variable {set : OpenSet} {first : UInt64 × Nat} {settings : Settings} {seed : UInt64} {dir : Path}
  {name : String} {before after : Volume} {α : Type}

/-- The seed of a set and its segment bits, which never change. -/
def origin (set : OpenSet) : UInt64 × Nat :=
  (set.seed, set.segmentBits)

theorem byKind_origin {onBounded : Keeping BoundedSet α} {onResident : Keeping ResidentSet α}
    (bounds : ∀ set : BoundedSet, set.origin = first →
      Keeping.Leaves onBounded set fun _ last => last.origin = first)
    (resides : ∀ set : ResidentSet,
      Keeping.Leaves onResident set fun _ last => last.seed = set.seed)
    (same : set.origin = first) :
    Keeping.Leaves (byKind onBounded onResident) set fun _ last => last.origin = first := by
  intro before
  cases set with
  | bounded set =>
      rw [byKind_bounded_apply]
      exact bounds set same before
  | resident set =>
      rw [byKind_resident_apply]
      exact (congrArg (·, 0) (resides set before)).trans same

theorem openAt_origin (opens : Opens settings name)
    (opened : openAt settings seed dir name before = (.ok set, after)) :
    set.origin = (seed, settings.segmentBits) := by
  cases kind : settings.kind with
  | memory =>
      rw [openAt_memory kind] at opened
      rw [Settings.segmentBits, kind]
      rcases result : ResidentSet.openAt settings seed dir name before with ⟨error | set, after⟩ <;>
        rw [result] at opened
      · cases (Prod.mk.inj opened).1
      · obtain rfl := Except.ok.inj (Prod.mk.inj opened).1
        exact congrArg (·, 0) (ResidentSet.openAt_seed result)
  | disk =>
      rw [openAt_disk kind] at opened
      rw [Settings.segmentBits, kind]
      rw [Opens, kind] at opens
      obtain ⟨plan, opens⟩ := opens
      rcases result : BoundedSet.openAt settings seed dir name before with ⟨error | set, after⟩ <;>
        rw [result] at opened
      · cases (Prod.mk.inj opened).1
      · obtain rfl := Except.ok.inj (Prod.mk.inj opened).1
        exact (BoundedSet.openAt_origin opens result).trans
          (congrArg (seed, ·) (Plan.segmentBits_of_compute opens.planned))

namespace Session

theorem perform_origin {session : Session} (same : session.set.origin = first) (command : Command)
    (before : Volume) : (session.perform command before).1.set.origin = first := by
  cases command with
  | put fp =>
      exact byKind_origin (fun _ same => BoundedSet.put_origin same fp) (fun _ _ => rfl) same before
  | contains fp =>
      exact byKind_origin (fun _ same => BoundedSet.contains_origin same fp) (fun _ _ => rfl) same before
  | size => exact same
  | beginCheckpoint =>
      exact byKind_origin (fun _ same => BoundedSet.beginCheckpoint_origin same)
        (fun _ => ResidentSet.beginCheckpoint_seed rfl) same before
  | commitCheckpoint =>
      have kept : (OpenSet.commitCheckpoint session.set before).1.2.origin = first :=
        byKind_origin (fun _ same => BoundedSet.commitCheckpoint_origin same)
          (fun _ => ResidentSet.commitCheckpoint_seed rfl) same before
      rw [perform_commit]
      split
      · exact kept
      · exact kept
  | leastDistance =>
      exact byKind_origin (fun _ same => BoundedSet.leastDistance_origin same)
        (fun _ => .getThen (.ofExcept rfl)) same before

theorem run_origin {session : Session} (same : session.set.origin = first) (commands : List Command)
    (before : Volume) : (run commands session before).1.set.origin = first := by
  induction commands generalizing session before with
  | nil => exact same
  | cons command commands ih => exact ih (perform_origin same command before) _

end Session

end OpenSet

end FingerprintSet
