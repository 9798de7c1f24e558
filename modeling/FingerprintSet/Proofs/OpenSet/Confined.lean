import FingerprintSet.Proofs.BoundedSet.Confined
import FingerprintSet.Proofs.BoundedSet.Working

/-!
# Sets keep to their directories

Whatever is asked of a set of either kind, it keeps to a region for its name, and so do opening it
and giving it up.
-/

namespace FingerprintSet

open Storage Volume Storage.Region Checkpoint

variable {region : Region} {dir : Path} {name : String} {α : Type} {good : α → Prop}

/-! ## Resident sets -/

/-- Resident sets for a name in a directory. -/
def Storage.Region.residentSets (dir : Path) (name : String) : Custody ResidentSet :=
  .always fun set => set.checkpoints.Serves dir name

namespace ResidentSet

theorem onCheckpoints_confined {work : Keeping CheckpointKeeper α}
    (confines : region.ConfinesKeeping (.always (CheckpointKeeper.Serves dir name)) work good) :
    region.ConfinesKeeping (residentSets dir name) (onCheckpoints work) good :=
  confines.onPart (fun _ _ serves => serves) fun _ _ _ _ serves => serves

theorem put_confined (fp : Fingerprint) :
    region.ConfinesKeeping (residentSets dir name) (put fp) fun _ => True :=
  .modifyGet (fun _ _ serves => serves) fun _ => trivial

theorem beginCheckpoint_confined (serves : region.Serves dir name) :
    region.ConfinesKeeping (residentSets dir name) beginCheckpoint fun _ => True := by
  refine .getThen fun set _ _ => ?_
  refine (onCheckpoints_confined (CheckpointKeeper.beginStaging_confined serves _ 0)).bind
    fun staging inside => ?_
  have creates := Staging.segmentWriter_confined inside 0
  refine (ConfinesKeeping.lift creates).bind fun writer created => .getThen fun _ _ _ => ?_
  refine (ConfinesKeeping.lift (SortedFile.Writer.pushAll_confined created _)).bind fun _ own => ?_
  refine (ConfinesKeeping.lift (SortedFile.Writer.finish_confined own)).bind fun written _ => ?_
  have recorded : (staging.record 0 written).In region := inside
  exact (onCheckpoints_confined (CheckpointKeeper.stage_confined recorded)).bind
    fun _ _ => .pure trivial

theorem commitCheckpoint_confined (serves : region.Serves dir name) :
    region.ConfinesKeeping (residentSets dir name) commitCheckpoint fun _ => True :=
  (onCheckpoints_confined (CheckpointKeeper.commit_confined serves)).bind fun _ _ => .pure trivial

theorem openAt_confined (serves : region.Serves dir name) (settings : Settings) (seed : UInt64) :
    region.ConfinesMaking (openAt settings seed dir name) (residentSets dir name) := by
  refine (CheckpointKeeper.openAt_confined serves _).bindMaking fun keeper keeps => ?_
  refine (CheckpointKeeper.recover_confined serves keeps).bindMaking fun recovered writes => ?_
  cases recovered with
  | none => exact .pure fun _ => keeps
  | some checkpoint =>
      have restores : region.ConfinesKeeping (residentSets dir name)
          (checkpoint.restore put size) fun _ => True :=
        restore_confined put_confined size (writes checkpoint rfl)
      exact restores.build fun _ => keeps

end ResidentSet

/-! ## Sets of either kind -/

/-- Sets for a name in a directory. -/
def Storage.Region.sets (region : Region) (dir : Path) (name : String) : Custody OpenSet where
  holds files
    | .bounded set => (Custody.some (region.boundedSets dir name)).holds files set
    | .resident set => (residentSets dir name).holds files set
  grows {_ _ set} more here :=
    match set, here with
    | .bounded _, here => (Custody.some (region.boundedSets dir name)).grows more here
    | .resident _, here => (residentSets dir name).grows more here

namespace OpenSet

theorem byKind_confined {onBounded : Keeping BoundedSet α} {onResident : Keeping ResidentSet α}
    (bounds : ∀ count, region.ConfinesKeeping (region.boundedSets dir name count) onBounded good)
    (resides : region.ConfinesKeeping (residentSets dir name) onResident good) :
    region.ConfinesKeeping (region.sets dir name) (byKind onBounded onResident) good := by
  intro set first second alike here
  cases set with
  | bounded set =>
      have agree := ConfinesKeeping.some bounds set first second alike here
      rw [byKind_bounded_apply, byKind_bounded_apply]
      exact ⟨congrArg (fun result => (result.1, OpenSet.bounded result.2)) agree.same, agree.alike,
        agree.keeps, agree.holds⟩
  | resident set =>
      have agree := resides set first second alike here
      rw [byKind_resident_apply, byKind_resident_apply]
      exact ⟨congrArg (fun result => (result.1, OpenSet.resident result.2)) agree.same, agree.alike,
        agree.keeps, agree.holds⟩

theorem put_confined (fp : Fingerprint) :
    region.ConfinesKeeping (region.sets dir name) (put fp) fun _ => True :=
  byKind_confined (fun _ => BoundedSet.put_confined fp) (ResidentSet.put_confined fp)

theorem contains_confined (fp : Fingerprint) :
    region.ConfinesKeeping (region.sets dir name) (contains fp) fun _ => True :=
  byKind_confined (fun _ => BoundedSet.contains_confined fp) (.getThen fun _ _ _ => .pure trivial)

theorem beginCheckpoint_confined (serves : region.Serves dir name) :
    region.ConfinesKeeping (region.sets dir name) beginCheckpoint fun _ => True :=
  byKind_confined (fun _ => BoundedSet.beginCheckpoint_confined serves)
    (ResidentSet.beginCheckpoint_confined serves)

theorem commitCheckpoint_confined (serves : region.Serves dir name) :
    region.ConfinesKeeping (region.sets dir name) commitCheckpoint fun _ => True :=
  byKind_confined (fun _ => BoundedSet.commitCheckpoint_confined serves)
    (ResidentSet.commitCheckpoint_confined serves)

theorem leastDistance_confined :
    region.ConfinesKeeping (region.sets dir name) leastDistance fun _ => True :=
  byKind_confined (fun _ => BoundedSet.leastDistance_confined)
    (.getThen fun _ _ _ => .ofExcept fun _ _ => trivial)

/-- Do what a command asks for and answer it. -/
def ask : Command → Keeping OpenSet BoundedSet.Reply
  | .put fp => do return .known (← put fp)
  | .contains fp => do return .known (← contains fp)
  | .size => do return .counted (← get).size
  | .beginCheckpoint => do
      beginCheckpoint
      return .done
  | .commitCheckpoint => do
      commitCheckpoint
      return .done
  | .leastDistance => do return .distance (← leastDistance)

theorem ask_confined (serves : region.Serves dir name) (command : Command) :
    region.ConfinesKeeping (region.sets dir name) (ask command) fun _ => True := by
  cases command with
  | put fp => exact (put_confined fp).bind fun _ _ => .pure trivial
  | contains fp => exact (contains_confined fp).bind fun _ _ => .pure trivial
  | size => exact .getThen fun _ _ _ => .pure trivial
  | beginCheckpoint => exact (beginCheckpoint_confined serves).bind fun _ _ => .pure trivial
  | commitCheckpoint => exact (commitCheckpoint_confined serves).bind fun _ _ => .pure trivial
  | leastDistance => exact leastDistance_confined.bind fun _ _ => .pure trivial

theorem openAt_confined (serves : region.Serves dir name) (settings : Settings) (seed : UInt64) :
    region.ConfinesMaking (openAt settings seed dir name) (region.sets dir name) := by
  rw [openAt]
  split
  · exact (ResidentSet.openAt_confined serves settings seed).map fun _ _ here => here
  · exact (BoundedSet.openAt_confined serves settings seed).map fun _ _ here => here

theorem close_confined {set : OpenSet} {files : Nat} (here : (region.sets dir name).holds files set) :
    region.ConfinesTask set.close fun _ => True := by
  cases set with
  | bounded set =>
      obtain ⟨count, inside⟩ := here
      exact BoundedSet.close_confined inside
  | resident set => exact .pure trivial

end OpenSet

end FingerprintSet
