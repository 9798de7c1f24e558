import FingerprintSet.Checkpoint.Keeper
import FingerprintSet.Checkpoint.Restore
import FingerprintSet.Distance
import FingerprintSet.Router
import FingerprintSet.Segment.Snapshot
import FingerprintSet.Statistics

/-!
# Bounded sets

A fingerprint set whose memory stays within a budget.  Its segments share the fingerprint space
by the high bits, and what does not fit in memory goes to pages in an overflow directory.  Only
committed checkpoints outlast the set: pages that an earlier set left behind are cleared away
before anything else.
-/

namespace FingerprintSet

open Storage

/-- A fingerprint set within a memory budget. -/
structure BoundedSet where
  plan : Plan
  router : Router
  segments : Array Segment
  checkpoints : CheckpointKeeper
  /-- The directory of all pages. -/
  overflow : Path
  deriving Inhabited

namespace BoundedSet

/-- The seed the set was opened with. -/
def seed (set : BoundedSet) : UInt64 :=
  set.router.seed

/-- The set with a segment in its place. -/
def putSegment (index : Nat) (segment : Segment) : BoundedSet → BoundedSet
  | { plan, router, segments, checkpoints, overflow } =>
      { segments := segments.setIfInBounds index segment
        plan, router, checkpoints, overflow }

/-- Work around one segment. -/
def onSegment {α : Type} (index : Nat) (work : Keeping Segment α) : Keeping BoundedSet α :=
  Keeping.onPart (fun set => set.segments.getD index default) (putSegment index) work

/-- Work around the keeper of the checkpoints. -/
def onCheckpoints {α : Type} (work : Keeping CheckpointKeeper α) : Keeping BoundedSet α :=
  Keeping.onPart (·.checkpoints) (fun checkpoints set => { set with checkpoints }) work

/-- Take in a fingerprint and say whether it was there. -/
def put (fp : Fingerprint) : Keeping BoundedSet Bool := do
  let router := (← get).router
  onSegment (router.segment fp) (Segment.put (router.bucket fp) fp)

/-- Whether the set holds a fingerprint. -/
def contains (fp : Fingerprint) : Keeping BoundedSet Bool := do
  let router := (← get).router
  onSegment (router.segment fp) (Segment.contains (router.bucket fp) fp)

/-- The number of fingerprints held. -/
def size (set : BoundedSet) : Nat :=
  total (·.size) set.segments.toList

/-- Write one segment into a checkpoint.  Its pages are merged into one first. -/
def stageSegment (staging : Staging) (index : Nat) : Keeping BoundedSet Staging := do
  onSegment index Segment.compact
  let writer ← (staging.segmentWriter index : Task SortedFile.Writer)
  let writer ← onSegment index
    (Segment.scan SortedFile.Writer.push SortedFile.Writer.abandon writer)
  let written ← (writer.finish : Task SortedFile.Written)
  pure (staging.record index written)

/-- Write the contents of the set as a checkpoint to be committed. -/
def beginCheckpoint : Keeping BoundedSet Unit := do
  let set ← get
  let seed := set.seed
  let bits := set.plan.segmentBits
  let count := set.segments.size
  let staging ← onCheckpoints (CheckpointKeeper.beginStaging seed bits)
  let staging ← (List.range count).foldlM stageSegment staging
  let _ ← onCheckpoints (CheckpointKeeper.stage staging)

/-- Publish the checkpoint that was written last. -/
def commitCheckpoint : Keeping BoundedSet Unit := do
  let _ ← onCheckpoints CheckpointKeeper.commit

/-- Take the fingerprints of one segment into a least distance. -/
def observeSegment (distance : LeastDistance) (index : Nat) :
    Keeping BoundedSet LeastDistance :=
  onSegment index (Segment.scan (fun state fp => Task.ofExcept (state.observe fp))
    (fun _ => pure ()) distance)

/-- The least distance between two fingerprints of the set. -/
def leastDistance : Keeping BoundedSet UInt64 := do
  let count := (← get).segments.size
  let distance ← (List.range count).foldlM observeSegment {}
  pure distance.result

/-- The fullest that any bucket ever was. -/
def maxOccupancy (set : BoundedSet) : Nat :=
  (set.segments.toList.map fun segment => segment.stats.maxOccupancy).foldl max 0

/-- The counts of the set. -/
def stats (set : BoundedSet) : SetStats :=
  .ofSegments set.segments.toList

/-- The directory of the pages of a set with the given name. -/
def overflowDirectory (directory : Path) (name : String) : Path :=
  directory.child s!"{name}.overflow"

/-- Create the segments from an index on. -/
def createSegments (plan : Plan) (storage : StorageSettings) (overflow : Path) :
    Task (Array Segment) :=
  (List.range plan.segmentCount).foldlM (fun segments index => do
    return segments.push (← Segment.create index plan storage overflow)) #[]

/-- Open a set under a name in a directory and restore its last checkpoint. -/
def openAt (settings : Settings) (seed : UInt64) (directory : Path) (name : String) :
    Task BoundedSet := do
  Task.ofExcept (settings.storage.validate.mapError fun error =>
    .invalidConfiguration (.settings error))
  let plan ← Task.ofExcept ((Plan.compute settings.memory).mapError .invalidConfiguration)
  let checkpoints ← CheckpointKeeper.openAt directory name settings.storage.syncWrites
  let overflow := overflowDirectory directory name
  CheckpointKeeper.clearDirectory .clearing overflow
  (Activity.creating overflow).run (makeDirectories overflow)
  let segments ← createSegments plan settings.storage overflow
  let recovered ← checkpoints.recover
  let router : Router :=
    { seed, segmentBits := plan.segmentBits, buckets := plan.bucketsPerSegment }
  let set : BoundedSet := { plan, router, segments, checkpoints, overflow }
  match recovered with
  | none => pure set
  | some checkpoint => Keeping.build set (checkpoint.restore put size)

/-- Give the set up and remove its pages. -/
def close (set : BoundedSet) : Task Unit :=
  (Activity.removing set.overflow).run (removeTree set.overflow)

end BoundedSet

end FingerprintSet
