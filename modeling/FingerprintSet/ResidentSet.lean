import Std.Data.TreeSet
import FingerprintSet.Checkpoint.Keeper
import FingerprintSet.Checkpoint.Restore
import FingerprintSet.Distance

/-!
# Resident sets

A fingerprint set that keeps everything in memory.  It never evicts, so it suits runs that are
known to fit.  Its checkpoints are those of any set, with one segment file.
-/

namespace FingerprintSet

open Storage

/-- A fingerprint set in memory. -/
structure ResidentSet where
  seed : UInt64
  held : Std.TreeSet Fingerprint
  checkpoints : CheckpointKeeper
  deriving Inhabited

namespace ResidentSet

/-- Work around the keeper of the checkpoints. -/
def onCheckpoints {α : Type} (work : Keeping CheckpointKeeper α) : Keeping ResidentSet α :=
  Keeping.onPart (·.checkpoints) (fun checkpoints set => { set with checkpoints }) work

/-- Take in a fingerprint and say whether it was there. -/
def put (fp : Fingerprint) : Keeping ResidentSet Bool :=
  modifyGet fun set => (set.held.contains fp, { set with held := set.held.insert fp })

/-- Whether the set holds a fingerprint. -/
def contains (set : ResidentSet) (fp : Fingerprint) : Bool :=
  set.held.contains fp

/-- The number of fingerprints held. -/
def size (set : ResidentSet) : Nat :=
  set.held.size

/-- Write the contents of the set as a checkpoint to be committed. -/
def beginCheckpoint : Keeping ResidentSet Unit := do
  let seed := (← get).seed
  let staging ← onCheckpoints (CheckpointKeeper.beginStaging seed 0)
  let writer ← (staging.segmentWriter 0 : Task SortedFile.Writer)
  let fps := (← get).held.toList
  let writer ← (writer.pushAll fps : Task SortedFile.Writer)
  let written ← (writer.finish : Task SortedFile.Written)
  let _ ← onCheckpoints (CheckpointKeeper.stage (staging.record 0 written))

/-- Publish the checkpoint that was written last. -/
def commitCheckpoint : Keeping ResidentSet Unit := do
  let _ ← onCheckpoints CheckpointKeeper.commit

/-- The least distance between two fingerprints of the set. -/
def leastDistance (set : ResidentSet) : Except Error UInt64 := do
  let distance ← set.held.toList.foldlM LeastDistance.observe {}
  return distance.result

/-- Open a set under a name in a directory and restore its last checkpoint. -/
def openAt (settings : Settings) (seed : UInt64) (directory : Path) (name : String) :
    Task ResidentSet := do
  let checkpoints ← CheckpointKeeper.openAt directory name settings.storage.syncWrites
  let recovered ← checkpoints.recover
  let set : ResidentSet := { seed, held := ∅, checkpoints }
  match recovered with
  | none => pure set
  | some checkpoint => Keeping.build set (checkpoint.restore put size)

end ResidentSet

end FingerprintSet
