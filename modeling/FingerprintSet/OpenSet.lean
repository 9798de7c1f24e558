import FingerprintSet.BoundedSet
import FingerprintSet.ResidentSet
import FingerprintSet.Settings.Loader

/-!
# Fingerprint sets

What the two kinds of set have in common.  Both answer whether a fingerprint was seen before
and outlast a restart through checkpoints; which of the two a set is shows in its statistics
only.
-/

namespace FingerprintSet

open Storage

/-- An open fingerprint set of either kind. -/
inductive OpenSet
  | bounded (set : BoundedSet)
  | resident (set : ResidentSet)
  deriving Inhabited

namespace OpenSet

/-- Work on a set, by its kind. -/
def byKind {α : Type} (onBounded : Keeping BoundedSet α) (onResident : Keeping ResidentSet α) :
    Keeping OpenSet α :=
  ExceptT.mk fun set =>
    match set with
    | bounded set => do
        let (result, set) ← onBounded set
        pure (result, bounded set)
    | resident set => do
        let (result, set) ← onResident set
        pure (result, resident set)

/-- Open the kind of set that the settings ask for, and restore its last checkpoint. -/
def openAt (settings : Settings) (seed : UInt64) (directory : Path) (name : String) :
    Task OpenSet :=
  match settings.kind with
  | .memory => resident <$> ResidentSet.openAt settings seed directory name
  | .disk => bounded <$> BoundedSet.openAt settings seed directory name

/-- Open a set with settings that a loader brings. -/
def openWith (loader : Loader) (machine : Machine) (seed : UInt64) (directory : Path)
    (name : String) : Task OpenSet := do
  let settings ← ExceptT.adapt Error.settings (loader.load machine)
  openAt settings seed directory name

/-- Take in a fingerprint and say whether it was there. -/
def put (fp : Fingerprint) : Keeping OpenSet Bool :=
  byKind (BoundedSet.put fp) (ResidentSet.put fp)

/-- Whether the set holds a fingerprint. -/
def contains (fp : Fingerprint) : Keeping OpenSet Bool :=
  byKind (BoundedSet.contains fp) (do return (← get).contains fp)

/-- The number of fingerprints held. -/
def size : OpenSet → Nat
  | bounded set => set.size
  | resident set => set.size

/-- Write the contents of the set as a checkpoint to be committed. -/
def beginCheckpoint : Keeping OpenSet Unit :=
  byKind BoundedSet.beginCheckpoint ResidentSet.beginCheckpoint

/-- Publish the checkpoint that was written last, and remove older ones. -/
def commitCheckpoint : Keeping OpenSet Unit :=
  byKind BoundedSet.commitCheckpoint ResidentSet.commitCheckpoint

/-- The least distance between two fingerprints of the set; the greatest word if it holds
fewer than two. -/
def leastDistance : Keeping OpenSet UInt64 :=
  byKind BoundedSet.leastDistance (do Keeping.ofExcept (← get).leastDistance)

/-- The fullest that any bucket ever was, if the set has buckets. -/
def maxOccupancy? : OpenSet → Option Nat
  | bounded set => some set.maxOccupancy
  | resident _ => none

/-- The counts of the set, if it keeps any. -/
def stats? : OpenSet → Option SetStats
  | bounded set => some set.stats
  | resident _ => none

/-- Give the set up.  Committed checkpoints stay. -/
def close : OpenSet → Task Unit
  | bounded set => set.close
  | resident _ => pure ()

end OpenSet

end FingerprintSet
