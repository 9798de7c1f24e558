import FingerprintSet.Segment.Basic
import FingerprintSet.Total

/-!
# Statistics

Where the fingerprints of a set are and what the set has done so far: the counts of its
segments added up, and the chance that two states share a fingerprint.
-/

namespace FingerprintSet

/-- The chance, by the birthday bound `n (n - 1) / 2 ^ 65`, that any two of `n` states share
a fingerprint. -/
def collisionProbability (n : Nat) : Float :=
  let n := (UInt64.ofNat n).toFloat
  n * (n - 1.0) / Float.scaleB 1.0 65

/-- Counts of a whole set. -/
structure SetStats where
  size : Nat
  inMemory : Nat
  pending : Nat
  onDisk : Nat
  pages : Nat
  evictions : Nat
  compactions : Nat
  indexBytes : Nat
  openPages : Nat
  maxOccupancy : Nat
  collisionChance : Float
  deriving Inhabited

namespace SegmentStats

/-- The counts of nothing. -/
def zero : SegmentStats where
  inMemory := 0
  pending := 0
  onDisk := 0
  pages := 0
  evictions := 0
  compactions := 0
  indexBytes := 0
  openPages := 0
  maxOccupancy := 0

/-- The counts of two parts together. -/
def add (first second : SegmentStats) : SegmentStats where
  inMemory := first.inMemory + second.inMemory
  pending := first.pending + second.pending
  onDisk := first.onDisk + second.onDisk
  pages := first.pages + second.pages
  evictions := first.evictions + second.evictions
  compactions := first.compactions + second.compactions
  indexBytes := first.indexBytes + second.indexBytes
  openPages := first.openPages + second.openPages
  maxOccupancy := max first.maxOccupancy second.maxOccupancy

end SegmentStats

/-- The counts of a set from those of its segments. -/
def SetStats.ofSegments (segments : List Segment) : SetStats :=
  let parts := (segments.map Segment.stats).foldl SegmentStats.add .zero
  let size := total (·.size) segments
  { size
    inMemory := parts.inMemory
    pending := parts.pending
    onDisk := parts.onDisk
    pages := parts.pages
    evictions := parts.evictions
    compactions := parts.compactions
    indexBytes := parts.indexBytes
    openPages := parts.openPages
    maxOccupancy := parts.maxOccupancy
    collisionChance := collisionProbability size }

end FingerprintSet
