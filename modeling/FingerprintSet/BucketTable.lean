import FingerprintSet.Word

/-!
# Bucket tables

The table of one segment: buckets of a fixed width, laid out one after the other in one array
of slots, with a byte for each bucket that says how full it is.  A bucket keeps its
fingerprints in the order in which they came.  A full bucket gives up its older half before it
takes in another one, so the table never grows.
-/

namespace FingerprintSet

/-- Buckets of a fixed width in one array of slots. -/
structure BucketTable where
  slots : Array Fingerprint
  /-- How full each bucket is. -/
  occupancy : Array UInt8
  /-- The width of a bucket. -/
  bucketEntries : Nat
  /-- Fingerprints in all buckets. -/
  size : Nat
  /-- The fullest that any bucket ever was. -/
  maxOccupancy : UInt8
  deriving DecidableEq, Repr

namespace BucketTable

/-- Empty buckets. -/
def empty (buckets bucketEntries : Nat) : BucketTable where
  slots := Array.replicate (buckets * bucketEntries) 0
  occupancy := Array.replicate buckets 0
  bucketEntries := bucketEntries
  size := 0
  maxOccupancy := 0

instance : Inhabited BucketTable := ⟨empty 0 0⟩

/-- How full a bucket is. -/
def occupied (table : BucketTable) (bucket : Nat) : Nat :=
  (table.occupancy.getD bucket 0).toNat

/-- The first slot of a bucket. -/
def firstSlot (table : BucketTable) (bucket : Nat) : Nat :=
  bucket * table.bucketEntries

/-- The fingerprint in a slot. -/
def slot (table : BucketTable) (position : Nat) : Fingerprint :=
  table.slots.getD position 0

/-- The contents of a bucket, oldest first. -/
def bucket (table : BucketTable) (bucket : Nat) : List Fingerprint :=
  (List.range (table.occupied bucket)).map fun i => table.slot (table.firstSlot bucket + i)

/-- Whether a bucket holds a fingerprint. -/
def contains (table : BucketTable) (bucket : Nat) (fp : Fingerprint) : Bool :=
  (table.bucket bucket).contains fp

/-- Move `count` fingerprints down by `distance` slots, to the slots from `start` on. -/
def moveDown (slots : Array Fingerprint) (start distance : Nat) : Nat → Array Fingerprint
  | 0 => slots
  | count + 1 =>
      let slots := moveDown slots start distance count
      let moved := slots.getD (start + distance + count) 0
      slots.setIfInBounds (start + count) moved

/-- How many fingerprints a bucket gives up when one more comes: none, or the older half when
it is full. -/
def surplus (table : BucketTable) (bucket : Nat) : Nat :=
  if table.occupied bucket = table.bucketEntries then (table.bucketEntries + 1) / 2 else 0

/-- The fingerprints a bucket gives up when one more comes, oldest first. -/
def evicted (table : BucketTable) (bucket : Nat) : List Fingerprint :=
  (table.bucket bucket).take (table.surplus bucket)

/-- Take a fingerprint into a bucket, which gives up its older half first if it is full.  The
table is taken apart before its arrays change, so that they change in place. -/
def insert (table : BucketTable) (bucket : Nat) (fp : Fingerprint) : BucketTable :=
  let start := table.firstSlot bucket
  let gone := table.surplus bucket
  let kept := table.occupied bucket - gone
  let filled := (kept + 1).toUInt8
  match table with
  | { slots, occupancy, bucketEntries, size, maxOccupancy } =>
      { slots :=
          (if gone = 0 then slots else moveDown slots start gone kept).setIfInBounds
            (start + kept) fp
        occupancy := occupancy.setIfInBounds bucket filled
        bucketEntries
        size := size - gone + 1
        maxOccupancy := max maxOccupancy filled }

/-- All fingerprints, bucket by bucket. -/
def toList (table : BucketTable) : List Fingerprint :=
  (List.range table.occupancy.size).flatMap table.bucket

end BucketTable

end FingerprintSet
