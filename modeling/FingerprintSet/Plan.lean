import FingerprintSet.Error

/-!
# Memory plans

A plan turns a byte budget into the shape of the table: how many buckets each segment has and
how large its buffer for evicted fingerprints may grow.  A reserve is held back from the budget
first.  It pays for the copy of one segment that a snapshot makes and for the page indexes,
and a segment's buckets are halved until that copy leaves room for the smallest indexes.

The size of the reserve comes from a product of floating-point numbers.  All that follows is
exact, and `Plan.withReserve` states it for any reserve.
-/

namespace FingerprintSet

/-- The shape of a set's table, and what else its memory is for. -/
structure Plan where
  budgetBytes : Nat
  /-- The table has `2 ^ segmentBits` segments. -/
  segmentBits : Nat
  /-- Buckets in each segment, a power of two. -/
  bucketsPerSegment : Nat
  /-- Fingerprints in each bucket. -/
  bucketEntries : Nat
  /-- Evicted fingerprints that a segment gathers before it writes a page. -/
  pendingCapacity : Nat
  /-- Bytes held back for snapshots and page indexes. -/
  reserveBytes : Nat
  /-- The part of the reserve that page indexes may fill. -/
  indexBytes : Nat
  deriving DecidableEq, Repr, Inhabited

namespace Plan

/-- Bytes of a fingerprint. -/
def fingerprintBytes : Nat := 8

/-- Bytes that say how full a bucket is. -/
def occupancyBytes : Nat := 1

/-- Bytes that an entry of the eviction buffer is counted with. -/
def pendingEntryBytes : Nat := 16

/-- The eviction buffer gets one part in this many of a segment's share. -/
def pendingShare : Nat := 8

/-- Index entries that every segment may keep, whatever the budget. -/
def minIndexEntries : Nat := 16

/-- The number of segments. -/
def segmentCount (plan : Plan) : Nat :=
  Nat.pow 2 plan.segmentBits

/-- Fingerprints that the table of one segment holds. -/
def segmentCapacity (plan : Plan) : Nat :=
  plan.bucketsPerSegment * plan.bucketEntries

/-- Fingerprints that the whole table holds. -/
def capacity (plan : Plan) : Nat :=
  plan.segmentCount * plan.segmentCapacity

/-- Bytes of a bucket of the given width. -/
def bucketBytes (entries : Nat) : Nat :=
  entries * fingerprintBytes + occupancyBytes

/-- Bytes of all buckets. -/
def tableBytes (plan : Plan) : Nat :=
  plan.segmentCount * plan.bucketsPerSegment * bucketBytes plan.bucketEntries

/-- Bytes of all eviction buffers. -/
def pendingBytes (plan : Plan) : Nat :=
  plan.segmentCount * plan.pendingCapacity * pendingEntryBytes

/-- Bytes of the copy that a snapshot makes of one segment. -/
def snapshotBytes (plan : Plan) : Nat :=
  (plan.segmentCapacity + plan.pendingCapacity) * fingerprintBytes

/-- Index entries that one segment may keep. -/
def indexEntriesPerSegment (plan : Plan) : Nat :=
  plan.indexBytes / fingerprintBytes / plan.segmentCount

/-- Bytes taken up from the start: buckets and eviction buffers. -/
def staticBytes (plan : Plan) : Nat :=
  plan.tableBytes + plan.pendingBytes

/-- The largest power of two, from `2 ^ exponent` down, that fits; one if none does. -/
def largestFitting (fits : Nat → Bool) : Nat → Nat
  | 0 => 1
  | exponent + 1 =>
      let count := Nat.pow 2 (exponent + 1)
      if fits count then count else largestFitting fits exponent

/-- The plan for settings already accepted, with the given reserve. -/
def withReserve (settings : MemorySettings) (reserve : Nat) : Except Misconfiguration Plan :=
  let budget := settings.budgetBytes.toNat
  let entries := settings.bucketEntries.toNat
  let segments := settings.segmentCount
  let perSegment := (budget - reserve) / segments
  let pending := perSegment / pendingShare
  let fit := (perSegment - pending) / bucketBytes entries
  if fit = 0 ∨ pending < pendingEntryBytes then
    .error (.budgetTooSmall budget entries segments)
  else
    let shape (buckets : Nat) : Plan :=
      { budgetBytes := budget
        segmentBits := settings.segmentBits.toNat
        bucketsPerSegment := buckets
        bucketEntries := entries
        pendingCapacity := pending / pendingEntryBytes
        reserveBytes := reserve
        indexBytes := reserve - ((buckets * entries + pending / pendingEntryBytes)
          * fingerprintBytes) }
    let minIndexBytes := segments * minIndexEntries * fingerprintBytes
    let fits (buckets : Nat) : Bool :=
      (shape buckets).snapshotBytes + minIndexBytes ≤ reserve
    let plan := shape (largestFitting fits fit.log2)
    if reserve < plan.snapshotBytes + minIndexBytes then
      .error (.reserveTooSmall reserve minIndexBytes)
    else
      .ok plan

/-- The least word that is not below a number; the greatest word if there is none, and zero for
what is no number. -/
def roundedUp (x : Float) : UInt64 :=
  let whole := x.toUInt64
  if whole.toFloat < x ∧ whole ≠ 0xffffffffffffffff then whole + 1 else whole

/-- The bytes held back from a budget: its share, rounded up. -/
def reserveFor (settings : MemorySettings) : Nat :=
  (roundedUp (settings.budgetBytes.toFloat * settings.reserveRatio)).toNat

/-- The plan for a budget.  It depends on nothing but the settings. -/
def compute (settings : MemorySettings) : Except Misconfiguration Plan :=
  match settings.validate with
  | .error error => .error (.settings error)
  | .ok () => withReserve settings (reserveFor settings)

end Plan

end FingerprintSet
