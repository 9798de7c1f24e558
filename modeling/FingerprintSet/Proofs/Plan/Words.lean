import FingerprintSet.Proofs.Plan
import FingerprintSet.Proofs.Range

/-!
# Plans in machine words

`Plan` counts with numbers of any size.  Here the same steps are taken with 64-bit words, in the
order in which a machine takes them: a step has no result where the number leaves the words,
goes below zero or is divided by zero.  The largest power of two is found by counting leading
zeros, and the buckets are halved in a loop that looks at one plan after the other.

`Budget` shows that no step is ever without a result.
-/

namespace FingerprintSet

namespace Plan

/-- The plan for a budget, with a reserve that came to the given word. -/
def computeFor (settings : MemorySettings) (reserve : UInt64) : Except Misconfiguration Plan :=
  match settings.validate with
  | .error error => .error (.settings error)
  | .ok () => withReserve settings reserve.toNat

theorem compute_eq_computeFor (settings : MemorySettings) :
    compute settings =
      computeFor settings (roundedUp (settings.budgetBytes.toFloat * settings.reserveRatio)) :=
  rfl

end Plan

namespace Wordwise

/-- The zero bits of a word before its first one. -/
def leadingZeros (n : Nat) : Nat :=
  if n = 0 then 64 else 63 - n.log2

/-- The largest power of two that is not above a number. -/
def powerBelow (n : Nat) : Option Nat := do
  shifted (← minus 63 (leadingZeros n))

theorem powerBelow_eq {n : Nat} (positive : 0 < n) (small : n < UInt64.size) :
    powerBelow n = some (Nat.pow 2 n.log2) := by
  have bits : n.log2 < 64 := (Nat.log2_lt (Nat.ne_of_gt positive)).mpr small
  have zeros : leadingZeros n = 63 - n.log2 := if_neg (Nat.ne_of_gt positive)
  have left : 63 - (63 - n.log2) = n.log2 := by omega
  rw [powerBelow, zeros, minus_eq (Nat.sub_le _ _), left]
  exact shifted_eq bits

/-! ## What a plan tells -/

variable (plan : Plan)

/-- `Plan.segmentCount` in words. -/
def segmentCount : Option Nat :=
  shifted plan.segmentBits

/-- `Plan.segmentCapacity` in words. -/
def segmentCapacity : Option Nat :=
  times plan.bucketsPerSegment plan.bucketEntries

/-- `Plan.capacity` in words. -/
def capacity : Option Nat := do
  times (← segmentCount plan) (← segmentCapacity plan)

/-- `Plan.bucketBytes` in words. -/
def bucketBytes (entries : Nat) : Option Nat := do
  plus (← times entries Plan.fingerprintBytes) Plan.occupancyBytes

/-- `Plan.tableBytes` in words. -/
def tableBytes : Option Nat := do
  let bytes ← bucketBytes plan.bucketEntries
  times (← times (← segmentCount plan) plan.bucketsPerSegment) bytes

/-- `Plan.pendingBytes` in words. -/
def pendingBytes : Option Nat := do
  times (← times (← segmentCount plan) plan.pendingCapacity) Plan.pendingEntryBytes

/-- `Plan.snapshotBytes` in words. -/
def snapshotBytes : Option Nat := do
  times (← plus (← segmentCapacity plan) plan.pendingCapacity) Plan.fingerprintBytes

/-- `Plan.indexEntriesPerSegment` in words. -/
def indexEntriesPerSegment : Option Nat := do
  divided (← divided plan.indexBytes Plan.fingerprintBytes) (← segmentCount plan)

/-- `Plan.staticBytes` in words. -/
def staticBytes : Option Nat := do
  plus (← tableBytes plan) (← pendingBytes plan)

/-! ## How a plan is computed -/

/-- Halve the buckets until the copy of a segment and the smallest indexes fit in the
reserve, or only one bucket is left. -/
def halved (minIndexBytes reserve : Nat) (plan : Plan) : Option Plan := do
  let wanted ← plus (← snapshotBytes plan) minIndexBytes
  if reserve < wanted ∧ 1 < plan.bucketsPerSegment then
    halved minIndexBytes reserve
      { plan with bucketsPerSegment := plan.bucketsPerSegment / 2 }
  else
    return plan
termination_by plan.bucketsPerSegment
decreasing_by
  rename_i more
  exact Nat.div_lt_self (Nat.lt_of_succ_lt more.2) Nat.one_lt_two

/-- The plan with its buckets halved until they fit, and with what the reserve then has left
for indexes. -/
def carved (minIndexBytes reserve : Nat) (widest : Plan) :
    Option (Except Misconfiguration Plan) := do
  let plan ← halved minIndexBytes reserve widest
  if reserve < (← plus (← snapshotBytes plan) minIndexBytes) then
    return .error (.reserveTooSmall reserve minIndexBytes)
  else
    return .ok { plan with indexBytes := ← minus reserve (← snapshotBytes plan) }

/-- `Plan.computeFor` in words. -/
def computeFor (settings : MemorySettings) (reserve : UInt64) :
    Option (Except Misconfiguration Plan) :=
  match settings.validate with
  | .error error => some (.error (.settings error))
  | .ok () => do
      let budget := settings.budgetBytes.toNat
      let entries := settings.bucketEntries.toNat
      let reserve := reserve.toNat
      let segments ← shifted settings.segmentBits.toNat
      -- The subtractions here stop at zero on a machine, too.
      let perSegment ← divided (budget - reserve) segments
      let pending ← divided perSegment Plan.pendingShare
      let fit ← divided (perSegment - pending) (← bucketBytes entries)
      if fit = 0 ∨ pending < Plan.pendingEntryBytes then
        return .error (.budgetTooSmall budget entries segments)
      else
        let widest : Plan :=
          { budgetBytes := budget
            segmentBits := settings.segmentBits.toNat
            bucketEntries := entries
            pendingCapacity := ← divided pending Plan.pendingEntryBytes
            bucketsPerSegment := ← powerBelow fit
            reserveBytes := reserve
            indexBytes := 0 }
        let minIndexBytes ←
          times (← times segments Plan.minIndexEntries) Plan.fingerprintBytes
        carved minIndexBytes reserve widest

end Wordwise

end FingerprintSet
