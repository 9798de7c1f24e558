import FingerprintSet.Proofs.Plan.Budget
import Mathlib.Data.Rat.Floor
import Mathlib.Tactic.Linarith
import Mathlib.Tactic.NormNum
import Mathlib.Tactic.Positivity
import Mathlib.Tactic.Ring

/-!
# Plans for growing budgets

A larger budget has a larger reserve and leaves more beside it, but the table can be smaller: the
eviction buffer grows by one entry as soon as what is left reaches the next step, the copy of a
segment grows with it, and a reserve that is still the same may have no room for that copy.  Then
the buckets are halved.

Here the budget is all that changes, and the reserve is the same share of it, rounded up.  The
table shrinks only if the new reserve has no room for the former buckets beside the new buffer.
It never shrinks to less than a half, and not at all if the smaller plan had one fingerprint's
bytes to spare.
-/

namespace FingerprintSet

namespace Plan

/-! ## The eviction buffer and the reserve -/

/-- An eviction buffer has an entry for every 128 bytes that each segment is left with. -/
theorem Budgeted.pendingCapacity_eq {plan : Plan} (budgeted : plan.Budgeted) :
    plan.pendingCapacity =
      (plan.budgetBytes - plan.reserveBytes) / (plan.segmentCount * 128) := by
  rw [budgeted.buffer, share, Nat.div_div_eq_div_mul, Nat.div_div_eq_div_mul]
  rfl

/-- Whoever has a larger share has room for as many buckets. -/
theorem FitsShare.mono {small large : Plan} (entries : small.bucketEntries = large.bucketEntries)
    (more : small.share ≤ large.share) {buckets : Nat} (fits : small.FitsShare buckets) :
    large.FitsShare buckets := by
  rw [FitsShare] at fits ⊢
  rw [← entries]
  simp only [pendingShare] at fits ⊢
  omega

/-- Fewer buckets fit where more do. -/
theorem FitsReserve.anti {plan : Plan} {fewer buckets : Nat} (less : fewer ≤ buckets)
    (fits : plan.FitsReserve buckets) : plan.FitsReserve fewer :=
  Nat.le_trans (Nat.add_le_add_right (Nat.mul_le_mul_right _ (Nat.add_le_add_right
    (Nat.mul_le_mul_right _ less) _)) _) fits

/-- The reserve is the given share of the budget, rounded up to whole bytes. -/
def Reserves (share : ℚ) (plan : Plan) : Prop :=
  (plan.reserveBytes : ℤ) = ⌈(plan.budgetBytes : ℚ) * share⌉

namespace Reserves

variable {share : ℚ} {plan : Plan} (reserves : plan.Reserves share)
include reserves

theorem le : (plan.budgetBytes : ℚ) * share ≤ plan.reserveBytes := by
  have up := Int.le_ceil ((plan.budgetBytes : ℚ) * share)
  rw [← reserves] at up
  exact_mod_cast up

theorem lt : (plan.reserveBytes : ℚ) < plan.budgetBytes * share + 1 := by
  have up := Int.ceil_lt_add_one ((plan.budgetBytes : ℚ) * share)
  rw [← reserves] at up
  exact_mod_cast up

end Reserves

/-! ## Two budgets -/

/-- Two plans that differ in their budgets alone, with the same share held back from both. -/
structure Grows (share : ℚ) (small large : Plan) : Prop where
  segments : small.segmentCount = large.segmentCount
  entries : small.bucketEntries = large.bucketEntries
  budget : small.budgetBytes ≤ large.budgetBytes
  before : small.Budgeted
  after : large.Budgeted
  reservesBefore : small.Reserves share
  reservesAfter : large.Reserves share

namespace Grows

variable {share : ℚ} {small large : Plan} (grows : Grows share small large)
include grows

theorem share_pos : 0 < share := by
  have held : (0 : ℚ) < small.reserveBytes := by
    have fits := grows.before.fitsReserve
    have segments := small.segmentCount_pos
    rw [FitsReserve] at fits
    simp only [minIndexEntries, fingerprintBytes] at fits
    exact_mod_cast (show 0 < small.reserveBytes by omega)
  by_contra none
  have up : ⌈(small.budgetBytes : ℚ) * share⌉ ≤ 0 :=
    Int.ceil_le.mpr (by
      rw [Int.cast_zero]
      exact mul_nonpos_of_nonneg_of_nonpos (Nat.cast_nonneg _) (not_lt.mp none))
  rw [← grows.reservesBefore] at up
  exact absurd held (not_lt.mpr (by exact_mod_cast up))

theorem share_lt_one : share < 1 := by
  have left : (small.reserveBytes : ℚ) < small.budgetBytes := by
    have buffered := grows.before.buffered
    rw [grows.before.pendingCapacity_eq] at buffered
    have some := (Nat.div_pos_iff.mp buffered).2
    have segments := small.segmentCount_pos
    exact_mod_cast (show small.reserveBytes < small.budgetBytes by omega)
  have budget : (0 : ℚ) < small.budgetBytes := lt_of_le_of_lt (Nat.cast_nonneg _) left
  have product : (small.budgetBytes : ℚ) * share < small.budgetBytes * 1 := by
    rw [mul_one]
    exact lt_of_le_of_lt grows.reservesBefore.le left
  exact lt_of_mul_lt_mul_left product (le_of_lt budget)

theorem cast_budget_le : (small.budgetBytes : ℚ) ≤ large.budgetBytes :=
  Nat.cast_le.mpr grows.budget

theorem reserve_le : small.reserveBytes ≤ large.reserveBytes := by
  have products : (small.budgetBytes : ℚ) * share ≤ large.budgetBytes * share :=
    mul_le_mul_of_nonneg_right grows.cast_budget_le (le_of_lt grows.share_pos)
  have up := Int.ceil_mono products
  rw [← grows.reservesBefore, ← grows.reservesAfter] at up
  exact_mod_cast up

/-- The larger budget leaves no less beside its reserve. -/
theorem left_le :
    small.budgetBytes - small.reserveBytes ≤ large.budgetBytes - large.reserveBytes := by
  have wider : (large.budgetBytes : ℚ) * share - small.budgetBytes * share ≤
      large.budgetBytes - small.budgetBytes := by
    rw [← sub_mul]
    exact mul_le_of_le_one_right (sub_nonneg.mpr grows.cast_budget_le)
      (le_of_lt grows.share_lt_one)
  have before := grows.reservesBefore.le
  have after := grows.reservesAfter.lt
  have less : (large.reserveBytes : ℚ) + small.budgetBytes <
      (large.budgetBytes + small.reserveBytes + 1 : ℕ) := by
    push_cast
    linarith
  have sums : large.reserveBytes + small.budgetBytes <
      large.budgetBytes + small.reserveBytes + 1 := by
    exact_mod_cast less
  have within := grows.before.reserve_le
  omega

theorem share_le : small.share ≤ large.share := by
  rw [Plan.share, Plan.share, grows.segments]
  exact Nat.div_le_div_right grows.left_le

/-- The former buckets fit in a segment's share as they did before. -/
theorem fitsShare : large.FitsShare small.bucketsPerSegment :=
  grows.before.fitsShare.mono grows.entries grows.share_le

/-- What is left beside the smaller reserve is not enough for one more entry in each eviction
buffer. -/
theorem left_lt :
    (small.budgetBytes : ℚ) * (1 - share) <
      128 * small.segmentCount * (small.pendingCapacity + 1) := by
  have next : small.budgetBytes - small.reserveBytes <
      (small.pendingCapacity + 1) * (small.segmentCount * 128) := by
    rw [← Nat.div_lt_iff_lt_mul (Nat.mul_pos small.segmentCount_pos (by decide)),
      ← grows.before.pendingCapacity_eq]
    exact Nat.lt_succ_self _
  have sum : small.budgetBytes + 1 ≤
      (small.pendingCapacity + 1) * (small.segmentCount * 128) + small.reserveBytes := by
    omega
  have cast : (small.budgetBytes : ℚ) + 1 ≤
      (small.pendingCapacity + 1) * (small.segmentCount * 128) + small.reserveBytes := by
    exact_mod_cast sum
  have held := grows.reservesBefore.lt
  linarith

/-- A plan is computed only if its reserve is not too small beside what is left: the copy of a
segment takes a fingerprint for each entry of one eviction buffer, and 128 bytes in each segment
make one entry. -/
theorem left_le_reserve : 1 - share ≤ 16 * small.segmentCount * share := by
  have copied : 8 * (small.pendingCapacity + 1) + 1 ≤ small.reserveBytes := by
    have fits := grows.before.fitsReserve
    have cells := Nat.mul_pos grows.before.buckets grows.before.wide
    have segments := small.segmentCount_pos
    rw [FitsReserve, snapshotBytes, segmentCapacity] at fits
    simp only [minIndexEntries, fingerprintBytes] at fits
    omega
  have held : 8 * ((small.pendingCapacity : ℚ) + 1) < small.budgetBytes * share := by
    have cast : 8 * ((small.pendingCapacity : ℚ) + 1) + 1 ≤ small.reserveBytes := by
      exact_mod_cast copied
    have up := grows.reservesBefore.lt
    linarith
  have segments : (0 : ℚ) < small.segmentCount := Nat.cast_pos.mpr small.segmentCount_pos
  have products : (small.budgetBytes : ℚ) * (1 - share) <
      small.budgetBytes * (16 * small.segmentCount * share) := by
    calc (small.budgetBytes : ℚ) * (1 - share)
        < 128 * small.segmentCount * (small.pendingCapacity + 1) := grows.left_lt
      _ = 16 * small.segmentCount * (8 * (small.pendingCapacity + 1)) := by ring
      _ ≤ 16 * small.segmentCount * (small.budgetBytes * share) :=
          mul_le_mul_of_nonneg_left (le_of_lt held) (by positivity)
      _ = small.budgetBytes * (16 * small.segmentCount * share) := by ring
  exact le_of_lt (lt_of_mul_lt_mul_left products (Nat.cast_nonneg _))

/-- Where the eviction buffer grows by more than one entry, the reserve grows by a fingerprint for
each further one. -/
theorem pending_le :
    large.pendingCapacity * 8 + small.reserveBytes ≤
      small.pendingCapacity * 8 + large.reserveBytes + 8 := by
  have segments : (0 : ℚ) < small.segmentCount := Nat.cast_pos.mpr small.segmentCount_pos
  have filled : 128 * (small.segmentCount : ℚ) * large.pendingCapacity ≤
      large.budgetBytes * (1 - share) := by
    have whole := Nat.div_mul_le_self (large.budgetBytes - large.reserveBytes)
      (large.segmentCount * 128)
    rw [← grows.after.pendingCapacity_eq, ← grows.segments] at whole
    have sum : large.pendingCapacity * (small.segmentCount * 128) + large.reserveBytes ≤
        large.budgetBytes := by
      have within := grows.after.reserve_le
      omega
    have cast : (large.pendingCapacity : ℚ) * (small.segmentCount * 128) + large.reserveBytes ≤
        large.budgetBytes := by
      exact_mod_cast sum
    have held := grows.reservesAfter.le
    linarith
  -- What the budget grew by, divided into what is held back and what is left.
  have growth : ((large.budgetBytes : ℚ) - small.budgetBytes) * (1 - share) ≤
      16 * small.segmentCount * ((large.budgetBytes - small.budgetBytes) * share) := by
    calc ((large.budgetBytes : ℚ) - small.budgetBytes) * (1 - share)
        ≤ (large.budgetBytes - small.budgetBytes) * (16 * small.segmentCount * share) :=
          mul_le_mul_of_nonneg_left grows.left_le_reserve (sub_nonneg.mpr grows.cast_budget_le)
      _ = 16 * small.segmentCount * ((large.budgetBytes - small.budgetBytes) * share) := by ring
  have entries : 8 * ((large.pendingCapacity : ℚ) - (small.pendingCapacity + 1)) <
      (large.budgetBytes - small.budgetBytes) * share := by
    refine lt_of_mul_lt_mul_left (a := 16 * (small.segmentCount : ℚ)) ?_ (by positivity)
    have less := grows.left_lt
    linarith
  have before := grows.reservesBefore.lt
  have after := grows.reservesAfter.le
  have total : ((large.pendingCapacity * 8 + small.reserveBytes : ℕ) : ℚ) <
      (small.pendingCapacity * 8 + large.reserveBytes + 9 : ℕ) := by
    push_cast
    linarith
  exact Nat.lt_succ_iff.mp (Nat.cast_lt.mp total)

/-- The former buckets, or as few as half of them, fit in the larger reserve if what the smaller
one had to spare pays for one more entry in the eviction buffer. -/
theorem fitsReserve {buckets : Nat}
    (spare : (buckets * small.bucketEntries + 1 + small.pendingCapacity) * 8 +
      small.segmentCount * 128 ≤ small.reserveBytes) :
    large.FitsReserve buckets := by
  have pending := grows.pending_le
  rw [FitsReserve, snapshotBytes, segmentCapacity]
  simp only [← grows.segments, ← grows.entries, minIndexEntries, fingerprintBytes]
  omega

/-- Half the former buckets fit in the larger reserve, since the other half held a fingerprint. -/
theorem fitsReserve_half {half : Nat} (double : small.bucketsPerSegment = 2 * half) :
    large.FitsReserve half := by
  have fits := grows.before.fitsReserve
  have some : 1 ≤ half * small.bucketEntries := by
    have buckets := grows.before.buckets
    exact Nat.mul_pos (by omega) grows.before.wide
  rw [FitsReserve, snapshotBytes, segmentCapacity, double, Nat.mul_assoc] at fits
  simp only [minIndexEntries, fingerprintBytes] at fits
  refine grows.fitsReserve ?_
  omega

/-- The former buckets fit in the larger reserve if the eviction buffer is no larger. -/
theorem fitsReserve_of_pendingCapacity_eq
    (same : large.pendingCapacity = small.pendingCapacity) :
    large.FitsReserve small.bucketsPerSegment := by
  have fits := grows.before.fitsReserve
  have reserve := grows.reserve_le
  rw [FitsReserve, snapshotBytes, segmentCapacity] at fits ⊢
  simp only [← grows.segments, ← grows.entries, same] at fits ⊢
  exact Nat.le_trans fits reserve

/-- Tables of as many segments and as wide buckets compare as their buckets do. -/
theorem capacity_le_iff (factor : Nat) :
    small.capacity ≤ factor * large.capacity ↔
      small.bucketsPerSegment ≤ factor * large.bucketsPerSegment := by
  rw [capacity, capacity, segmentCapacity, segmentCapacity, ← grows.segments,
    ← grows.entries, Nat.mul_left_comm factor, ← Nat.mul_assoc factor,
    Nat.mul_le_mul_left_iff small.segmentCount_pos,
    Nat.mul_le_mul_right_iff grows.before.wide]

end Grows

/-- A larger budget gives a table that is no smaller exactly if its reserve has room for the former
buckets beside the larger eviction buffer.  It has if that buffer is as before, and if the page
indexes of the smaller plan had one fingerprint's bytes more than they must have.  The table
never shrinks to less than a half. -/
theorem capacity_growth {settings : MemorySettings} {budget : UInt64} {share : ℚ}
    {small large : Plan} (more : settings.budgetBytes ≤ budget)
    (before : compute settings = .ok small)
    (after : compute { settings with budgetBytes := budget } = .ok large)
    (reservesBefore : small.Reserves share) (reservesAfter : large.Reserves share) :
    (small.capacity ≤ large.capacity ↔ large.FitsReserve small.bucketsPerSegment) ∧
      (large.pendingCapacity = small.pendingCapacity → small.capacity ≤ large.capacity) ∧
      (small.segmentCount * 128 + 8 ≤ small.indexBytes → small.capacity ≤ large.capacity) ∧
      small.capacity ≤ 2 * large.capacity := by
  obtain ⟨accepted, planned⟩ := withReserve_of_compute before
  obtain ⟨accepted', planned'⟩ := withReserve_of_compute after
  obtain ⟨budgeted, bytes, segments, entries, -, k, power, -⟩ :=
    withReserve_budgeted accepted planned
  obtain ⟨budgeted', bytes', segments', entries', -, -, -, largest⟩ :=
    withReserve_budgeted accepted' planned'
  have grows : Grows share small large :=
    { segments := segments.trans segments'.symm
      entries := entries.trans entries'.symm
      budget := by
        rw [bytes, bytes']
        exact UInt64.le_iff_toNat_le.mp more
      before := budgeted
      after := budgeted'
      reservesBefore := reservesBefore
      reservesAfter := reservesAfter }
  have wider : small.capacity ≤ large.capacity ↔
      large.FitsReserve small.bucketsPerSegment := by
    have buckets := grows.capacity_le_iff 1
    rw [Nat.one_mul, Nat.one_mul] at buckets
    rw [buckets]
    refine ⟨fun most => budgeted'.fitsReserve.anti most, fun fits => ?_⟩
    have share := grows.fitsShare
    rw [power] at share fits ⊢
    exact largest k share fits
  refine ⟨wider, fun same => wider.mpr (grows.fitsReserve_of_pendingCapacity_eq same),
    fun spare => wider.mpr (grows.fitsReserve ?_), (grows.capacity_le_iff 2).mpr ?_⟩
  · have carved := budgeted.carved
    rw [snapshotBytes, segmentCapacity] at carved
    simp only [fingerprintBytes] at carved
    omega
  · cases k with
    | zero =>
        have one : small.bucketsPerSegment = 1 := power
        have some := budgeted'.buckets
        omega
    | succ k =>
        have double : small.bucketsPerSegment = 2 * Nat.pow 2 k :=
          power.trans (Nat.pow_succ'.trans rfl)
        have half : Nat.pow 2 k ≤ small.bucketsPerSegment := by omega
        have share : large.FitsShare (Nat.pow 2 k) :=
          fitsShare_iff.mpr (Nat.le_trans half (fitsShare_iff.mp grows.fitsShare))
        have kept := largest k share (grows.fitsReserve_half double)
        omega

theorem computed_of_toOption {settings : MemorySettings} {plan : Plan}
    (planned : (compute settings).toOption = some plan) : compute settings = .ok plan := by
  cases computed : compute settings with
  | error error =>
      rw [computed] at planned
      contradiction
  | ok found =>
      rw [computed] at planned
      exact congrArg Except.ok (Option.some.inj planned)

/-- From 767 bytes to 800 the eviction buffer grows by one entry, and the reserve by enough to copy
it with the same two buckets. -/
theorem capacity_growth_kept :
    let settings : MemorySettings :=
      { budgetBytes := 767, segmentBits := 0, bucketEntries := 15, reserveRatio := 0.5 }
    settings.budgetBytes ≤ 800 ∧
      ∃ small large,
        compute settings = .ok small ∧ compute { settings with budgetBytes := 800 } = .ok large ∧
          small.Reserves (1 / 2) ∧ large.Reserves (1 / 2) ∧
          small.pendingCapacity < large.pendingCapacity ∧
          large.FitsReserve small.bucketsPerSegment ∧ small.capacity ≤ large.capacity := by
  intro settings
  have before : compute settings = .ok
      { budgetBytes := 767
        segmentBits := 0
        bucketsPerSegment := 2
        bucketEntries := 15
        pendingCapacity := 2
        reserveBytes := 384
        indexBytes := 128 } :=
    computed_of_toOption (by decide +kernel)
  have after : compute { settings with budgetBytes := 800 } = .ok
      { budgetBytes := 800
        segmentBits := 0
        bucketsPerSegment := 2
        bucketEntries := 15
        pendingCapacity := 3
        reserveBytes := 400
        indexBytes := 136 } :=
    computed_of_toOption (by decide +kernel)
  have reserves := @capacity_growth _ _ (1 / 2) _ _ (by decide) before after
    (by norm_num [Reserves]) (by norm_num [Reserves])
  exact ⟨by decide, _, _, before, after, by norm_num [Reserves], by norm_num [Reserves],
    by decide, by decide, reserves.1.mpr (by decide)⟩

/-- 768 bytes instead of 767 do not add to a reserve of one half, but one entry to the eviction
buffer.  The copy of two buckets with it has no room in the reserve, and one bucket is left. -/
theorem capacity_shrinks :
    let settings : MemorySettings :=
      { budgetBytes := 767, segmentBits := 0, bucketEntries := 15, reserveRatio := 0.5 }
    ∃ small large,
      compute settings = .ok small ∧ compute { settings with budgetBytes := 768 } = .ok large ∧
        small.Reserves (1 / 2) ∧ large.Reserves (1 / 2) ∧
        small.capacity = 30 ∧ large.capacity = 15 := by
  intro settings
  have before : compute settings = .ok
      { budgetBytes := 767
        segmentBits := 0
        bucketsPerSegment := 2
        bucketEntries := 15
        pendingCapacity := 2
        reserveBytes := 384
        indexBytes := 128 } :=
    computed_of_toOption (by decide +kernel)
  have after : compute { settings with budgetBytes := 768 } = .ok
      { budgetBytes := 768
        segmentBits := 0
        bucketsPerSegment := 1
        bucketEntries := 15
        pendingCapacity := 3
        reserveBytes := 384
        indexBytes := 240 } :=
    computed_of_toOption (by decide +kernel)
  exact ⟨_, _, before, after, by norm_num [Reserves], by norm_num [Reserves], rfl, rfl⟩

end Plan

end FingerprintSet
