import FingerprintSet.Proofs.Plan.Words

/-!
# Plans keep to their budget

The parts of a plan add up to no more than its budget, and its buckets are as many as the budget
lets them be.  As all parts are at most a budget that is itself a word, the same plan comes out
when it is computed in words.
-/

namespace FingerprintSet

namespace Plan

/-! ## The largest power of two that fits -/

theorem largestFitting_eq_pow (fits : Nat → Bool) (exponent : Nat) :
    ∃ k, k ≤ exponent ∧ largestFitting fits exponent = Nat.pow 2 k := by
  induction exponent with
  | zero => exact ⟨0, Nat.le_refl 0, rfl⟩
  | succ exponent ih =>
      rw [largestFitting]
      split
      · exact ⟨exponent + 1, Nat.le_refl _, rfl⟩
      · obtain ⟨k, most, same⟩ := ih
        exact ⟨k, Nat.le_succ_of_le most, same⟩

theorem le_largestFitting {fits : Nat → Bool} {k exponent : Nat} (most : k ≤ exponent)
    (fitting : fits (Nat.pow 2 k) = true) : Nat.pow 2 k ≤ largestFitting fits exponent := by
  induction exponent with
  | zero =>
      obtain rfl := Nat.le_zero.mp most
      exact Nat.le_refl 1
  | succ exponent ih =>
      rw [largestFitting]
      split
      · exact Nat.pow_le_pow_right Nat.zero_lt_two most
      · rename_i unfit
        refine ih (Nat.lt_succ_iff.mp (Nat.lt_of_le_of_ne most ?_))
        rintro rfl
        exact unfit fitting

/-! ## The parts of a plan -/

theorem bucketBytes_pos (entries : Nat) : 0 < bucketBytes entries :=
  Nat.succ_pos _

/-- What one segment has of the budget without the reserve. -/
def share (plan : Plan) : Nat :=
  (plan.budgetBytes - plan.reserveBytes) / plan.segmentCount

/-- So many buckets fit in a segment's share, beside the part that is for its eviction
buffer. -/
def FitsShare (plan : Plan) (buckets : Nat) : Prop :=
  buckets * bucketBytes plan.bucketEntries + plan.share / pendingShare ≤ plan.share

instance (plan : Plan) (buckets : Nat) : Decidable (plan.FitsShare buckets) :=
  inferInstanceAs (Decidable (_ ≤ _))

theorem fitsShare_iff {plan : Plan} {buckets : Nat} :
    plan.FitsShare buckets ↔
      buckets ≤ (plan.share - plan.share / pendingShare) / bucketBytes plan.bucketEntries := by
  rw [Nat.le_div_iff_mul_le (bucketBytes_pos _), Nat.le_sub_iff_add_le (Nat.div_le_self _ _)]
  exact Iff.rfl

/-- The copy of one segment with so many buckets fits in the reserve, beside the smallest
indexes of all segments. -/
def FitsReserve (plan : Plan) (buckets : Nat) : Prop :=
  { plan with bucketsPerSegment := buckets }.snapshotBytes
    + plan.segmentCount * minIndexEntries * fingerprintBytes ≤ plan.reserveBytes

instance (plan : Plan) (buckets : Nat) : Decidable (plan.FitsReserve buckets) :=
  inferInstanceAs (Decidable (_ ≤ _))

/-- The parts of a plan are within its budget. -/
structure Budgeted (plan : Plan) : Prop extends plan.Shaped where
  budget : plan.budgetBytes < UInt64.size
  buffer : plan.pendingCapacity = plan.share / pendingShare / pendingEntryBytes
  buffered : 0 < plan.pendingCapacity
  fitsShare : plan.FitsShare plan.bucketsPerSegment
  fitsReserve : plan.FitsReserve plan.bucketsPerSegment
  index : plan.indexBytes = plan.reserveBytes - plan.snapshotBytes

/-- The copy of a segment takes a little less than the segment's share. -/
theorem snapshotBytes_le {plan : Plan}
    (buffer : plan.pendingCapacity = plan.share / pendingShare / pendingEntryBytes)
    (fits : plan.FitsShare plan.bucketsPerSegment) :
    plan.snapshotBytes + plan.share / pendingShare / 2 ≤ plan.share := by
  have cells : plan.bucketsPerSegment * plan.bucketEntries * fingerprintBytes ≤
      plan.bucketsPerSegment * bucketBytes plan.bucketEntries := by
    rw [Nat.mul_assoc]
    exact Nat.mul_le_mul_left _ (Nat.le_add_right _ _)
  rw [FitsShare] at fits
  rw [snapshotBytes, segmentCapacity, buffer, Nat.add_mul]
  simp only [fingerprintBytes, pendingEntryBytes] at cells ⊢
  omega

namespace Budgeted

variable {plan : Plan} (budgeted : plan.Budgeted)
include budgeted

theorem snapshot_le : plan.snapshotBytes ≤ plan.reserveBytes :=
  Nat.le_of_add_right_le budgeted.fitsReserve

theorem carved : plan.indexBytes + plan.snapshotBytes = plan.reserveBytes := by
  rw [budgeted.index]
  exact Nat.sub_add_cancel budgeted.snapshot_le

/-- What is taken up from the start is all segments' shares at most. -/
theorem static_le : plan.staticBytes ≤ plan.budgetBytes - plan.reserveBytes := by
  have buffer : plan.pendingCapacity * pendingEntryBytes ≤ plan.share / pendingShare := by
    rw [budgeted.buffer]
    exact Nat.div_mul_le_self _ _
  have parts : plan.bucketsPerSegment * bucketBytes plan.bucketEntries +
      plan.pendingCapacity * pendingEntryBytes ≤ plan.share :=
    Nat.le_trans (Nat.add_le_add_left buffer _) budgeted.fitsShare
  calc plan.staticBytes
      = plan.segmentCount * (plan.bucketsPerSegment * bucketBytes plan.bucketEntries +
          plan.pendingCapacity * pendingEntryBytes) := by
        rw [staticBytes, tableBytes, pendingBytes, Nat.mul_assoc, Nat.mul_assoc, ← Nat.mul_add]
    _ ≤ plan.segmentCount * plan.share := Nat.mul_le_mul_left _ parts
    _ ≤ plan.budgetBytes - plan.reserveBytes := Nat.mul_div_le _ _

/-- A segment that has a share leaves some of the budget beside the reserve. -/
theorem reserve_le : plan.reserveBytes ≤ plan.budgetBytes := by
  refine Nat.le_of_lt (Nat.lt_of_sub_ne_zero fun none => ?_)
  have share : plan.share = 0 := by rw [share, none, Nat.zero_div]
  have buffered := budgeted.buffered
  rw [budgeted.buffer, share] at buffered
  exact Nat.lt_irrefl 0 buffered

theorem within : plan.staticBytes + plan.snapshotBytes + plan.indexBytes ≤ plan.budgetBytes := by
  rw [Nat.add_assoc, Nat.add_comm plan.snapshotBytes, budgeted.carved]
  exact Nat.add_le_of_le_sub budgeted.reserve_le budgeted.static_le

theorem index_ge :
    plan.segmentCount * minIndexEntries * fingerprintBytes ≤ plan.indexBytes := by
  rw [budgeted.index]
  refine Nat.le_sub_of_add_le ?_
  rw [Nat.add_comm]
  exact budgeted.fitsReserve

theorem indexed : minIndexEntries ≤ plan.indexEntriesPerSegment := by
  rw [indexEntriesPerSegment, Nat.le_div_iff_mul_le plan.segmentCount_pos,
    Nat.le_div_iff_mul_le (by decide), Nat.mul_comm minIndexEntries]
  exact budgeted.index_ge

end Budgeted

theorem indexEntries_le (plan : Plan) :
    plan.indexEntriesPerSegment * fingerprintBytes * plan.segmentCount ≤ plan.indexBytes := by
  rw [indexEntriesPerSegment, Nat.div_div_eq_div_mul, Nat.mul_assoc]
  exact Nat.div_mul_le_self _ _

/-! ## Plans that settings give -/

section Computed

variable {settings : MemorySettings} {reserve : Nat}

theorem withReserve_budgeted {plan : Plan} (accepted : settings.validate = .ok ())
    (computed : withReserve settings reserve = .ok plan) :
    plan.Budgeted ∧ plan.budgetBytes = settings.budgetBytes.toNat ∧
      plan.segmentCount = settings.segmentCount ∧
      plan.bucketEntries = settings.bucketEntries.toNat ∧ plan.reserveBytes = reserve ∧
      ∃ k, plan.bucketsPerSegment = Nat.pow 2 k ∧
        ∀ l, plan.FitsShare (Nat.pow 2 l) → plan.FitsReserve (Nat.pow 2 l) →
          Nat.pow 2 l ≤ plan.bucketsPerSegment := by
  have shaped := withReserve_shaped accepted computed
  rw [withReserve] at computed
  dsimp only at computed
  split at computed
  · contradiction
  · rename_i enough
    obtain ⟨some, buffered⟩ := not_or.mp enough
    split at computed
    · contradiction
    · rename_i roomy
      obtain rfl := Except.ok.inj computed
      obtain ⟨k, most, same⟩ := largestFitting_eq_pow _ _
      have small := Nat.le_trans (Nat.le_of_eq same) (Nat.pow_le_pow_right Nat.zero_lt_two most)
      refine ⟨?_, rfl, rfl, rfl, rfl, k, same, fun l fitsShare fitsReserve => ?_⟩
      · exact
          { toShaped := shaped
            budget := settings.budgetBytes.toNat_lt
            buffer := rfl
            buffered := Nat.div_pos (Nat.not_lt.mp buffered) (by decide)
            fitsShare := fitsShare_iff.mpr (Nat.le_trans small (Nat.log2_self_le some))
            fitsReserve := Nat.not_lt.mp roomy
            index := rfl }
      · refine le_largestFitting ?_ (decide_eq_true fitsReserve)
        exact (Nat.le_log2 some).mpr (fitsShare_iff.mp fitsShare)

end Computed

end Plan

/-! ## The same in words -/

namespace Wordwise

open Plan (fingerprintBytes pendingEntryBytes)

/-- What a plan tells is the same in words. -/
structure Tells (plan : Plan) : Prop where
  segmentCount : segmentCount plan = some plan.segmentCount
  segmentCapacity : segmentCapacity plan = some plan.segmentCapacity
  capacity : capacity plan = some plan.capacity
  tableBytes : tableBytes plan = some plan.tableBytes
  pendingBytes : pendingBytes plan = some plan.pendingBytes
  snapshotBytes : snapshotBytes plan = some plan.snapshotBytes
  indexEntriesPerSegment : indexEntriesPerSegment plan = some plan.indexEntriesPerSegment
  staticBytes : staticBytes plan = some plan.staticBytes

theorem bucketBytes_eq {entries : Nat} (narrow : entries ≤ 255) :
    bucketBytes entries = some (Plan.bucketBytes entries) := by
  have product : entries * fingerprintBytes < UInt64.size := by
    simp only [fingerprintBytes, UInt64.size]
    omega
  have sum : entries * fingerprintBytes + Plan.occupancyBytes < UInt64.size := by
    simp only [fingerprintBytes, Plan.occupancyBytes, UInt64.size]
    omega
  rw [bucketBytes, times_eq product]
  exact plus_eq sum

theorem segmentCapacity_eq {plan : Plan} (small : plan.segmentCapacity < UInt64.size) :
    segmentCapacity plan = some plan.segmentCapacity :=
  times_eq small

theorem snapshotBytes_eq {plan : Plan} (small : plan.snapshotBytes < UInt64.size) :
    snapshotBytes plan = some plan.snapshotBytes := by
  have sum : plan.segmentCapacity + plan.pendingCapacity < UInt64.size :=
    Nat.lt_of_le_of_lt (Nat.le_mul_of_pos_right _ (by decide)) small
  have capacity := segmentCapacity_eq (Nat.lt_of_le_of_lt (Nat.le_add_right _ _) sum)
  simp only [snapshotBytes, capacity, plus_eq sum, Option.bind_eq_bind, Option.bind_some]
  exact times_eq small

section

variable {plan : Plan} (segments : segmentCount plan = some plan.segmentCount)
include segments

theorem tableBytes_eq (narrow : plan.bucketEntries ≤ 255)
    (small : plan.tableBytes < UInt64.size) : tableBytes plan = some plan.tableBytes := by
  have product : plan.segmentCount * plan.bucketsPerSegment < UInt64.size :=
    Nat.lt_of_le_of_lt (Nat.le_mul_of_pos_right _ (Plan.bucketBytes_pos _)) small
  simp only [tableBytes, bucketBytes_eq narrow, segments, times_eq product,
    Option.bind_eq_bind, Option.bind_some]
  exact times_eq small

theorem pendingBytes_eq (small : plan.pendingBytes < UInt64.size) :
    pendingBytes plan = some plan.pendingBytes := by
  have product : plan.segmentCount * plan.pendingCapacity < UInt64.size :=
    Nat.lt_of_le_of_lt (Nat.le_mul_of_pos_right _ (by decide)) small
  simp only [pendingBytes, segments, times_eq product, Option.bind_eq_bind, Option.bind_some]
  exact times_eq small

theorem indexEntriesPerSegment_eq :
    indexEntriesPerSegment plan = some plan.indexEntriesPerSegment := by
  simp only [indexEntriesPerSegment, segments, divided_eq (show 0 < fingerprintBytes by decide),
    Option.bind_eq_bind, Option.bind_some]
  exact divided_eq plan.segmentCount_pos

/-- The fingerprints of a table are fewer than its bytes. -/
theorem capacity_eq (small : plan.tableBytes < UInt64.size) :
    capacity plan = some plan.capacity := by
  have bytes : plan.capacity ≤ plan.tableBytes := by
    rw [Plan.capacity, Plan.segmentCapacity, Plan.tableBytes, Nat.mul_assoc]
    refine Nat.mul_le_mul_left _ (Nat.mul_le_mul_left _ ?_)
    exact Nat.le_trans (Nat.le_mul_of_pos_right _ (by decide)) (Nat.le_add_right _ _)
  have product := Nat.lt_of_le_of_lt bytes small
  have each := segmentCapacity_eq
    (Nat.lt_of_le_of_lt (Nat.le_mul_of_pos_left _ plan.segmentCount_pos) product)
  simp only [capacity, segments, each, Option.bind_eq_bind, Option.bind_some]
  exact times_eq product

end

/-- What a plan tells fits in words if its parts are within a budget that does. -/
theorem tells {plan : Plan} (budgeted : plan.Budgeted) : Tells plan := by
  have within := Nat.lt_of_le_of_lt budgeted.within budgeted.budget
  have static : plan.staticBytes < UInt64.size := by omega
  have table : plan.tableBytes < UInt64.size :=
    Nat.lt_of_le_of_lt (Nat.le_add_right _ _) static
  have pending : plan.pendingBytes < UInt64.size :=
    Nat.lt_of_le_of_lt (Nat.le_add_left _ _) static
  have snapshot : plan.snapshotBytes < UInt64.size := by omega
  have cells : plan.segmentCapacity + plan.pendingCapacity ≤ plan.snapshotBytes :=
    Nat.le_mul_of_pos_right _ (by decide)
  have segments : segmentCount plan = some plan.segmentCount :=
    shifted_eq (Nat.lt_of_le_of_lt budgeted.bits (by decide))
  have tableBytes := tableBytes_eq segments budgeted.narrow table
  have pendingBytes := pendingBytes_eq segments pending
  exact
    { segmentCount := segments
      segmentCapacity := segmentCapacity_eq (by omega)
      capacity := capacity_eq segments table
      tableBytes := tableBytes
      pendingBytes := pendingBytes
      snapshotBytes := snapshotBytes_eq snapshot
      indexEntriesPerSegment := indexEntriesPerSegment_eq segments
      staticBytes := by
        simp only [staticBytes, tableBytes, pendingBytes, Option.bind_eq_bind, Option.bind_some]
        exact plus_eq static }

theorem halved_step {plan : Plan} {minIndexBytes reserve : Nat}
    (small : plan.snapshotBytes + minIndexBytes < UInt64.size) :
    halved minIndexBytes reserve plan =
      if reserve < plan.snapshotBytes + minIndexBytes ∧ 1 < plan.bucketsPerSegment then
        halved minIndexBytes reserve
          { plan with bucketsPerSegment := plan.bucketsPerSegment / 2 }
      else
        some plan := by
  have snapshot := snapshotBytes_eq (Nat.lt_of_le_of_lt (Nat.le_add_right _ _) small)
  rw [halved, snapshot, Option.bind_eq_bind, Option.bind_some, plus_eq small]
  rfl

/-- A plan with as many buckets, from a power of two down, as a reserve has room for. -/
def narrowed (minIndexBytes reserve exponent : Nat) (plan : Plan) : Plan :=
  { plan with
    bucketsPerSegment :=
      Plan.largestFitting
        (fun buckets =>
          { plan with bucketsPerSegment := buckets }.snapshotBytes + minIndexBytes ≤ reserve)
        exponent }

/-- The loop stops at the largest number of buckets that the reserve has room for. -/
theorem halved_eq {plan : Plan} {minIndexBytes reserve : Nat} (exponent : Nat)
    (buckets : plan.bucketsPerSegment = Nat.pow 2 exponent)
    (small : plan.snapshotBytes + minIndexBytes < UInt64.size) :
    halved minIndexBytes reserve plan = some (narrowed minIndexBytes reserve exponent plan) := by
  induction exponent generalizing plan with
  | zero =>
      have last : ¬1 < plan.bucketsPerSegment := by
        rw [buckets]
        decide
      rw [halved_step small, if_neg fun more => last more.2, narrowed, Plan.largestFitting]
      cases plan
      cases buckets
      rfl
  | succ exponent ih =>
      have many : 1 < plan.bucketsPerSegment := by
        rw [buckets]
        exact Nat.one_lt_two_pow (Nat.succ_ne_zero exponent)
      rw [halved_step small, narrowed, Plan.largestFitting, ← buckets]
      by_cases fits : plan.snapshotBytes + minIndexBytes ≤ reserve
      · rw [if_neg fun less => Nat.not_lt.mpr fits less.1]
        exact congrArg some (congrArg (fun n => { plan with bucketsPerSegment := n })
          (if_pos (decide_eq_true fits)).symm)
      · have half : plan.bucketsPerSegment / 2 = Nat.pow 2 exponent := by
          rw [buckets]
          exact Nat.mul_div_left _ Nat.zero_lt_two
        have less : { plan with bucketsPerSegment := plan.bucketsPerSegment / 2 }.snapshotBytes ≤
            plan.snapshotBytes :=
          Nat.mul_le_mul_right _ (Nat.add_le_add_right
            (Nat.mul_le_mul_right _ (Nat.div_le_self _ _)) _)
        rw [if_pos ⟨Nat.not_le.mp fits, many⟩,
          ih half (Nat.lt_of_le_of_lt (Nat.add_le_add_right less _) small)]
        exact congrArg some (congrArg (fun n => { plan with bucketsPerSegment := n })
          (if_neg fun fitting => fits (of_decide_eq_true fitting)).symm)

theorem narrowed_snapshotBytes_le {widest : Plan} {exponent : Nat}
    (buckets : widest.bucketsPerSegment = Nat.pow 2 exponent) (minIndexBytes reserve : Nat) :
    (narrowed minIndexBytes reserve exponent widest).snapshotBytes ≤ widest.snapshotBytes := by
  refine Nat.mul_le_mul_right _ (Nat.add_le_add_right (Nat.mul_le_mul_right _ ?_) _)
  obtain ⟨k, most, same⟩ := Plan.largestFitting_eq_pow _ exponent
  rw [buckets]
  exact Nat.le_trans (Nat.le_of_eq same) (Nat.pow_le_pow_right Nat.zero_lt_two most)

theorem carved_eq {widest plan : Plan} {minIndexBytes reserve exponent : Nat}
    (buckets : widest.bucketsPerSegment = Nat.pow 2 exponent)
    (small : widest.snapshotBytes + minIndexBytes < UInt64.size)
    (stopped : narrowed minIndexBytes reserve exponent widest = plan) :
    carved minIndexBytes reserve widest =
      some (if reserve < plan.snapshotBytes + minIndexBytes then
        .error (.reserveTooSmall reserve minIndexBytes)
      else
        .ok { plan with indexBytes := reserve - plan.snapshotBytes }) := by
  have less := narrowed_snapshotBytes_le buckets minIndexBytes reserve
  rw [carved, halved_eq exponent buckets small]
  rw [stopped] at less ⊢
  have sum : plan.snapshotBytes + minIndexBytes < UInt64.size :=
    Nat.lt_of_le_of_lt (Nat.add_le_add_right less _) small
  have snapshot := snapshotBytes_eq (Nat.lt_of_le_of_lt (Nat.le_add_right _ _) sum)
  simp only [snapshot, plus_eq sum, Option.bind_eq_bind, Option.bind_some]
  split
  · rfl
  · rename_i roomy
    rw [minus_eq (Nat.le_trans (Nat.le_add_right _ _) (Nat.not_lt.mp roomy))]
    rfl

/-- The buckets that fit in the share of one segment. -/
def fit (settings : MemorySettings) (reserve : Nat) : Nat :=
  let perSegment := (settings.budgetBytes.toNat - reserve) / settings.segmentCount
  (perSegment - perSegment / Plan.pendingShare) / Plan.bucketBytes settings.bucketEntries.toNat

/-- The plan at which the loop starts. -/
def widest (settings : MemorySettings) (reserve : Nat) : Plan :=
  let perSegment := (settings.budgetBytes.toNat - reserve) / settings.segmentCount
  { budgetBytes := settings.budgetBytes.toNat
    segmentBits := settings.segmentBits.toNat
    bucketEntries := settings.bucketEntries.toNat
    pendingCapacity := perSegment / Plan.pendingShare / pendingEntryBytes
    bucketsPerSegment := Nat.pow 2 (fit settings reserve).log2
    reserveBytes := reserve
    indexBytes := 0 }

section

variable (settings : MemorySettings) (reserve : Nat)

theorem widest_share_lt : (widest settings reserve).share < UInt64.size :=
  Nat.lt_of_le_of_lt (Nat.le_trans (Nat.div_le_self _ _) (Nat.sub_le _ _))
    settings.budgetBytes.toNat_lt

theorem fit_lt : fit settings reserve < UInt64.size :=
  Nat.lt_of_le_of_lt (Nat.le_trans (Nat.div_le_self _ _) (Nat.sub_le _ _))
    (widest_share_lt settings reserve)

/-- The copy of the widest segment leaves a sixteenth of the segment's share, so that the
smallest indexes of all segments are no reason to leave the words. -/
theorem widest_small {settings : MemorySettings} {reserve : Nat} (some : fit settings reserve ≠ 0)
    (most : settings.segmentCount ≤ 4096) :
    (widest settings reserve).snapshotBytes
      + settings.segmentCount * Plan.minIndexEntries * fingerprintBytes < UInt64.size := by
  have share := widest_share_lt settings reserve
  have copied := @Plan.snapshotBytes_le (widest settings reserve) rfl
    (Plan.fitsShare_iff.mpr (Nat.log2_self_le some))
  simp only [Plan.pendingShare, Plan.minIndexEntries, fingerprintBytes, UInt64.size]
    at copied share ⊢
  omega

end

/-- Every step of the computation has a result in words, and they lead to the same plan. -/
theorem computeFor_eq (settings : MemorySettings) (reserve : UInt64) :
    computeFor settings reserve = some (Plan.computeFor settings reserve) := by
  rw [computeFor, Plan.computeFor]
  split
  · rfl
  · rename_i accepted
    obtain ⟨bits, -, within⟩ := MemorySettings.validate_ok accepted
    have narrow : settings.bucketEntries.toNat ≤ 255 := UInt64.le_iff_toNat_le.mp within
    have few : settings.segmentBits.toNat ≤ 12 := UInt32.le_iff_toNat_le.mp bits
    have segments : shifted settings.segmentBits.toNat = some settings.segmentCount :=
      shifted_eq (Nat.lt_of_le_of_lt few (by decide))
    have positive : 0 < settings.segmentCount := Nat.pow_pos Nat.zero_lt_two
    have most : settings.segmentCount ≤ 4096 := Nat.pow_le_pow_right Nat.zero_lt_two few
    have bytes : settings.segmentCount * Plan.minIndexEntries * fingerprintBytes < UInt64.size := by
      simp only [Plan.minIndexEntries, fingerprintBytes, UInt64.size]
      omega
    have indexes : settings.segmentCount * Plan.minIndexEntries < UInt64.size :=
      Nat.lt_of_le_of_lt (Nat.le_mul_of_pos_right _ (by decide)) bytes
    simp only [segments, bucketBytes_eq narrow, divided_eq positive, times_eq indexes,
      times_eq bytes, divided_eq (show 0 < Plan.pendingShare by decide),
      divided_eq (Plan.bucketBytes_pos settings.bucketEntries.toNat),
      divided_eq (show 0 < pendingEntryBytes by decide),
      Option.bind_eq_bind, Option.bind_some, Plan.withReserve]
    split
    · rfl
    · rename_i enough
      have some : fit settings reserve.toNat ≠ 0 := (not_or.mp enough).1
      have power := powerBelow_eq (Nat.pos_of_ne_zero some) (fit_lt settings reserve.toNat)
      simp only [fit] at power
      have carved := @carved_eq (widest settings reserve.toNat) _ _ reserve.toNat _ rfl
        (widest_small some most) rfl
      rw [power, Option.bind_some]
      exact carved

end Wordwise

/-! ## Plans within a budget -/

namespace Plan

/-- Whatever the reserve comes to, a plan is computed without leaving the words, and so is what
the plan tells.  Its parts are within the budget, every segment has its smallest index, and the
buckets of a segment are the largest power of two that fits both in the segment's share and,
copied, in the reserve. -/
theorem computed_within_budget (settings : MemorySettings) :
    (∃ reserve, compute settings = computeFor settings reserve) ∧
      ∀ reserve,
        Wordwise.computeFor settings reserve = some (computeFor settings reserve) ∧
          ∀ plan, computeFor settings reserve = .ok plan →
            Wordwise.Tells plan ∧
              plan.budgetBytes = settings.budgetBytes.toNat ∧
              plan.segmentCount = settings.segmentCount ∧
              plan.bucketEntries = settings.bucketEntries.toNat ∧
              plan.reserveBytes = reserve.toNat ∧
              plan.staticBytes + plan.snapshotBytes + plan.indexBytes ≤ plan.budgetBytes ∧
              plan.indexBytes + plan.snapshotBytes = plan.reserveBytes ∧
              1 ≤ plan.pendingCapacity ∧
              16 ≤ plan.indexEntriesPerSegment ∧
              plan.indexEntriesPerSegment * 8 * plan.segmentCount ≤ plan.indexBytes ∧
              (∃ k, plan.bucketsPerSegment = Nat.pow 2 k) ∧
              plan.FitsShare plan.bucketsPerSegment ∧
              plan.FitsReserve plan.bucketsPerSegment ∧
              ∀ k, plan.FitsShare (Nat.pow 2 k) → plan.FitsReserve (Nat.pow 2 k) →
                Nat.pow 2 k ≤ plan.bucketsPerSegment := by
  refine ⟨⟨_, compute_eq_computeFor settings⟩, fun reserve =>
    ⟨Wordwise.computeFor_eq settings reserve, fun plan computed => ?_⟩⟩
  rw [computeFor] at computed
  split at computed
  · contradiction
  · rename_i accepted
    obtain ⟨budgeted, budget, segments, entries, held, k, power, largest⟩ :=
      withReserve_budgeted accepted computed
    exact ⟨Wordwise.tells budgeted, budget, segments, entries, held, budgeted.within, budgeted.carved,
      budgeted.buffered, budgeted.indexed, plan.indexEntries_le, ⟨k, power⟩,
      budgeted.fitsShare, budgeted.fitsReserve, largest⟩

/-- A reserve of 448 bytes for two segments: the share has room for 64 buckets, but the
reserve for a copy of 16 only. -/
theorem computed_within_budget_halved :
    ∃ plan,
      computeFor
          { budgetBytes := 2048, segmentBits := 1, bucketEntries := 1, reserveRatio := 0.5 } 448 =
        .ok plan ∧
      plan.bucketsPerSegment = 16 ∧ plan.FitsShare 64 ∧ ¬plan.FitsReserve 32 ∧
        plan.staticBytes + plan.snapshotBytes + plan.indexBytes ≤ plan.budgetBytes := by
  let settings : MemorySettings :=
    { budgetBytes := 2048, segmentBits := 1, bucketEntries := 1, reserveRatio := 0.5 }
  have planned : (computeFor settings 448).toOption =
      some
        { budgetBytes := 2048
          segmentBits := 1
          bucketsPerSegment := 16
          bucketEntries := 1
          pendingCapacity := 6
          reserveBytes := 448
          indexBytes := 272 } := by
    decide +kernel
  cases computed : computeFor settings 448 with
  | error error =>
      rw [computed] at planned
      contradiction
  | ok plan =>
      obtain ⟨-, -, -, -, -, within, -⟩ := ((computed_within_budget settings).2 448).2 plan computed
      rw [computed] at planned
      obtain rfl := Option.some.inj planned
      exact ⟨_, rfl, rfl, by decide, by decide, within⟩

end Plan

end FingerprintSet
