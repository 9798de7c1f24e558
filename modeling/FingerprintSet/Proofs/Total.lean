import FingerprintSet.Total
import Mathlib.Algebra.Order.BigOperators.Group.List
import Mathlib.Algebra.Order.Ring.Nat

/-!
# Totals as sums

A total is the sum of the counts of its items, so it obeys the laws of such sums.
-/

namespace FingerprintSet

variable {α β : Type} {count : α → Nat} {items : List α}

/-- List-library form of the recursive total. -/
theorem total_eq_sum (count : α → Nat) (items : List α) :
    total count items = (items.map count).sum := by
  induction items with
  | nil => rfl
  | cons item items ih => rw [total_cons, ih, List.map_cons, List.sum_cons]

/-- The total of two lists one after the other is the sum of their totals. -/
theorem total_append (count : α → Nat) (first second : List α) :
    total count (first ++ second) = total count first + total count second := by
  rw [total_eq_sum, total_eq_sum, total_eq_sum, List.map_append, List.sum_append]

theorem total_map (count : β → Nat) (f : α → β) (items : List α) :
    total count (items.map f) = total (count ∘ f) items := by
  rw [total_eq_sum, total_eq_sum, List.map_map]

theorem total_congr {other : α → Nat} (same : ∀ item ∈ items, count item = other item) :
    total count items = total other items := by
  rw [total_eq_sum, total_eq_sum, List.map_congr_left same]

/-- Lists one after the other are as long as they are together. -/
theorem length_flatMap (content : α → List β) (items : List α) :
    (items.flatMap content).length = total (fun item => (content item).length) items := by
  rw [total_eq_sum, List.length_flatMap]

theorem total_mono {other : α → Nat} (below : ∀ item ∈ items, count item ≤ other item) :
    total count items ≤ total other items := by
  rw [total_eq_sum, total_eq_sum]
  exact List.sum_le_sum below

/-- No more than so many times the most that any item counts. -/
theorem total_le {most : Nat} (each : ∀ item ∈ items, count item ≤ most) :
    total count items ≤ items.length * most := by
  rw [total_eq_sum, ← List.length_map count, ← Nat.nsmul_eq_mul]
  exact List.sum_le_card_nsmul _ _ (List.forall_mem_map.mpr each)

theorem le_total_of_mem (count : α → Nat) {item : α} (mem : item ∈ items) :
    count item ≤ total count items := by
  rw [total_eq_sum]
  exact List.le_sum_of_mem (List.mem_map_of_mem mem)

/-- What counts for a part and for the rest counts for the whole. -/
theorem total_partition (count : α → Nat) (part : α → Bool) (items : List α) :
    total count (items.filter part) + total count (items.filter (! part ·)) = total count items := by
  rw [← total_append, total_eq_sum, total_eq_sum]
  exact ((List.filter_append_perm part items).map count).sum_eq

end FingerprintSet
