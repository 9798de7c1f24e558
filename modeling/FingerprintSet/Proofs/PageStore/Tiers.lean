import FingerprintSet.PageStore.Compaction
import Mathlib.Algebra.Group.Nat.Defs
import Mathlib.Data.List.Nodup
import Mathlib.Data.Nat.Size

/-!
# Size classes of pages

Two pages of one size class differ in size by less than a factor of four.  So merging a page with
others of its class makes it grow by a quarter at least, and that can only happen logarithmically
often.  There are only logarithmically many classes, too: once there are more pages than classes,
two pages share one.
-/

namespace FingerprintSet

namespace Page

/-- The length in bits is the library's size in binary. -/
theorem bitLength_eq_size (n : Nat) : bitLength n = n.size := by
  rw [bitLength]
  split
  · rename_i zero
    rw [zero, Nat.size_zero]
  · rename_i positive
    apply Nat.le_antisymm
    · exact Nat.lt_size.mpr (Nat.log2_self_le positive)
    · exact Nat.size_le.mpr Nat.lt_log2_self

/-- Of two pages of one class the larger one is not four times as large. -/
theorem count_lt_of_tier {page other : Page} (same : page.tier = other.tier)
    (filled : 0 < other.count) : page.count < 4 * other.count := by
  rw [tier, tier, bitLength_eq_size, bitLength_eq_size] at same
  obtain ⟨bits, long⟩ := Nat.exists_eq_succ_of_ne_zero (Nat.ne_of_gt (Nat.size_pos.mpr filled))
  have few : page.count.size ≤ bits + 2 := by omega
  calc
    page.count < 2 ^ page.count.size := Nat.lt_size_self _
    _ ≤ 2 ^ (bits + 2) := Nat.pow_le_pow_right Nat.zero_lt_two few
    _ = 4 * 2 ^ bits := by rw [Nat.pow_add, Nat.mul_comm]
    _ ≤ 4 * other.count := Nat.mul_le_mul_left 4 (Nat.lt_size.mp (long ▸ Nat.lt_succ_self bits))

/-- A page of so many entries at most is in one of so many classes. -/
theorem tier_le {page : Page} {most : Nat} (few : page.count ≤ most) :
    page.tier ≤ bitLength most / 2 := by
  rw [tier, bitLength_eq_size, bitLength_eq_size]
  exact Nat.div_le_div_right (Nat.size_le_size few)

/-- A page of a smaller class has fewer entries. -/
theorem count_lt_of_tier_lt {page other : Page} (less : page.tier < other.tier) :
    page.count < other.count :=
  Nat.lt_of_not_le fun le => Nat.not_le.mpr less (tier_le le)

end Page

/-- What grew by a quarter each time did so logarithmically often. -/
theorem le_of_quarters {times size : Nat} (grown : 5 ^ times ≤ 4 ^ times * size) :
    times ≤ 4 * size.log2 + 3 := by
  by_contra many
  obtain ⟨more, rfl⟩ := Nat.exists_eq_add_of_le (Nat.lt_of_not_le many)
  have doubled : 2 ^ (size.log2 + 1) * 4 ^ (4 * (size.log2 + 1)) ≤ 5 ^ (4 * (size.log2 + 1)) := by
    rw [Nat.pow_mul, Nat.pow_mul, ← Nat.mul_pow]
    exact Nat.pow_le_pow_left (by omega) _
  have below : size < 2 ^ (size.log2 + 1) := Nat.lt_log2_self
  have contradictory := calc
    2 ^ (size.log2 + 1) * 4 ^ (4 * (size.log2 + 1) + more)
      = 2 ^ (size.log2 + 1) * 4 ^ (4 * (size.log2 + 1)) * 4 ^ more := by
        rw [Nat.pow_add 4, Nat.mul_assoc]
    _ ≤ 5 ^ (4 * (size.log2 + 1)) * 5 ^ more :=
        Nat.mul_le_mul doubled (Nat.pow_le_pow_left (by omega) _)
    _ = 5 ^ (4 * (size.log2 + 1) + more) := (Nat.pow_add _ _ _).symm
    _ ≤ 4 ^ (4 * (size.log2 + 1) + more) * size := grown
    _ < 4 ^ (4 * (size.log2 + 1) + more) * 2 ^ (size.log2 + 1) :=
        Nat.mul_lt_mul_of_pos_left below (Nat.pow_pos (by omega))
  rw [Nat.mul_comm] at contradictory
  exact Nat.lt_irrefl _ contradictory

namespace PageStore

variable {pages : List Page}

theorem count_tier (pages : List Page) (tier : Nat) :
    (pages.map Page.tier).count tier = (pages.filter (·.tier = tier)).length := by
  rw [List.count, List.countP_map, List.countP_eq_length_filter]
  rfl

theorem mem_sharedTiers {tier : Nat} :
    tier ∈ sharedTiers pages ↔ 2 ≤ (pages.filter (·.tier = tier)).length := by
  rw [sharedTiers, List.mem_filter, decide_eq_true_iff, ← count_tier]
  refine and_iff_right_of_imp fun several => ?_
  exact List.count_pos_iff.mp (Nat.lt_of_succ_lt several)

/-- If no class is shared, the classes are distinct. -/
theorem sharedTiers_eq_nil_iff : sharedTiers pages = [] ↔ (pages.map Page.tier).Nodup := by
  rw [List.eq_nil_iff_forall_not_mem, List.nodup_iff_count_le_one]
  refine forall_congr' fun tier => ?_
  rw [mem_sharedTiers, count_tier, Nat.not_le, Nat.lt_succ_iff]

/-- With more pages than classes there is a class that two share. -/
theorem sharedTiers_ne_nil {most : Nat} (few : ∀ page ∈ pages, page.count ≤ most)
    (many : Page.bitLength most / 2 + 1 < pages.length) : sharedTiers pages ≠ [] := by
  intro none
  have inside : pages.map Page.tier ⊆ List.range (Page.bitLength most / 2 + 1) := by
    intro tier mem
    obtain ⟨page, there, rfl⟩ := List.mem_map.mp mem
    exact List.mem_range.mpr (Nat.lt_succ_of_le (Page.tier_le (few page there)))
  have length := (sharedTiers_eq_nil_iff.mp none).length_le_of_subset inside
  rw [List.length_map, List.length_range] at length
  omega

/-- Where a class is shared, a page that is chosen is not chosen alone. -/
theorem exists_other_chosen (distinct : (pages.map (·.id)).Nodup) (shared : sharedTiers pages ≠ [])
    {id : PageId} (chosen : id ∈ tieredChoice pages) :
    ∃ page ∈ pages, page.id = id ∧
      ∃ other ∈ pages, other.id ≠ id ∧ other.id ∈ tieredChoice pages ∧ page.tier = other.tier := by
  cases smallest : (sharedTiers pages).min? with
  | none => exact absurd (List.min?_eq_none_iff.mp smallest) shared
  | some tier =>
      have choice : tieredChoice pages = (pages.filter (·.tier = tier)).map (·.id) := by
        rw [tieredChoice, smallest]
      have several := mem_sharedTiers.mp (List.min?_mem smallest)
      have tier_eq {page : Page} (mem : page ∈ pages.filter (·.tier = tier)) : page.tier = tier := by
        simpa using (List.mem_filter.mp mem).2
      have choiceDistinct : (tieredChoice pages).Nodup := by
        rw [choice]
        exact (List.filter_sublist.map _).nodup distinct
      have another : ∃ other ∈ tieredChoice pages, other ≠ id := by
        by_contra none
        have alone : tieredChoice pages ⊆ [id] := fun other mem =>
          List.mem_singleton.mpr (by_contra fun different => none ⟨other, mem, different⟩)
        have short := choiceDistinct.length_le_of_subset alone
        rw [choice, List.length_map, List.length_singleton] at short
        omega
      obtain ⟨otherId, otherChosen, different⟩ := another
      have there := choice ▸ chosen
      have otherThere := choice ▸ otherChosen
      obtain ⟨page, pageMem, rfl⟩ := List.mem_map.mp there
      obtain ⟨other, otherMem, rfl⟩ := List.mem_map.mp otherThere
      exact ⟨page, (List.mem_filter.mp pageMem).1, rfl, other, (List.mem_filter.mp otherMem).1,
        different, otherChosen, (tier_eq pageMem).trans (tier_eq otherMem).symm⟩

/-- Beside a page of a greater class two pages are chosen, whether or not they share one. -/
theorem tieredChoice_beside {large first second : Page} (firstLess : first.tier < large.tier)
    (secondLess : second.tier < large.tier) :
    (tieredChoice [large, first, second]).Perm [first.id, second.id] := by
  have firstNe := Nat.ne_of_lt firstLess
  have secondNe := Nat.ne_of_lt secondLess
  by_cases same : first.tier = second.tier
  · have shared : sharedTiers [large, first, second] = [second.tier, second.tier] := by
      simp [sharedTiers, same, secondNe, secondNe.symm]
    have choice : tieredChoice [large, first, second] = [first.id, second.id] := by
      simp [tieredChoice, shared, same, secondNe.symm]
    rw [choice]
  · have single : sharedTiers [large, first, second] = [] := by
      rw [sharedTiers_eq_nil_iff]
      simp [same, firstNe.symm, secondNe.symm]
    have firstSmaller := Page.count_lt_of_tier_lt firstLess
    have secondSmaller := Page.count_lt_of_tier_lt secondLess
    have perm := List.mergeSort_perm [large, first, second] fun a b => a.count ≤ b.count
    have ordered : (([large, first, second].mergeSort fun a b => a.count ≤ b.count).Pairwise
        fun a b => a.count ≤ b.count) := by
      refine (List.pairwise_mergeSort ?_ ?_ _).imp fun below => of_decide_eq_true below
      · exact fun a b c => by simpa using Nat.le_trans
      · exact fun a b => by simpa using Nat.le_total a.count b.count
    have choice : tieredChoice [large, first, second] =
        (([large, first, second].mergeSort fun a b => a.count ≤ b.count).take 2).map (·.id) := by
      simp [tieredChoice, single]
    rw [choice]
    generalize [large, first, second].mergeSort (fun a b => a.count ≤ b.count) = pages at perm ordered
    obtain ⟨least, middle, greatest, rfl⟩ := List.length_eq_three.mp perm.length_eq
    have mem (page : Page) : page = least ∨ page = middle ∨ page = greatest ↔
        page = large ∨ page = first ∨ page = second := by
      simpa using perm.mem_iff
    obtain ⟨⟨leastMiddle, -⟩, middleGreatest⟩ : (least.count ≤ middle.count ∧
        least.count ≤ greatest.count) ∧ middle.count ≤ greatest.count := by
      simpa using ordered
    -- The large page can only be the last one, as both of the others have fewer entries.
    have last : greatest = large := by
      have largeMem := (mem large).mpr (Or.inl rfl)
      have firstMem := (mem first).mpr (Or.inr (Or.inl rfl))
      have secondMem := (mem second).mpr (Or.inr (Or.inr rfl))
      grind
    subst last
    have turned := (List.perm_append_singleton greatest [least, middle]).symm.trans perm
    exact turned.cons_inv.map (·.id)

end PageStore

end FingerprintSet
