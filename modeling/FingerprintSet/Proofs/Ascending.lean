import Mathlib.Data.List.Dedup
import Std.Data.TreeSet
import FingerprintSet.Word

/-!
# Ascending lists

A strictly ascending list of fingerprints is a set written down: its members determine it, and
it repeats none of them.
-/

namespace FingerprintSet

/-- Strictly ascending. -/
def Ascending (fps : List Fingerprint) : Prop :=
  fps.Pairwise (· < ·)

namespace Ascending

theorem nil : Ascending [] :=
  List.Pairwise.nil

theorem tail {fp : Fingerprint} {fps : List Fingerprint} (ascending : Ascending (fp :: fps)) :
    Ascending fps :=
  List.Pairwise.tail ascending

theorem cons_cons_iff {first second : Fingerprint} {fps : List Fingerprint} :
    Ascending (first :: second :: fps) ↔ first < second ∧ Ascending (second :: fps) := by
  rw [Ascending, List.pairwise_cons]
  constructor
  · exact fun ⟨below, rest⟩ => ⟨below second List.mem_cons_self, rest⟩
  · rintro ⟨below, rest⟩
    refine ⟨fun other mem => ?_, rest⟩
    rcases List.mem_cons.mp mem with rfl | mem
    · exact below
    · exact UInt64.lt_trans below (List.rel_of_pairwise_cons rest mem)

theorem nodup {fps : List Fingerprint} (ascending : Ascending fps) : fps.Nodup :=
  List.Pairwise.imp (fun below same => UInt64.ne_of_lt below same) ascending

theorem weaken {fps : List Fingerprint} (ascending : Ascending fps) : fps.Pairwise (· ≤ ·) :=
  List.Pairwise.imp (fun below => UInt64.le_of_lt below) ascending

theorem take {fps : List Fingerprint} (ascending : Ascending fps) (count : Nat) :
    Ascending (fps.take count) :=
  List.Pairwise.sublist (List.take_sublist count fps) ascending

theorem drop {fps : List Fingerprint} (ascending : Ascending fps) (count : Nat) :
    Ascending (fps.drop count) :=
  List.Pairwise.sublist (List.drop_sublist count fps) ascending

/-- The members of an ascending list determine it. -/
theorem ext {first second : List Fingerprint} (firstAscending : Ascending first)
    (secondAscending : Ascending second) (same : ∀ fp, fp ∈ first ↔ fp ∈ second) :
    first = second := by
  have perm := (List.perm_ext_iff_of_nodup firstAscending.nodup secondAscending.nodup).mpr
    fun fp => same fp
  exact List.Perm.eq_of_pairwise
    (fun a b _ _ below above => absurd above (UInt64.lt_asymm below)) firstAscending
    secondAscending perm

/-- The members of an ascending list behind its first one are those above it. -/
theorem mem_tail_iff {fp other : Fingerprint} {fps : List Fingerprint}
    (ascending : Ascending (fp :: fps)) : other ∈ fps ↔ other ∈ fp :: fps ∧ other ≠ fp := by
  constructor
  · intro mem
    have above := List.rel_of_pairwise_cons ascending mem
    exact ⟨List.mem_cons_of_mem _ mem, (UInt64.ne_of_lt above).symm⟩
  · rintro ⟨mem, different⟩
    exact (List.mem_cons.mp mem).resolve_left different

/-- The least member of an ascending list comes first. -/
theorem head_eq {fp least : Fingerprint} {fps : List Fingerprint}
    (ascending : Ascending (fp :: fps)) (mem : least ∈ fp :: fps)
    (below : ∀ other ∈ fp :: fps, least ≤ other) : fp = least := by
  rcases List.mem_cons.mp mem with same | later
  · exact same.symm
  · have above := List.rel_of_pairwise_cons ascending later
    exact absurd above (UInt64.not_lt.mpr (below fp List.mem_cons_self))

end Ascending

/-- There are only so many fingerprints. -/
theorem length_le_size {fps : List Fingerprint} (distinct : fps.Nodup) :
    fps.length ≤ UInt64.size := by
  have numbers : (fps.map UInt64.toNat).Nodup := by
    apply List.Pairwise.map _ _ distinct
    exact fun a b different same => different (UInt64.toNat_inj.mp same)
  have subset : fps.map UInt64.toNat ⊆ List.range UInt64.size := by
    intro number mem
    obtain ⟨fp, -, rfl⟩ := List.mem_map.mp mem
    exact List.mem_range.mpr fp.toNat_lt
  simpa using numbers.length_le_of_subset subset

/-! ## Sorting -/

theorem ascending_toList (set : Std.TreeSet Fingerprint) : Ascending set.toList :=
  List.Pairwise.imp (fun ordered => Std.compare_eq_lt.mp ordered) set.ordered_toList

/-- The ascending list with the members of a list. -/
def sorted (fps : List Fingerprint) : List Fingerprint :=
  (Std.TreeSet.ofList fps).toList

theorem sorted_ascending (fps : List Fingerprint) : Ascending (sorted fps) :=
  ascending_toList _

@[simp]
theorem mem_sorted {fps : List Fingerprint} {fp : Fingerprint} : fp ∈ sorted fps ↔ fp ∈ fps := by
  rw [sorted, Std.TreeSet.mem_toList, Std.TreeSet.mem_ofList, List.contains_iff_mem]

/-- Only the members of a list matter. -/
theorem sorted_congr {first second : List Fingerprint}
    (same : ∀ fp, fp ∈ first ↔ fp ∈ second) : sorted first = sorted second := by
  apply (sorted_ascending first).ext (sorted_ascending second)
  intro fp
  rw [mem_sorted, mem_sorted, same]

/-- Sorting only reorders a list that repeats nothing. -/
theorem sorted_perm {fps : List Fingerprint} (nodup : fps.Nodup) : (sorted fps).Perm fps :=
  (List.perm_ext_iff_of_nodup (sorted_ascending fps).nodup nodup).mpr fun _ => mem_sorted

theorem sorted_cons_perm (fp : Fingerprint) (held : List Fingerprint) :
    (if fp ∈ sorted held then sorted held else fp :: sorted held).Perm (sorted (fp :: held)) := by
  by_cases known : fp ∈ sorted held
  · rw [if_pos known]
    apply (List.perm_ext_iff_of_nodup (sorted_ascending _).nodup (sorted_ascending _).nodup).mpr
    intro other
    rw [mem_sorted, mem_sorted, List.mem_cons]
    constructor
    · exact Or.inr
    · rintro (rfl | mem)
      · exact mem_sorted.mp known
      · exact mem
  · rw [if_neg known]
    have distinct := List.nodup_cons.mpr ⟨known, (sorted_ascending held).nodup⟩
    apply (List.perm_ext_iff_of_nodup distinct (sorted_ascending _).nodup).mpr
    intro other
    rw [mem_sorted, List.mem_cons, List.mem_cons, mem_sorted]

/-- Sorting drops nothing exactly from a list that repeats nothing. -/
theorem length_sorted_iff {fps : List Fingerprint} :
    (sorted fps).length = fps.length ↔ fps.Nodup := by
  constructor
  · intro same
    have dedup : (sorted fps).Perm fps.dedup :=
      (List.perm_ext_iff_of_nodup (sorted_ascending _).nodup (List.nodup_dedup _)).mpr fun _ => by
        rw [mem_sorted, List.mem_dedup]
    have whole := (List.dedup_sublist fps).eq_of_length (dedup.length_eq.symm.trans same)
    exact List.dedup_eq_self.mp whole
  · exact fun distinct => (sorted_perm distinct).length_eq

/-! ## Slots -/

/-- What stands in a slot has something before and something behind it. -/
theorem exists_split {α : Type} {items : List α} {slot : Nat} {item : α}
    (here : items[slot]? = some item) :
    ∃ front back, items = front ++ item :: back ∧
      (∀ other, items.set slot other = front ++ other :: back) ∧
      items.eraseIdx slot = front ++ back := by
  obtain ⟨inside, rfl⟩ := List.getElem?_eq_some_iff.mp here
  refine ⟨items.take slot, items.drop (slot + 1), ?_, ?_, ?_⟩
  · rw [← List.drop_eq_getElem_cons inside, List.take_append_drop]
  · intro other
    rw [List.set_eq_take_append_cons_drop, if_pos inside]
  · exact List.eraseIdx_eq_take_drop_succ ..

end FingerprintSet
