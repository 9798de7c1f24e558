import FingerprintSet.Proofs.Checkpoint.Generation

/-!
# What belongs in a checkpoint

Each segment has one file, and its number is the one that the top bits of its fingerprints form.  So
what the files hold follows from the number of bits and the fingerprints alone, and not from how or
where a set keeps them.
-/

namespace FingerprintSet.Checkpoint

/-- Whether so many top bits of a fingerprint form a given number. -/
def isTop (bits index : Nat) (fp : Fingerprint) : Bool :=
  fp.toNat / Nat.pow 2 (64 - bits) = index

/-- What belongs in the file of one segment. -/
def shareOf (bits : Nat) (held : List Fingerprint) (index : Nat) : Part where
  index := index
  held := sorted (held.filter (isTop bits index))

/-- What belongs in the files of all segments. -/
def sharesOf (bits : Nat) (held : List Fingerprint) : List Part :=
  (List.range (Nat.pow 2 bits)).map (shareOf bits held)

variable {bits index : Nat} {held other : List Fingerprint}

theorem mem_shareOf {fp : Fingerprint} : fp ∈ (shareOf bits held index).held ↔
    fp ∈ held ∧ fp.toNat / Nat.pow 2 (64 - bits) = index := by
  rw [shareOf, mem_sorted, List.mem_filter, isTop, decide_eq_true_iff]

theorem shareOf_ascending (bits : Nat) (held : List Fingerprint) (index : Nat) :
    Ascending (shareOf bits held index).held :=
  sorted_ascending _

/-- The top bits of a fingerprint form the number of a file. -/
theorem top_lt (bits : Nat) (fp : Fingerprint) :
    fp.toNat / Nat.pow 2 (64 - bits) < Nat.pow 2 bits := by
  have wide : 64 ≤ 64 - bits + bits := by omega
  have small : fp.toNat < Nat.pow 2 (64 - bits) * Nat.pow 2 bits :=
    calc fp.toNat
      _ < 2 ^ 64 := fp.toNat_lt
      _ ≤ 2 ^ (64 - bits + bits) := Nat.pow_le_pow_right Nat.zero_lt_two wide
      _ = 2 ^ (64 - bits) * 2 ^ bits := Nat.pow_add 2 (64 - bits) bits
  exact Nat.div_lt_of_lt_mul small

/-- The files share out all fingerprints. -/
theorem sharesOf_perm (bits : Nat) (held : List Fingerprint) :
    ((sharesOf bits held).flatMap (·.held)).Perm (sorted held) := by
  have distinct : ((sharesOf bits held).flatMap (·.held)).Nodup := by
    rw [sharesOf, List.flatMap_map]
    refine List.pairwise_flatMap.mpr ⟨fun index _ => (shareOf_ascending bits held index).nodup, ?_⟩
    apply List.Pairwise.imp _ List.nodup_range
    rintro first second different fp mem _ other rfl
    exact different ((mem_shareOf.mp mem).2.symm.trans (mem_shareOf.mp other).2)
  refine (List.perm_ext_iff_of_nodup distinct (sorted_ascending held).nodup).mpr fun fp => ?_
  rw [mem_sorted, List.mem_flatMap]
  constructor
  · rintro ⟨part, chosen, mem⟩
    obtain ⟨index, -, rfl⟩ := List.mem_map.mp chosen
    exact (mem_shareOf.mp mem).1
  · intro mem
    exact ⟨_, List.mem_map_of_mem (List.mem_range.mpr (top_lt bits fp)), mem_shareOf.mpr ⟨mem, rfl⟩⟩

/-- Only which fingerprints there are matters, not their order nor how often they come. -/
theorem shareOf_congr (same : ∀ fp, fp ∈ held ↔ fp ∈ other) :
    shareOf bits held index = shareOf bits other index := by
  have members (fp : Fingerprint) :
      fp ∈ (shareOf bits held index).held ↔ fp ∈ (shareOf bits other index).held := by
    rw [mem_shareOf, mem_shareOf, same]
  exact congrArg (Part.mk index)
    ((shareOf_ascending bits held index).ext (shareOf_ascending bits other index) members)

theorem sharesOf_congr (same : ∀ fp, fp ∈ held ↔ fp ∈ other) :
    sharesOf bits held = sharesOf bits other :=
  List.map_congr_left fun _ _ => shareOf_congr same

/-- Without any bits there is one file with everything. -/
theorem sharesOf_zero (held : List Fingerprint) :
    sharesOf 0 held = [{ index := 0, held := sorted held }] := by
  have every (fp : Fingerprint) : isTop 0 0 fp = true :=
    decide_eq_true (Nat.div_eq_of_lt fp.toNat_lt)
  have all : held.filter (isTop 0 0) = held := List.filter_eq_self.mpr fun fp _ => every fp
  show [shareOf 0 held 0] = _
  rw [shareOf, all]

end FingerprintSet.Checkpoint
