import FingerprintSet.Proofs.Fnv
import Mathlib.Logic.Function.Defs

/-!
# The mix keeps seeds and neighbouring fingerprints apart

Folding the high half of a hash into the low one can be undone by folding again, as the high half
stays as it was.  With that a mix is a hash of eight rounds that differs wherever the hash does: for
different seeds, since all rounds keep different states apart, and for fingerprints that differ in
one byte, since the round that takes it in tells the two apart.
-/

namespace FingerprintSet

namespace Word

/-- The number of places at which the bytes of two words differ. -/
def byteDistance (first second : UInt64) : Nat :=
  ((bytes first).zip (bytes second)).countP fun pair => pair.1 ≠ pair.2

/-- Lists that differ nowhere are equal. -/
theorem eq_of_countP_zip {first second : List UInt8} (length : first.length = second.length)
    (none : (first.zip second).countP (fun pair => pair.1 ≠ pair.2) = 0) : first = second := by
  induction first generalizing second with
  | nil => exact (List.length_eq_zero_iff.mp length.symm).symm
  | cons byte bytes ih =>
      obtain ⟨other, others, rfl⟩ := List.exists_cons_of_length_eq_add_one length.symm
      rw [List.zip_cons_cons, List.countP_cons] at none
      by_cases same : byte = other
      · rw [same, ih (Nat.succ.inj length) (by omega)]
      · simp [same] at none

/-- Of two lists that differ at one place, each is the other one with another byte there. -/
theorem exists_set_of_countP_zip {first second : List UInt8} (length : first.length = second.length)
    (one : (first.zip second).countP (fun pair => pair.1 ≠ pair.2) = 1) :
    ∃ place byte, ∃ inside : place < first.length,
      byte ≠ first[place] ∧ second = first.set place byte := by
  induction first generalizing second with
  | nil => simp at one
  | cons byte bytes ih =>
      obtain ⟨other, others, rfl⟩ := List.exists_cons_of_length_eq_add_one length.symm
      rw [List.zip_cons_cons, List.countP_cons] at one
      by_cases same : byte = other
      · simp only [same, ne_eq, not_true_eq_false, decide_false, Bool.false_eq_true, if_false,
          Nat.add_zero] at one
        obtain ⟨place, changed, inside, differs, set⟩ := ih (Nat.succ.inj length) one
        refine ⟨place + 1, changed, Nat.succ_lt_succ inside, differs, ?_⟩
        rw [same, set, List.set_cons_succ]
      · simp only [ne_eq, same, not_false_eq_true, decide_true, if_true, Nat.add_eq_right] at one
        refine ⟨0, other, Nat.succ_pos _, Ne.symm same, ?_⟩
        rw [eq_of_countP_zip (Nat.succ.inj length) one, List.set_cons_zero]

end Word

namespace Fnv

/-- The high half of a hash folded into the low one. -/
def folded (hash : UInt64) : UInt64 :=
  hash ^^^ (hash >>> 32)

theorem mix_eq (fp : Fingerprint) (seed : UInt64) :
    mix fp seed = folded (absorbAll (basis ^^^ seed) (Word.bytes fp)) := rfl

theorem shiftRight_twice (hash : UInt64) : hash >>> 32 >>> 32 = 0 := by
  apply UInt64.toNat_inj.mp
  have bound := hash.toNat_lt
  simp only [UInt64.toNat_shiftRight, UInt64.reduceToNat, Nat.reduceMod,
    Nat.shiftRight_eq_div_pow]
  omega

/-- Folding again gives the hash back. -/
theorem folded_folded (hash : UInt64) : folded (folded hash) = hash := by
  rw [folded, folded, UInt64.shiftRight_xor, shiftRight_twice, UInt64.xor_zero, UInt64.xor_assoc,
    UInt64.xor_self, UInt64.xor_zero]

theorem folded_injective : Function.Injective folded :=
  Function.LeftInverse.injective folded_folded

/-- For each fingerprint, different seeds give different mixes; for each seed, so do fingerprints
that differ in exactly one byte. -/
theorem mix_separates :
    (∀ fp, Function.Injective (mix fp)) ∧
      ∀ seed first second, Word.byteDistance first second = 1 →
        mix first seed ≠ mix second seed := by
  constructor
  · intro fp seed other same
    rw [mix_eq, mix_eq] at same
    have states : basis ^^^ seed = basis ^^^ other := absorbAll_inj (folded_injective same)
    exact (UInt64.xor_right_inj basis).mp states
  · intro seed first second one same
    rw [mix_eq, mix_eq] at same
    have lengths : (Word.bytes first).length = (Word.bytes second).length := rfl
    obtain ⟨place, byte, inside, differs, set⟩ := Word.exists_set_of_countP_zip lengths one
    have hashes := folded_injective same
    rw [set] at hashes
    exact absorbAll_set_ne inside differs hashes.symm

/-- Two fingerprints that differ in their highest bit, under the seed that makes the start state
zero. -/
theorem mix_separates_highest :
    Word.byteDistance 0x8000000000000000 0 = 1 ∧
      mix 0x8000000000000000 basis ≠ mix 0 basis := by
  have one : Word.byteDistance 0x8000000000000000 0 = 1 := by decide
  exact ⟨one, mix_separates.2 basis _ _ one⟩

end Fnv

end FingerprintSet
