import FingerprintSet.Proofs.Word

/-!
# One changed byte changes the checksum

Each round of the hash can be undone: its multiplier is odd, and the byte goes in by exclusive
or.  So a round keeps different states apart and different bytes apart, and when a sequence
differs in one byte, all rounds behind that byte keep the difference.
-/

namespace FingerprintSet.Fnv

variable {state other : UInt64} {byte another : UInt8}

/-- The number that undoes the multiplier. -/
def inverse : UInt64 := 0xce965057aff6957b

theorem prime_mul_inverse : prime * inverse = 1 := by decide

theorem mul_prime_inj (same : state * prime = other * prime) : state = other := by
  have undone (word : UInt64) : word * prime * inverse = word := by
    rw [UInt64.mul_assoc, prime_mul_inverse, UInt64.mul_one]
  rw [← undone state, same, undone other]

/-- A round keeps different states apart. -/
theorem absorb_inj_state (same : absorb state byte = absorb other byte) : state = other := by
  have undone (word : UInt64) : word ^^^ byte.toUInt64 ^^^ byte.toUInt64 = word := by
    rw [UInt64.xor_assoc, UInt64.xor_self, UInt64.xor_zero]
  rw [← undone state, mul_prime_inj same, undone other]

/-- A round keeps different bytes apart. -/
theorem absorb_inj_byte (same : absorb state byte = absorb state another) : byte = another := by
  have undone (word : UInt64) : state ^^^ (state ^^^ word) = word := by
    rw [← UInt64.xor_assoc, UInt64.xor_self, UInt64.zero_xor]
  apply UInt8.toUInt64_inj.mp
  rw [← undone byte.toUInt64, mul_prime_inj same, undone another.toUInt64]

/-- A difference between two states stays, whatever is taken in. -/
theorem absorbAll_inj {bytes : List UInt8} (same : absorbAll state bytes = absorbAll other bytes) :
    state = other := by
  induction bytes generalizing state other with
  | nil => exact same
  | cons byte bytes ih => exact absorb_inj_state (ih same)

/-- A byte that is replaced by a different one changes the hash. -/
theorem absorbAll_set_ne {bytes : List UInt8} {place : Nat} (inside : place < bytes.length)
    (differs : byte ≠ bytes[place]) :
    absorbAll state (bytes.set place byte) ≠ absorbAll state bytes := by
  intro same
  have split (middle : UInt8) : absorbAll state (bytes.take place ++ middle ::
      bytes.drop (place + 1)) = absorbAll (absorb (absorbAll state (bytes.take place)) middle)
        (bytes.drop (place + 1)) := by
    rw [absorbAll, List.foldl_append, List.foldl_cons]
    rfl
  have whole : bytes.take place ++ bytes[place] :: bytes.drop (place + 1) = bytes := by
    rw [← List.drop_eq_getElem_cons inside, List.take_append_drop]
  have replaced := split byte
  have original := split bytes[place]
  rw [whole] at original
  rw [List.set_eq_take_append_cons_drop, if_pos inside, replaced, original] at same
  exact differs (absorb_inj_byte (absorbAll_inj same))

/-- The checksum of fingerprints is the hash of their bytes. -/
theorem foldl_absorbFingerprint (fps : List Fingerprint) (state : UInt64) :
    fps.foldl absorbFingerprint state = absorbAll state (Word.allBytes fps) := by
  induction fps generalizing state with
  | nil => rfl
  | cons fp fps ih =>
      rw [List.foldl_cons, ih, Word.allBytes_cons, absorbAll, absorbAll, List.foldl_append]
      rfl

theorem checksum_eq (fps : List Fingerprint) :
    checksum fps = absorbAll basis (Word.allBytes fps) :=
  foldl_absorbFingerprint fps basis

end FingerprintSet.Fnv
