import FingerprintSet.Fnv
import Mathlib.Data.Nat.Digits.Defs

/-!
# Words and their bytes

The coding of words is exact: eight bytes spell the word they came from, and the bytes of a
list of words are those of its items one after the other, so an item is found at eight times
its place.
-/

namespace FingerprintSet.Word

@[simp]
theorem length_bytes (word : UInt64) : (bytes word).length = 8 := rfl

@[simp]
theorem length_halfBytes (word : UInt32) : (halfBytes word).length = 4 := rfl

theorem natOfBytes_bytes (word : UInt64) : natOfBytes (bytes word) = word.toNat := by
  have bound := word.toNat_lt
  simp only [bytes, natOfBytes, UInt64.toNat_toUInt8, UInt64.toNat_shiftRight, UInt64.reduceToNat,
    Nat.reduceMod, Nat.shiftRight_eq_div_pow]
  omega

@[simp]
theorem ofBytes_bytes (word : UInt64) : ofBytes (bytes word) = word := by
  rw [ofBytes, natOfBytes_bytes, UInt64.ofNat_toNat]

theorem natOfBytes_halfBytes (word : UInt32) : natOfBytes (halfBytes word) = word.toNat := by
  have bound := word.toNat_lt
  simp only [halfBytes, natOfBytes, UInt32.toNat_toUInt8, UInt32.toNat_shiftRight,
    UInt32.reduceToNat, Nat.reduceMod, Nat.shiftRight_eq_div_pow]
  omega

/-- The bytes of words one after the other. -/
def allBytes (words : List UInt64) : List UInt8 :=
  words.flatMap bytes

@[simp]
theorem allBytes_nil : allBytes [] = [] := rfl

@[simp]
theorem allBytes_cons (word : UInt64) (words : List UInt64) :
    allBytes (word :: words) = bytes word ++ allBytes words := rfl

@[simp]
theorem allBytes_append (first second : List UInt64) :
    allBytes (first ++ second) = allBytes first ++ allBytes second :=
  List.flatMap_append

@[simp]
theorem length_allBytes (words : List UInt64) : (allBytes words).length = 8 * words.length := by
  induction words with
  | nil => rfl
  | cons word words ih =>
      rw [allBytes_cons, List.length_append, length_bytes, ih, List.length_cons]
      omega

theorem drop_allBytes (words : List UInt64) (place : Nat) :
    (allBytes words).drop (8 * place) = allBytes (words.drop place) := by
  induction words generalizing place with
  | nil => simp
  | cons word words ih =>
      cases place with
      | zero => rfl
      | succ place =>
          have shifted : 8 * (place + 1) = (bytes word).length + 8 * place := by
            rw [length_bytes]
            omega
          rw [allBytes_cons, shifted, List.drop_length_add_append, ih, List.drop_succ_cons]

theorem take_allBytes (words : List UInt64) (count : Nat) :
    (allBytes words).take (8 * count) = allBytes (words.take count) := by
  induction words generalizing count with
  | nil => simp
  | cons word words ih =>
      cases count with
      | zero => rfl
      | succ count =>
          have shifted : 8 * (count + 1) = (bytes word).length + 8 * count := by
            rw [length_bytes]
            omega
          rw [allBytes_cons, shifted, List.take_length_add_append, ih, List.take_succ_cons, allBytes_cons]

theorem ofBytesAt_eq {contents : Bytes} {start : Nat} {word : UInt64} {rest : List UInt8}
    (spelled : contents.toList.drop start = bytes word ++ rest) :
    ofBytesAt contents start = word := by
  have piece : (contents.extract start (start + 8)).toList = bytes word := by
    rw [Array.toList_extract, List.extract_eq_take_drop, spelled, Nat.add_sub_cancel_left]
    exact List.take_left' (length_bytes word)
  rw [ofBytesAt, piece, ofBytes_bytes]

/-- The item at a place of a list is spelled from eight times that place on. -/
theorem ofBytesAt_allBytes {contents : Bytes} {words : List UInt64} {place : Nat}
    (spelled : contents.toList = allBytes words) (inside : place < words.length) :
    ofBytesAt contents (place * 8) = words[place] := by
  have split : contents.toList.drop (place * 8) =
      bytes words[place] ++ allBytes (words.drop (place + 1)) := by
    rw [spelled, Nat.mul_comm, drop_allBytes, List.drop_eq_getElem_cons inside, allBytes_cons]
  exact ofBytesAt_eq split

/-- Different lists have different bytes. -/
theorem allBytes_inj {first second : List UInt64} (same : allBytes first = allBytes second) :
    first = second := by
  induction first generalizing second with
  | nil =>
      cases second with
      | nil => rfl
      | cons => simp [bytes] at same
  | cons word words ih =>
      cases second with
      | nil => simp [bytes] at same
      | cons other others =>
          rw [allBytes_cons, allBytes_cons] at same
          obtain ⟨heads, tails⟩ := List.append_inj same rfl
          have wordEq := congrArg ofBytes heads
          rw [ofBytes_bytes, ofBytes_bytes] at wordEq
          rw [wordEq, ih tails]

/-! ## Every byte sequence spells words -/

/-- Bytes spell a number in base 256. -/
theorem natOfBytes_eq_ofDigits (bytes : List UInt8) :
    natOfBytes bytes = Nat.ofDigits 256 (bytes.map UInt8.toNat) := by
  induction bytes with
  | nil => rfl
  | cons byte bytes ih => rw [natOfBytes, ih, List.map_cons, Nat.ofDigits_cons]

theorem forall_toNat_lt (bytes : List UInt8) : ∀ digit ∈ bytes.map UInt8.toNat, digit < 256 :=
  List.forall_mem_map.mpr fun byte _ => byte.toNat_lt

theorem natOfBytes_lt (bytes : List UInt8) : natOfBytes bytes < Nat.pow 256 bytes.length := by
  rw [natOfBytes_eq_ofDigits, ← List.length_map UInt8.toNat]
  exact Nat.ofDigits_lt_base_pow_length (by decide) (forall_toNat_lt bytes)

/-- Byte sequences of one length spell different numbers. -/
theorem natOfBytes_inj {first second : List UInt8} (length : first.length = second.length)
    (same : natOfBytes first = natOfBytes second) : first = second := by
  rw [natOfBytes_eq_ofDigits, natOfBytes_eq_ofDigits] at same
  have numbers := Nat.ofDigits_inj_of_len_eq (by decide) (by simpa using length)
    (forall_toNat_lt first) (forall_toNat_lt second) same
  exact (List.map_inj_right fun _ _ => UInt8.toNat_inj.mp).mp numbers

theorem toNat_ofBytes {eight : List UInt8} (length : eight.length = 8) :
    (ofBytes eight).toNat = natOfBytes eight := by
  have bound := natOfBytes_lt eight
  rw [length] at bound
  rw [ofBytes, UInt64.toNat_ofNat']
  exact Nat.mod_eq_of_lt bound

/-- Eight bytes spell different words. -/
theorem ofBytes_inj {first second : List UInt8} (length : first.length = 8)
    (lengthToo : second.length = 8) (same : ofBytes first = ofBytes second) : first = second := by
  apply natOfBytes_inj (length.trans lengthToo.symm)
  rw [← toNat_ofBytes length, same, toNat_ofBytes lengthToo]

@[simp]
theorem bytes_ofBytes {eight : List UInt8} (length : eight.length = 8) :
    bytes (ofBytes eight) = eight :=
  ofBytes_inj (length_bytes _) length (ofBytes_bytes _)

/-- Bytes whose number is a multiple of eight are those of some words. -/
theorem exists_allBytes {spelled : List UInt8} {count : Nat} (length : spelled.length = 8 * count) :
    ∃ words : List UInt64, words.length = count ∧ allBytes words = spelled := by
  induction count generalizing spelled with
  | zero => exact ⟨[], rfl, (List.length_eq_zero_iff.mp length).symm⟩
  | succ count ih =>
      have first : (spelled.take 8).length = 8 := by
        rw [List.length_take]
        omega
      have others : (spelled.drop 8).length = 8 * count := by
        rw [List.length_drop]
        omega
      obtain ⟨words, counted, rest⟩ := ih others
      refine ⟨ofBytes (spelled.take 8) :: words, congrArg Nat.succ counted, ?_⟩
      rw [allBytes_cons, bytes_ofBytes first, rest, List.take_append_drop]

end FingerprintSet.Word
