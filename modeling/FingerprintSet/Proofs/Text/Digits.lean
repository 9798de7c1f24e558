import FingerprintSet.Text.Digits
import Mathlib.Data.Nat.Digits.Lemmas

/-!
# Numbers and their digits

Digits spell the number they came from, also with zeros in front, so names that end in a number
are different for different numbers.  Digits are single bytes, so the length of such a name is
known.
-/

namespace FingerprintSet.Text

/-- The digits of a number but zero are those of the library, which come the other way round. -/
theorem digits_eq {n : Nat} (nonzero : n ≠ 0) : digits n = (Nat.digits 10 n).reverse := by
  fun_induction digits n with
  | case1 n small => rw [Nat.digits_of_lt 10 n nonzero small, List.reverse_singleton]
  | case2 n large ih =>
      have more : n / 10 ≠ 0 := by omega
      rw [ih more, Nat.digits_def' (by decide) (Nat.pos_of_ne_zero nonzero), List.reverse_cons]

theorem digits_zero : digits 0 = [0] := by
  rw [digits, if_pos (by decide)]

/-- What digits spell is what they spell in the library the other way round. -/
theorem ofDigits_eq (ds : List Nat) : ofDigits ds = Nat.ofDigits 10 ds.reverse := by
  rw [Nat.ofDigits_eq_foldr, List.foldr_reverse, ofDigits, appendDigits]
  simp only [Nat.cast_id, Nat.mul_comm 10, Nat.add_comm]

@[simp]
theorem ofDigits_digits (n : Nat) : ofDigits (digits n) = n := by
  rcases Nat.eq_zero_or_pos n with rfl | positive
  · rw [digits_zero]
    rfl
  · rw [digits_eq (Nat.ne_of_gt positive), ofDigits_eq, List.reverse_reverse, Nat.ofDigits_digits]

theorem digits_lt (n : Nat) : ∀ d ∈ digits n, d < 10 := by
  intro d mem
  rcases Nat.eq_zero_or_pos n with rfl | positive
  · rw [digits_zero, List.mem_singleton] at mem
    rw [mem]
    decide
  · rw [digits_eq (Nat.ne_of_gt positive), List.mem_reverse] at mem
    exact Nat.digits_lt_base (by decide) mem

theorem length_digits_pos (n : Nat) : 0 < (digits n).length := by
  rcases Nat.eq_zero_or_pos n with rfl | positive
  · rw [digits_zero]
    decide
  · rw [digits_eq (Nat.ne_of_gt positive), List.length_reverse]
    exact List.length_pos_iff.mpr (Nat.digits_ne_nil_iff_ne_zero.mpr (Nat.ne_of_gt positive))

/-- No zeros stand in front of a number but zero. -/
theorem head_digits {n : Nat} (positive : 0 < n) : ∃ d ds, digits n = d :: ds ∧ d ≠ 0 := by
  have nonzero := Nat.ne_of_gt positive
  have some : Nat.digits 10 n ≠ [] := Nat.digits_ne_nil_iff_ne_zero.mpr nonzero
  refine ⟨_, (Nat.digits 10 n).dropLast.reverse, ?_, Nat.getLast_digit_ne_zero 10 nonzero⟩
  rw [digits_eq nonzero, ← List.reverse_concat, List.dropLast_append_getLast some]

/-- A number below a power of ten has no more digits than the exponent. -/
theorem length_digits_le {n exponent : Nat} (positive : 0 < exponent)
    (below : n < Nat.pow 10 exponent) : (digits n).length ≤ exponent := by
  rcases Nat.eq_zero_or_pos n with rfl | nonzero
  · rw [digits_zero]
    exact positive
  · rw [digits_eq (Nat.ne_of_gt nonzero), List.length_reverse]
    exact (Nat.digits_length_le_iff (by decide) n).mpr below

theorem ofDigits_zeros (count : Nat) (ds : List Nat) :
    ofDigits (List.replicate count 0 ++ ds) = ofDigits ds := by
  induction count with
  | zero => rfl
  | succ count ih => exact ih

/-! ## Characters -/

theorem digitValue?_digitChar {d : Nat} (small : d < 10) : digitValue? (digitChar d) = some d :=
  (by decide : ∀ d < 10, digitValue? (digitChar d) = some d) d small

theorem utf8Size_digitChar {d : Nat} (small : d < 10) : (digitChar d).utf8Size = 1 :=
  (by decide : ∀ d < 10, (digitChar d).utf8Size = 1) d small

/-- Digits are read back up to what is no digit. -/
theorem takeDigits_digitChars {ds : List Nat} (small : ∀ d ∈ ds, d < 10) {rest : List Char}
    (ends : takeDigits rest = ([], rest)) : takeDigits (ds.map digitChar ++ rest) = (ds, rest) := by
  induction ds with
  | nil => exact ends
  | cons d ds ih =>
      rw [List.forall_mem_cons] at small
      rw [List.map_cons, List.cons_append, takeDigits, digitValue?_digitChar small.1, ih small.2]

theorem utf8ByteSize_ofList {cs : List Char} (single : ∀ c ∈ cs, c.utf8Size = 1) :
    (String.ofList cs).utf8ByteSize = cs.length := by
  induction cs with
  | nil => rfl
  | cons c cs ih =>
      rw [List.forall_mem_cons] at single
      rw [String.ofList_cons, String.utf8ByteSize_append, String.utf8ByteSize_singleton, single.1,
        ih single.2, List.length_cons, Nat.add_comm]

/-! ## Numbers with zeros in front -/

/-- The digits of a number with zeros in front. -/
def paddedDigits (width n : Nat) : List Nat :=
  List.replicate (width - (digits n).length) 0 ++ digits n

theorem toList_zeroPadded (width n : Nat) :
    (zeroPadded width n).toList = (paddedDigits width n).map digitChar :=
  String.toList_ofList

theorem paddedDigits_lt (width n : Nat) : ∀ d ∈ paddedDigits width n, d < 10 := by
  intro d mem
  rcases List.mem_append.mp mem with mem | mem
  · rw [List.eq_of_mem_replicate mem]
    decide
  · exact digits_lt n d mem

theorem ofDigits_paddedDigits (width n : Nat) : ofDigits (paddedDigits width n) = n := by
  rw [paddedDigits, ofDigits_zeros, ofDigits_digits]

theorem paddedDigits_ne_nil (width n : Nat) : paddedDigits width n ≠ [] := by
  have positive := length_digits_pos n
  apply List.ne_nil_of_length_pos
  rw [paddedDigits, List.length_append]
  omega

theorem takeDigits_zeroPadded (width n : Nat) :
    takeDigits (zeroPadded width n).toList = (paddedDigits width n, []) := by
  have read := @takeDigits_digitChars _ (paddedDigits_lt width n) [] rfl
  rwa [List.append_nil, ← toList_zeroPadded] at read

/-- Different numbers are written differently. -/
theorem zeroPadded_inj {width first second : Nat} :
    zeroPadded width first = zeroPadded width second ↔ first = second := by
  constructor
  · intro same
    have read := takeDigits_zeroPadded width first
    rw [same, takeDigits_zeroPadded] at read
    rw [← ofDigits_paddedDigits width first, ← (Prod.mk.inj read).1, ofDigits_paddedDigits]
  · rintro rfl
    rfl

theorem utf8ByteSize_zeroPadded (width n : Nat) :
    (zeroPadded width n).utf8ByteSize = max width (digits n).length := by
  rw [zeroPadded, utf8ByteSize_ofList]
  · rw [List.length_map, List.length_append, List.length_replicate]
    omega
  · intro c mem
    obtain ⟨d, digit, rfl⟩ := List.mem_map.mp mem
    exact utf8Size_digitChar (paddedDigits_lt width n d digit)

/-- A written number holds nothing but digits. -/
theorem not_mem_zeroPadded {width n : Nat} {c : Char} (other : digitValue? c = none) :
    c ∉ (zeroPadded width n).toList := by
  rw [toList_zeroPadded]
  intro mem
  obtain ⟨d, digit, rfl⟩ := List.mem_map.mp mem
  rw [digitValue?_digitChar (paddedDigits_lt width n d digit)] at other
  contradiction

end FingerprintSet.Text
