import FingerprintSet.Json.Token
import FingerprintSet.Proofs.Text.Digits

/-!
# Reading printed tokens

A token is read back from its bytes: natural numbers up to what ends a numeral, and strings of
plain bytes up to their quote.  Blanks between tokens are passed over.
-/

namespace FingerprintSet.Json

open Text

/-! ## Numerals -/

theorem asciiChar_digit {d : Nat} (small : d < 10) : asciiChar (ascii (digitChar d)) = digitChar d :=
  (by decide : ∀ d < 10, asciiChar (ascii (digitChar d)) = digitChar d) d small

/-- Whether some bytes cannot go on a numeral. -/
def EndsNumeral : List UInt8 → Prop
  | [] => True
  | byte :: _ => digitValue? (asciiChar byte) = none ∧ byte ≠ ascii '.' ∧
      byte ≠ ascii 'e' ∧ byte ≠ ascii 'E'

instance : DecidablePred EndsNumeral
  | [] => isTrue trivial
  | byte :: _ => inferInstanceAs (Decidable (digitValue? (asciiChar byte) = none ∧
      byte ≠ ascii '.' ∧ byte ≠ ascii 'e' ∧ byte ≠ ascii 'E'))

theorem takeDigitBytes_digitBytes {ds : List Nat} (small : ∀ d ∈ ds, d < 10) {rest : List UInt8}
    (ends : EndsNumeral rest) :
    takeDigitBytes (Numeral.digitBytes ds ++ rest) = (ds, rest) := by
  induction ds with
  | nil =>
      cases rest with
      | nil => rfl
      | cons byte rest =>
          show takeDigitBytes (byte :: rest) = _
          rw [takeDigitBytes, ends.1]
  | cons d ds ih =>
      rw [List.forall_mem_cons] at small
      have split : Numeral.digitBytes (d :: ds) ++ rest =
          ascii (digitChar d) :: (Numeral.digitBytes ds ++ rest) := rfl
      rw [split, takeDigitBytes, asciiChar_digit small.1, digitValue?_digitChar small.1, ih small.2]

theorem takeWhole_digits (n : Nat) {rest : List UInt8} (ends : EndsNumeral rest) :
    takeWhole (Numeral.digitBytes (digits n) ++ rest) = some (digits n, rest) := by
  have read := takeDigitBytes_digitBytes (digits_lt n) ends
  rcases Nat.eq_zero_or_pos n with rfl | positive
  · have zero : digits 0 = [0] := by simp [digits]
    rw [zero]
    rfl
  · obtain ⟨d, ds, split, nonzero⟩ := head_digits positive
    have small : d < 10 := digits_lt n d (split ▸ List.mem_cons_self)
    have first : ascii (digitChar d) ≠ ascii '0' :=
      (by decide : ∀ d < 10, d ≠ 0 → ascii (digitChar d) ≠ ascii '0') d small nonzero
    have opened : Numeral.digitBytes (d :: ds) ++ rest =
        ascii (digitChar d) :: (Numeral.digitBytes ds ++ rest) := rfl
    rw [split, opened] at read
    rw [split, opened, takeWhole, if_neg first, read]

theorem takeNumeral_ofNat (n : Nat) {rest : List UInt8} (ends : EndsNumeral rest) :
    takeNumeral false ((Numeral.ofNat n).bytes ++ rest) = some (Numeral.ofNat n, rest) := by
  have bytes : (Numeral.ofNat n).bytes = Numeral.digitBytes (digits n) := by
    simp [Numeral.bytes, Numeral.ofNat]
  have fraction : takeFraction rest = some ([], rest) := by
    cases rest with
    | nil => rfl
    | cons byte rest => rw [takeFraction, if_neg ends.2.1]
  have exponent : takeExponent rest = some (none, rest) := by
    cases rest with
    | nil => rfl
    | cons byte rest => rw [takeExponent, if_neg (not_or.mpr ends.2.2)]
  rw [bytes, takeNumeral, takeWhole_digits n ends]
  simp only [Option.bind_eq_bind, Option.bind_some, fraction, exponent]
  rfl

/-! ## Strings -/

/-- Bytes that stand for themselves in a string. -/
def IsPlain (raw : List UInt8) : Prop :=
  ∀ byte ∈ raw, byte ≠ ascii '"' ∧ ¬byte < 0x20 ∧ byte ≠ ascii '\\'

theorem takeString_plain {raw : List UInt8} (plain : IsPlain raw) (rest : List UInt8) :
    takeString (raw ++ ascii '"' :: rest) = some (raw, rest) := by
  induction raw with
  | nil =>
      show takeString (ascii '"' :: rest) = _
      rw [takeString.eq_def]
      exact if_pos rfl
  | cons byte raw ih =>
      rw [IsPlain, List.forall_mem_cons] at plain
      obtain ⟨⟨notQuote, notControl, notEscape⟩, others⟩ := plain
      rw [List.cons_append, takeString.eq_def]
      dsimp only
      rw [if_neg notQuote, if_neg notControl, if_neg notEscape, ih others]
      rfl

/-! ## Sequences -/

/-- Some bytes are read as these tokens. -/
def Lexes (input : List UInt8) (tokens : List Token) : Prop :=
  ∀ bound, input.length ≤ bound → Token.takeAll bound input = some tokens

theorem Lexes.nil : Lexes [] [] := by
  intro bound _
  cases bound <;> rfl

theorem Lexes.blank {byte : UInt8} {rest : List UInt8} {tokens : List Token}
    (isBlank : Token.isBlank byte = true) (lexes : Lexes rest tokens) :
    Lexes (byte :: rest) tokens := by
  intro bound enough
  cases bound with
  | zero => contradiction
  | succ bound =>
      rw [Token.takeAll, if_pos isBlank]
      exact lexes bound (Nat.le_of_succ_le_succ enough)

theorem Lexes.blanks {count : Nat} {rest : List UInt8} {tokens : List Token}
    (lexes : Lexes rest tokens) : Lexes (List.replicate count 0x20 ++ rest) tokens := by
  induction count with
  | zero => exact lexes
  | succ count ih =>
      rw [List.replicate_succ, List.cons_append]
      exact ih.blank rfl

/-- The first token is read, and then the others. -/
theorem Lexes.token {byte : UInt8} {more rest : List UInt8} {token : Token} {tokens : List Token}
    (visible : Token.isBlank byte = false) (taken : Token.take (byte :: more) = some (token, rest))
    (shorter : rest.length ≤ more.length) (lexes : Lexes rest tokens) :
    Lexes (byte :: more) (token :: tokens) := by
  intro bound enough
  cases bound with
  | zero => contradiction
  | succ bound =>
      have left : rest.length ≤ bound := Nat.le_trans shorter (Nat.le_of_succ_le_succ enough)
      rw [Token.takeAll, if_neg (by rw [visible]; exact Bool.false_ne_true), taken]
      simp only [Option.bind_eq_bind, Option.bind_some, lexes bound left]
      rfl

/-- The tokens that are always the same bytes. -/
inductive IsFixed : Token → Prop
  | openBrace : IsFixed .openBrace
  | closeBrace : IsFixed .closeBrace
  | openBracket : IsFixed .openBracket
  | closeBracket : IsFixed .closeBracket
  | comma : IsFixed .comma
  | colon : IsFixed .colon
  | null : IsFixed .null
  | bool (value : Bool) : IsFixed (.bool value)

theorem Lexes.fixed {token : Token} {rest : List UInt8} {tokens : List Token}
    (isFixed : IsFixed token) (lexes : Lexes rest tokens) :
    Lexes (token.bytes ++ rest) (token :: tokens) := by
  cases isFixed with
  | openBrace => exact lexes.token rfl rfl (Nat.le_refl _)
  | closeBrace => exact lexes.token rfl rfl (Nat.le_refl _)
  | openBracket => exact lexes.token rfl rfl (Nat.le_refl _)
  | closeBracket => exact lexes.token rfl rfl (Nat.le_refl _)
  | comma => exact lexes.token rfl rfl (Nat.le_refl _)
  | colon => exact lexes.token rfl rfl (Nat.le_refl _)
  | null => exact lexes.token rfl rfl (Nat.le_add_right _ 3)
  | bool value =>
      cases value with
      | true => exact lexes.token rfl rfl (Nat.le_add_right _ 3)
      | false => exact lexes.token rfl rfl (Nat.le_add_right _ 4)

theorem take_quote (more : List UInt8) :
    Token.take (ascii '"' :: more) = (do
      let (raw, rest) ← takeString more
      return (Token.string raw, rest)) :=
  rfl

theorem Lexes.string {raw rest : List UInt8} {tokens : List Token} (plain : IsPlain raw)
    (lexes : Lexes rest tokens) :
    Lexes ((Token.string raw).bytes ++ rest) (.string raw :: tokens) := by
  have bytes : (Token.string raw).bytes ++ rest = ascii '"' :: (raw ++ ascii '"' :: rest) := by
    simp [Token.bytes]
  have taken : Token.take (ascii '"' :: (raw ++ ascii '"' :: rest)) =
      some (.string raw, rest) := by
    rw [take_quote, takeString_plain plain]
    rfl
  rw [bytes]
  apply lexes.token rfl taken
  rw [List.length_append, List.length_cons]
  omega

theorem take_digit {d : Nat} (small : d < 10) (more : List UInt8) :
    Token.isBlank (ascii (digitChar d)) = false ∧
      Token.take (ascii (digitChar d) :: more) = (do
        let (numeral, rest) ← takeNumeral false (ascii (digitChar d) :: more)
        return (Token.number numeral, rest)) := by
  have cases : d = 0 ∨ d = 1 ∨ d = 2 ∨ d = 3 ∨ d = 4 ∨ d = 5 ∨ d = 6 ∨ d = 7 ∨ d = 8 ∨ d = 9 := by
    omega
  rcases cases with rfl | rfl | rfl | rfl | rfl | rfl | rfl | rfl | rfl | rfl <;>
    exact ⟨rfl, rfl⟩

theorem Lexes.number {n : Nat} {rest : List UInt8} {tokens : List Token}
    (ends : EndsNumeral rest) (lexes : Lexes rest tokens) :
    Lexes ((Token.number (.ofNat n)).bytes ++ rest) (.number (.ofNat n) :: tokens) := by
  have read := takeNumeral_ofNat n ends
  have bytes : (Token.number (.ofNat n)).bytes = Numeral.digitBytes (digits n) := by
    simp [Token.bytes, Numeral.bytes, Numeral.ofNat]
  have numeral : (Numeral.ofNat n).bytes = Numeral.digitBytes (digits n) := bytes
  rw [numeral] at read
  rw [bytes]
  cases split : digits n with
  | nil =>
      have some := length_digits_pos n
      rw [split] at some
      contradiction
  | cons d ds =>
      have small : d < 10 := digits_lt n d (split ▸ List.mem_cons_self)
      have opened : Numeral.digitBytes (d :: ds) ++ rest =
          ascii (digitChar d) :: (Numeral.digitBytes ds ++ rest) := rfl
      rw [split, opened] at read
      rw [opened]
      obtain ⟨visible, taken⟩ := take_digit small (Numeral.digitBytes ds ++ rest)
      rw [read] at taken
      apply lexes.token visible taken
      rw [List.length_append]
      exact Nat.le_add_left _ _

end FingerprintSet.Json
