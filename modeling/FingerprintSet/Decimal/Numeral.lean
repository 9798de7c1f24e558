import FingerprintSet.Decimal.Nearest

/-!
# Numerals

Numbers as they are written in plain text, with nothing around them: whole numbers, and
decimals with an optional point and exponent.
-/

namespace FingerprintSet.Decimal

open Text

/-- Whether a text starts with a minus, and what comes after its sign. -/
def takeSign : List Char → Bool × List Char
  | '-' :: rest => (true, rest)
  | '+' :: rest => (false, rest)
  | text => (false, text)

/-- The natural number that a text is. -/
def natural? (text : List Char) : Option Nat :=
  match takeDigits text with
  | ([], _) => none
  | (ds, []) => some (ofDigits ds)
  | _ => none

/-- The natural number that a text is, which may have a plus. -/
def unsigned? : List Char → Option Nat
  | '+' :: rest => natural? rest
  | text => natural? text

/-- The whole number that a text is, which may have a sign. -/
def signed? (text : List Char) : Option Int := do
  let (negative, rest) := takeSign text
  let n ← natural? rest
  return if negative then -(n : Int) else n

/-- The exponent that a text is: none, or the letter `e` and a whole number. -/
def exponent? : List Char → Option Int
  | [] => some 0
  | c :: rest => if c = 'e' ∨ c = 'E' then signed? rest else none

/-- The decimal that a text without a sign is, as `mantissa * 10 ^ exponent`. -/
def scientific? (text : List Char) : Option (Nat × Int) := do
  let (whole, rest) := takeDigits text
  let (fraction, rest) :=
    match rest with
    | '.' :: rest => takeDigits rest
    | _ => ([], rest)
  if whole = [] ∧ fraction = [] then none
  else return (ofDigits (whole ++ fraction), (← exponent? rest) - fraction.length)

/-- The bits that a word stands for, in either case. -/
def wordBits? (text : List Char) : Option Nat :=
  match String.ofList (text.map Char.toLower) with
  | "inf" => some infinityBits
  | "infinity" => some infinityBits
  | "nan" => some (infinityBits + 0x8000000000000)
  | _ => none

/-- The floating-point number nearest to what a text is. -/
def float? (text : List Char) : Option Float :=
  let (negative, rest) := takeSign text
  match wordBits? rest with
  | some bits => some (Float.ofBits (UInt64.ofNat (bits + if negative then signBit else 0)))
  | none => do
      let (mantissa, exponent) ← scientific? rest
      return nearest negative mantissa exponent

/-- The floating-point number nearest to a whole number. -/
def ofInt (n : Int) : Float :=
  nearest (n < 0) n.natAbs 0

end FingerprintSet.Decimal
