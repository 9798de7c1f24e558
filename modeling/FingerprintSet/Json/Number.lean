import FingerprintSet.Decimal.Nearest
import FingerprintSet.Json.Token

/-!
# Numbers of JSON

The floating-point number that a numeral stands for.  It is made of as many leading digits as a
word holds and a power of ten, in one multiplication or division, so it can miss the nearest
number by a little.  A numeral beyond the largest finite number stands for none.
-/

namespace FingerprintSet.Json

/-- Digits as a word and a power of ten. -/
structure Significand where
  value : Nat := 0
  exponent : Int := 0
  deriving DecidableEq, Repr, Inhabited

namespace Significand

/-- Whether the word has room for one more digit. -/
def hasRoom (s : Significand) (d : Nat) : Bool :=
  s.value * 10 + d < UInt64.size

/-- Take in digits before the point.  From the first one without room on they only count. -/
def whole (s : Significand) : List Nat → Significand
  | [] => s
  | d :: rest =>
      if s.hasRoom d then whole { s with value := s.value * 10 + d } rest
      else { s with exponent := s.exponent + (rest.length + 1) }

/-- Take in digits behind the point, up to the first one without room. -/
def fraction (s : Significand) : List Nat → Significand
  | [] => s
  | d :: rest =>
      if s.hasRoom d then
        fraction { value := s.value * 10 + d, exponent := s.exponent - 1 } rest
      else
        s

end Significand

/-- The largest power of ten that is a floating-point number. -/
def greatestPower : Nat := 308

/-- A number times a power of ten.  Divisions by more than the largest power take several
steps, at most `bound` of them. -/
def scale (x : Float) (exponent : Int) : Nat → Option Float
  | 0 => some x
  | bound + 1 =>
      if exponent.natAbs ≤ greatestPower then
        let power := Decimal.nearest false 1 exponent.natAbs
        if exponent < 0 then some (x / power)
        else if (x * power).isInf then none
        else some (x * power)
      else if x == 0.0 then some x
      else if 0 ≤ exponent then none
      else scale (x / Decimal.nearest false 1 greatestPower) (exponent + greatestPower) bound

namespace Numeral

/-- The whole number that a numeral without point and exponent spells. -/
def integer? (numeral : Numeral) : Option Int :=
  if numeral.fraction ≠ [] ∨ numeral.exponent.isSome then none
  else
    let n : Int := Text.ofDigits numeral.whole
    some (if numeral.negative then -n else n)

/-- The power of ten that a numeral names. -/
def power (numeral : Numeral) : Int :=
  match numeral.exponent with
  | none => 0
  | some (negative, ds) =>
      let n : Int := Text.ofDigits ds
      if negative then -n else n

/-- The floating-point number that a numeral stands for, if it is not too large. -/
def float? (numeral : Numeral) : Option Float := do
  let s := (({} : Significand).whole numeral.whole).fraction numeral.fraction
  let x ← scale (Decimal.nearest false s.value 0) (s.exponent + numeral.power) 8
  return if numeral.negative then -x else x

end Numeral

end FingerprintSet.Json
