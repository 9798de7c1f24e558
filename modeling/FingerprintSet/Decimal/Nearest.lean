import FingerprintSet.Text.Digits

/-!
# The nearest floating-point number

The bits of the floating-point number of 64 bits that lies nearest to a fraction.  Of two that
lie equally near it is the one whose last bit is zero; what is beyond the largest finite number
becomes infinite.  All arithmetic is exact.
-/

namespace FingerprintSet.Decimal

/-- The bits of infinity. -/
def infinityBits : Nat := 0x7ff0000000000000

/-- The sign bit. -/
def signBit : Nat := 0x8000000000000000

/-- The bit in front of the fraction, which the exponent starts with. -/
def unitBit : Nat := 0x10000000000000

/-- A quotient rounded to the nearest integer, to the even one of two. -/
def roundDiv (num den : Nat) : Nat :=
  let quotient := num / den
  let twice := 2 * (num % den)
  if twice < den ∨ (twice = den ∧ quotient % 2 = 0) then quotient else quotient + 1

/-- The fraction `num / den` times a power of two, rounded to an integer. -/
def roundScaled (num den : Nat) (exponent : Int) : Nat :=
  match exponent with
  | .ofNat e => roundDiv (num * Nat.pow 2 e) den
  | .negSucc e => roundDiv num (den * Nat.pow 2 (e + 1))

/-- The greatest integer whose power of two is not above the positive fraction `num / den`. -/
def floorLog2 (num den : Nat) : Int :=
  let guess : Int := (num.log2 : Int) - (den.log2 : Int)
  let above : Bool :=
    match guess with
    | .ofNat e => num < den * Nat.pow 2 e
    | .negSucc e => num * Nat.pow 2 (e + 1) < den
  if above then guess - 1 else guess

/-- The bits of the number nearest to the positive fraction `num / den`. -/
def nearestBits (num den : Nat) : Nat :=
  let unit := max (-1074) (floorLog2 num den - 52)
  min infinityBits ((unit + 1074).toNat * unitBit + roundScaled num den (-unit))

/-- The bits of the number nearest to `mantissa * 10 ^ exponent`.  Exponents so large or small
that the outcome is certain are not worked out. -/
def bitsOf (mantissa : Nat) (exponent : Int) : Nat :=
  if mantissa = 0 then
    0
  else
    match exponent with
    | .ofNat e => if 400 < e then infinityBits else nearestBits (mantissa * Nat.pow 10 e) 1
    | .negSucc e =>
        if (Text.digits mantissa).length + 400 < e then 0
        else nearestBits mantissa (Nat.pow 10 (e + 1))

/-- The number nearest to a decimal. -/
def nearest (negative : Bool) (mantissa : Nat) (exponent : Int) : Float :=
  Float.ofBits (UInt64.ofNat (bitsOf mantissa exponent + if negative then signBit else 0))

end FingerprintSet.Decimal
