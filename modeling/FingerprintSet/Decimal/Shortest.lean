import FingerprintSet.Decimal.Nearest

/-!
# The shortest decimal

The decimal with the fewest digits that reads back as a given floating-point number.  Of
several with that few digits it is the one nearest to the number.  The decimals that read back
are those in an interval around the number, so it is enough to look, for one digit, two digits
and so on, at the number's two neighbours among the decimals of that precision.
-/

namespace FingerprintSet.Decimal

/-- A positive floating-point number as `mantissa * 2 ^ exponent`, and the interval of the
reals that are rounded to it. -/
structure Binary where
  mantissa : Nat
  exponent : Int
  /-- Whether the number below is only half as far away as the one above. -/
  closeBelow : Bool
  deriving DecidableEq, Repr, Inhabited

/-- The number that bits without a sign stand for. -/
def Binary.ofBits (bits : Nat) : Binary :=
  let field : Nat := bits / unitBit
  let fraction : Nat := bits % unitBit
  if field = 0 then
    { mantissa := fraction, exponent := -1074, closeBelow := false }
  else
    { mantissa := unitBit + fraction
      exponent := (field : Int) - 1075
      closeBelow := fraction = 0 ∧ 1 < field }

/-- A fraction of natural numbers. -/
structure Ratio where
  num : Nat
  den : Nat
  deriving DecidableEq, Repr, Inhabited

namespace Ratio

/-- A natural number times a power. -/
def scaled (base n : Nat) : Int → Ratio
  | .ofNat e => ⟨n * Nat.pow base e, 1⟩
  | .negSucc e => ⟨n, Nat.pow base (e + 1)⟩

/-- Whether a fraction is less than another one. -/
def lt (a b : Ratio) : Bool :=
  a.num * b.den < b.num * a.den

/-- The distance between two fractions. -/
def distance (a b : Ratio) : Ratio :=
  let x := a.num * b.den
  let y := b.num * a.den
  ⟨(x - y) + (y - x), a.den * b.den⟩

end Ratio

/-- A decimal: `digits * 10 ^ exponent`. -/
structure Digits where
  digits : Nat
  exponent : Int
  deriving DecidableEq, Repr, Inhabited

namespace Binary

/-- The number as a fraction. -/
def value (b : Binary) : Ratio :=
  .scaled 2 b.mantissa b.exponent

/-- Whether a fraction is rounded to the number.  The ends of the interval are, if the
mantissa is even. -/
def takes (b : Binary) (r : Ratio) : Bool :=
  let low := Ratio.scaled 2 (4 * b.mantissa - if b.closeBelow then 1 else 2) (b.exponent - 2)
  let high := Ratio.scaled 2 (4 * b.mantissa + 2) (b.exponent - 2)
  if b.mantissa % 2 = 0 then !r.lt low && !high.lt r else low.lt r && r.lt high

/-- The greatest integer whose power of ten is not above the number. -/
def floorLog10 (b : Binary) : Int :=
  let v := b.value
  if v.den ≤ v.num then
    ((Text.digits (v.num / v.den)).length : Int) - 1
  else
    let length := (Text.digits (v.den / v.num)).length
    if v.den ≤ v.num * Nat.pow 10 (length - 1) then 1 - (length : Int) else -(length : Int)

/-- The decimal with so many digits nearest to the number, if it reads back. -/
def atPrecision (b : Binary) (precision : Nat) : Option Digits :=
  let v := b.value
  let exponent := b.floorLog10 - precision + 1
  let grid := Ratio.scaled 10 1 exponent
  let below := v.num * grid.den / (v.den * grid.num)
  let point (digits : Nat) : Ratio := .scaled 10 digits exponent
  let lowHit := b.takes (point below)
  let highHit := b.takes (point (below + 1))
  let nearerLow := !(v.distance (point (below + 1))).lt (v.distance (point below))
  if lowHit && (nearerLow || !highHit) then some ⟨below, exponent⟩
  else if highHit then
    if below + 1 = Nat.pow 10 precision then some ⟨1, exponent + precision⟩
    else some ⟨below + 1, exponent⟩
  else none

/-- The decimal with the fewest digits, at least `precision`, that reads back. -/
def shortestFrom (b : Binary) (precision : Nat) : Nat → Digits
  | 0 => (b.atPrecision precision).getD ⟨0, 0⟩
  | more + 1 =>
      match b.atPrecision precision with
      | some found => found
      | none => b.shortestFrom (precision + 1) more

/-- The shortest decimal that reads back as the number. -/
def shortest (b : Binary) : Digits :=
  b.shortestFrom 1 16

end Binary

/-- A decimal written out with all its places and no exponent. -/
def Digits.positional (d : Digits) : List Char :=
  let chars := (Text.digits d.digits).map Text.digitChar
  match d.exponent with
  | .ofNat e => chars ++ List.replicate e '0'
  | .negSucc e =>
      let places := e + 1
      let padded := List.replicate (places + 1 - chars.length) '0' ++ chars
      padded.take (padded.length - places) ++ '.' :: padded.drop (padded.length - places)

/-- A floating-point number in its shortest decimal form, with all its places. -/
def text (x : Float) : String :=
  let bits := x.toBits.toNat
  let negative := signBit ≤ bits
  let unsigned := bits % signBit
  if infinityBits < unsigned then
    "NaN"
  else
    let body :=
      if unsigned = infinityBits then "inf".toList
      else if unsigned = 0 then ['0']
      else (Binary.ofBits unsigned).shortest.positional
    String.ofList (if negative then '-' :: body else body)

end FingerprintSet.Decimal
