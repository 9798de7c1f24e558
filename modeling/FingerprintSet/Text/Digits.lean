/-!
# Decimal digits

Numbers as lists of decimal digits, the most significant one first, and back.
-/

namespace FingerprintSet.Text

/-- The decimal digits of a number, the most significant one first. -/
def digits (n : Nat) : List Nat :=
  if n < 10 then [n] else digits (n / 10) ++ [n % 10]
  termination_by n
  decreasing_by omega

/-- The number that digits spell behind a number already read. -/
def appendDigits (n : Nat) (ds : List Nat) : Nat :=
  ds.foldl (fun n d => n * 10 + d) n

/-- The number that decimal digits spell. -/
def ofDigits (ds : List Nat) : Nat :=
  appendDigits 0 ds

/-- The value of a character that is a decimal digit. -/
def digitValue? (c : Char) : Option Nat :=
  if '0' ≤ c ∧ c ≤ '9' then some (c.toNat - '0'.toNat) else none

/-- The value of a character that is a hexadecimal digit. -/
def hexValue? (c : Char) : Option Nat :=
  if '0' ≤ c ∧ c ≤ '9' then some (c.toNat - '0'.toNat)
  else if 'a' ≤ c ∧ c ≤ 'f' then some (c.toNat - 'a'.toNat + 10)
  else if 'A' ≤ c ∧ c ≤ 'F' then some (c.toNat - 'A'.toNat + 10)
  else none

/-- The character of a decimal digit. -/
def digitChar (d : Nat) : Char :=
  Char.ofNat ('0'.toNat + d)

/-- A number with zeros in front, up to a width. -/
def zeroPadded (width n : Nat) : String :=
  let ds := digits n
  String.ofList ((List.replicate (width - ds.length) 0 ++ ds).map digitChar)

/-- The digits at the front of a text, and what comes after them. -/
def takeDigits : List Char → List Nat × List Char
  | [] => ([], [])
  | c :: rest =>
      match digitValue? c with
      | some d =>
          let (ds, rest) := takeDigits rest
          (d :: ds, rest)
      | none => ([], c :: rest)

end FingerprintSet.Text
