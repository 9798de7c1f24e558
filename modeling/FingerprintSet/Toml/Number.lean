import FingerprintSet.Decimal.Nearest
import FingerprintSet.Settings.Tree
import FingerprintSet.Toml.Token

/-!
# Numbers of TOML

Whole numbers in four bases and decimals.  Digits may be parted by single underscores, and a
number in base ten has no leading zeros.  A decimal runs over several tokens, since its point
and the plus of its exponent are tokens of their own.
-/

namespace FingerprintSet.Toml

open Text

/-- The value of a character that is a digit in the given base. -/
def digitIn? (base : Nat) (c : Char) : Option Nat :=
  (hexValue? c).filter (· < base)

/-- One or more digits with single underscores between them, and what comes after. -/
def takeGroup (base : Nat) : List Char → Option (List Nat × List Char)
  | [] => none
  | [c] => do return ([← digitIn? base c], [])
  | c :: next :: rest => do
      let d ← digitIn? base c
      if next = '_' then do
        let (ds, rest) ← takeGroup base rest
        return (d :: ds, rest)
      else if (digitIn? base next).isSome then do
        let (ds, rest) ← takeGroup base (next :: rest)
        return (d :: ds, rest)
      else
        return ([d], next :: rest)

/-- Whether a text starts with a minus, and what comes after it. -/
def takeMinus : List Char → Bool × List Char
  | '-' :: rest => (true, rest)
  | text => (false, text)

/-- Digits of base ten without leading zeros, and what comes after. -/
def takeWhole (text : List Char) : Option (List Nat × List Char) := do
  let (ds, rest) ← takeGroup 10 text
  match ds with
  | 0 :: _ :: _ => none
  | _ => return (ds, rest)

/-- Digits that make up all of a text. -/
def onlyGroup? (base : Nat) (text : List Char) : Option (List Nat) := do
  let (ds, rest) ← takeGroup base text
  if rest = [] then return ds else none

/-- The whole number that a word without a sign is in a base other than ten. -/
def based? (base : Nat) (text : List Char) : Option Setting := do
  let ds ← onlyGroup? base text
  Setting.ofInt? (ds.foldl (fun n d => n * base + d) 0 : Nat)

/-- The whole number that a word is in base ten. -/
def whole? (word : List Char) : Option Setting := do
  let (negative, text) := takeMinus word
  let (ds, rest) ← takeWhole text
  if rest = [] then
    let n : Int := ofDigits ds
    Setting.ofInt? (if negative then -n else n)
  else
    none

/-- The exponent at the end of a decimal, whose plus and digits may be tokens behind its word. -/
def takeExponent (text : List Char) (tokens : List Token) : Option (Int × List Token) :=
  match text with
  | [] => some (0, tokens)
  | c :: rest =>
      if c = 'e' ∨ c = 'E' then
        match rest with
        | [] =>
            match (if tokens.head? = some .plus then tokens.tail else tokens) with
            | .word digits :: tokens => do
                return ((ofDigits (← onlyGroup? 10 digits) : Int), tokens)
            | _ => none
        | _ => do
            let (negative, digits) := takeMinus rest
            let n : Int := ofDigits (← onlyGroup? 10 digits)
            return (if negative then -n else n, tokens)
      else
        none

/-- The number nearest to a decimal, unless it is too large. -/
def decimal? (negative : Bool) (whole fraction : List Nat) (exponent : Int) : Option Setting :=
  let x := Decimal.nearest negative (ofDigits (whole ++ fraction)) (exponent - fraction.length)
  if x.isFinite then some (.float x) else none

/-- A decimal without a point, and the tokens after it. -/
def takePointless (word : List Char) (tokens : List Token) :
    Option (Setting × List Token) := do
  let (negative, text) := takeMinus word
  let (whole, rest) ← takeWhole text
  let (exponent, tokens) ← takeExponent rest tokens
  return (← decimal? negative whole [] exponent, tokens)

/-- A decimal whose point has been read, and the tokens after it. -/
def takePointed (word : List Char) (tokens : List Token) : Option (Setting × List Token) := do
  let (negative, text) := takeMinus word
  let (whole, rest) ← takeWhole text
  match rest, tokens with
  | [], .word after :: tokens => do
      let (fraction, rest) ← takeGroup 10 after
      let (exponent, tokens) ← takeExponent rest tokens
      return (← decimal? negative whole fraction exponent, tokens)
  | _, _ => none

/-- The infinities and what is not a number, by their words. -/
def special? (word : List Char) : Option Setting :=
  match String.ofList word with
  | "inf" => some (.float (Float.ofBits (UInt64.ofNat Decimal.infinityBits)))
  | "-inf" =>
      some (.float (Float.ofBits (UInt64.ofNat (Decimal.infinityBits + Decimal.signBit))))
  | "nan" => some (.float (0.0 / 0.0))
  | "-nan" => some (.float (0.0 / 0.0))
  | _ => none

/-- A number that starts with a word, and the tokens after it. -/
def takeNumber (word : List Char) (tokens : List Token) : Option (Setting × List Token) :=
  match word with
  | '0' :: 'x' :: digits => do return (← based? 16 digits, tokens)
  | '0' :: 'o' :: digits => do return (← based? 8 digits, tokens)
  | '0' :: 'b' :: digits => do return (← based? 2 digits, tokens)
  | _ =>
      if word.contains 'e' || word.contains 'E' then
        takePointless word tokens
      else
        match tokens with
        | .period :: rest => takePointed word rest
        | _ =>
            match special? word with
            | some setting => some (setting, tokens)
            | none => do return (← whole? word, tokens)

end FingerprintSet.Toml
