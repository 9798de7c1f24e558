import FingerprintSet.Text.Digits
import FingerprintSet.Text.Utf8

/-!
# Tokens of JSON

The lexical layer of JSON: brackets, words, numerals and strings, with blanks between them.
A numeral keeps its digits and a string keeps the bytes between its quotes, escapes and all;
what they stand for is asked for separately, because not every reader needs to know.  A string
that nobody asks about may hold bytes that are no text.
-/

namespace FingerprintSet.Json

open Text

/-- The byte of an ASCII character. -/
def ascii (c : Char) : UInt8 :=
  c.toNat.toUInt8

/-- The bytes of an ASCII text. -/
def asciiText (text : String) : List UInt8 :=
  text.toList.map ascii

/-- The character of an ASCII byte; other bytes give characters that JSON has no use for. -/
def asciiChar (byte : UInt8) : Char :=
  Char.ofNat byte.toNat

/-- A number as it is written. -/
structure Numeral where
  negative : Bool := false
  /-- The digits before the point. -/
  whole : List Nat
  /-- The digits after the point; none if there is no point. -/
  fraction : List Nat := []
  /-- Whether the exponent is negative, and its digits. -/
  exponent : Option (Bool × List Nat) := none
  deriving DecidableEq, Repr, Inhabited

/-- A lexical unit. -/
inductive Token
  | openBrace
  | closeBrace
  | openBracket
  | closeBracket
  | comma
  | colon
  | null
  | bool (value : Bool)
  | number (numeral : Numeral)
  /-- A string by the bytes between its quotes. -/
  | string (raw : List UInt8)
  deriving DecidableEq, Repr, Inhabited

/-! ## Numerals -/

namespace Numeral

/-- The numeral of a natural number. -/
def ofNat (n : Nat) : Numeral where
  whole := digits n

/-- The natural number that a numeral without sign, point and exponent spells. -/
def natural? (numeral : Numeral) : Option Nat :=
  if numeral.negative ∨ numeral.fraction ≠ [] ∨ numeral.exponent.isSome then none
  else some (ofDigits numeral.whole)

/-- The bytes of digits. -/
def digitBytes (ds : List Nat) : List UInt8 :=
  ds.map fun d => ascii (digitChar d)

/-- The bytes of a numeral. -/
def bytes (numeral : Numeral) : List UInt8 :=
  (if numeral.negative then [ascii '-'] else []) ++ digitBytes numeral.whole
    ++ (if numeral.fraction = [] then [] else ascii '.' :: digitBytes numeral.fraction)
    ++ (match numeral.exponent with
      | none => []
      | some (negative, ds) =>
          ascii 'e' :: (if negative then [ascii '-'] else []) ++ digitBytes ds)

end Numeral

/-- The digits at the front of some bytes, and what comes after them. -/
def takeDigitBytes : List UInt8 → List Nat × List UInt8
  | [] => ([], [])
  | byte :: rest =>
      match digitValue? (asciiChar byte) with
      | some d =>
          let (ds, rest) := takeDigitBytes rest
          (d :: ds, rest)
      | none => ([], byte :: rest)

/-- The digits before the point: zero stands alone. -/
def takeWhole : List UInt8 → Option (List Nat × List UInt8)
  | [] => none
  | byte :: rest =>
      if byte = ascii '0' then some ([0], rest)
      else
        match takeDigitBytes (byte :: rest) with
        | ([], _) => none
        | found => some found

/-- A point and the digits after it, if there is a point. -/
def takeFraction : List UInt8 → Option (List Nat × List UInt8)
  | [] => some ([], [])
  | byte :: rest =>
      if byte = ascii '.' then
        match takeDigitBytes rest with
        | ([], _) => none
        | found => some found
      else
        some ([], byte :: rest)

/-- The sign and the digits of an exponent. -/
def takeExponentDigits (input : List UInt8) : Option ((Bool × List Nat) × List UInt8) :=
  let (negative, rest) :=
    match input with
    | byte :: rest =>
        if byte = ascii '-' then (true, rest)
        else if byte = ascii '+' then (false, rest)
        else (false, byte :: rest)
    | [] => (false, [])
  match takeDigitBytes rest with
  | ([], _) => none
  | (ds, rest) => some ((negative, ds), rest)

/-- An exponent, if there is one. -/
def takeExponent : List UInt8 → Option (Option (Bool × List Nat) × List UInt8)
  | [] => some (none, [])
  | byte :: rest =>
      if byte = ascii 'e' ∨ byte = ascii 'E' then do
        let (exponent, rest) ← takeExponentDigits rest
        return (some exponent, rest)
      else
        some (none, byte :: rest)

/-- A numeral behind its sign. -/
def takeNumeral (negative : Bool) (input : List UInt8) : Option (Numeral × List UInt8) := do
  let (whole, rest) ← takeWhole input
  let (fraction, rest) ← takeFraction rest
  let (exponent, rest) ← takeExponent rest
  return ({ negative, whole, fraction, exponent }, rest)

/-! ## Strings -/

/-- Whether a byte is a hexadecimal digit. -/
def isHex (byte : UInt8) : Bool :=
  (hexValue? (asciiChar byte)).isSome

/-- Whether a byte behind a backslash is an escape of two characters. -/
def isShortEscape (byte : UInt8) : Bool :=
  (asciiText "\"\\/bfnrt").contains byte

/-- The bytes of a string up to its closing quote, and what comes after it. -/
def takeString : List UInt8 → Option (List UInt8 × List UInt8)
  | [] => none
  | byte :: rest =>
      if byte = ascii '"' then
        some ([], rest)
      else if byte < 0x20 then
        none
      else if byte = ascii '\\' then
        match rest with
        | escape :: rest =>
            if isShortEscape escape then do
              let (raw, after) ← takeString rest
              return (byte :: escape :: raw, after)
            else if escape = ascii 'u' then
              match rest with
              | a :: b :: c :: d :: rest =>
                  if isHex a && isHex b && isHex c && isHex d then do
                    let (raw, after) ← takeString rest
                    return (byte :: escape :: a :: b :: c :: d :: raw, after)
                  else
                    none
              | _ => none
            else
              none
        | [] => none
      else do
        let (raw, after) ← takeString rest
        return (byte :: raw, after)

/-- The number that four hexadecimal digits spell. -/
def hexUnit (a b c d : UInt8) : Nat :=
  [a, b, c, d].foldl (fun n byte => n * 16 + (hexValue? (asciiChar byte)).getD 0) 0

/-- The byte that an escape of two characters stands for. -/
def shortEscape (byte : UInt8) : UInt8 :=
  match asciiChar byte with
  | 'b' => 0x08
  | 'f' => 0x0c
  | 'n' => 0x0a
  | 'r' => 0x0d
  | 't' => 0x09
  | _ => byte

/-- The bytes that a string stands for.  Escapes by number stand for UTF-16 units, so two of
them can make one character, and halves of such a pair are refused. -/
def unescape : List UInt8 → Option (List UInt8)
  | [] => some []
  | byte :: rest =>
      if byte = ascii '\\' then
        match rest with
        | escape :: rest =>
            if escape = ascii 'u' then
              match rest with
              | a :: b :: c :: d :: rest =>
                  let unit := hexUnit a b c d
                  if 0xdc00 ≤ unit ∧ unit < 0xe000 then
                    none
                  else if 0xd800 ≤ unit ∧ unit < 0xdc00 then
                    match rest with
                    | slash :: u :: e :: f :: g :: h :: rest =>
                        let low := hexUnit e f g h
                        if slash = ascii '\\' ∧ u = ascii 'u' ∧ 0xdc00 ≤ low ∧ low < 0xe000 then do
                          let c ← charFrom? 0 (0x10000 + (unit - 0xd800) * 0x400 + (low - 0xdc00))
                          return utf8Encode [c] ++ (← unescape rest)
                        else
                          none
                    | _ => none
                  else do
                    let c ← charFrom? 0 unit
                    return utf8Encode [c] ++ (← unescape rest)
              | _ => none
            else do
              return shortEscape escape :: (← unescape rest)
        | [] => none
      else do
        return byte :: (← unescape rest)

/-- The text that a string stands for. -/
def textOf? (raw : List UInt8) : Option String := do
  let chars ← utf8Decode (← unescape raw)
  return String.ofList chars

/-- The lower-case hexadecimal digit of a number below sixteen. -/
def hexDigit (n : Nat) : UInt8 :=
  ascii (if n < 10 then Char.ofNat ('0'.toNat + n) else Char.ofNat ('a'.toNat + n - 10))

/-- A byte as it is written in a string. -/
def escapeByte (byte : UInt8) : List UInt8 :=
  let short (c : Char) : List UInt8 := [ascii '\\', ascii c]
  if byte = ascii '"' then short '"'
  else if byte = ascii '\\' then short '\\'
  else if byte = 0x08 then short 'b'
  else if byte = 0x0c then short 'f'
  else if byte = 0x0a then short 'n'
  else if byte = 0x0d then short 'r'
  else if byte = 0x09 then short 't'
  else if byte < 0x20 then
    asciiText "\\u00" ++ [hexDigit (byte.toNat / 16), hexDigit (byte.toNat % 16)]
  else
    [byte]

/-- A text as the bytes between the quotes of a string. -/
def rawOf (text : String) : List UInt8 :=
  (utf8Encode text.toList).flatMap escapeByte

/-! ## Token sequences -/

namespace Token

/-- The bytes of a token. -/
def bytes : Token → List UInt8
  | openBrace => [ascii '\x7b']
  | closeBrace => [ascii '\x7d']
  | openBracket => [ascii '[']
  | closeBracket => [ascii ']']
  | comma => [ascii ',']
  | colon => [ascii ':']
  | null => asciiText "null"
  | bool true => asciiText "true"
  | bool false => asciiText "false"
  | number numeral => numeral.bytes
  | string raw => ascii '"' :: raw ++ [ascii '"']

/-- Whether a byte is blank between tokens. -/
def isBlank (byte : UInt8) : Bool :=
  byte = 0x20 || byte = 0x0a || byte = 0x0d || byte = 0x09

/-- The token at the front of some bytes, and what comes after it. -/
def take : List UInt8 → Option (Token × List UInt8)
  | [] => none
  | byte :: rest =>
      let word (text : String) (token : Token) : Option (Token × List UInt8) := do
        let rest ← (asciiText text).isPrefixOf? rest
        return (token, rest)
      match asciiChar byte with
      | '\x7b' => some (openBrace, rest)
      | '\x7d' => some (closeBrace, rest)
      | '[' => some (openBracket, rest)
      | ']' => some (closeBracket, rest)
      | ',' => some (comma, rest)
      | ':' => some (colon, rest)
      | 'n' => word "ull" null
      | 't' => word "rue" (bool true)
      | 'f' => word "alse" (bool false)
      | '"' => do
          let (raw, rest) ← takeString rest
          return (string raw, rest)
      | '-' => do
          let (numeral, rest) ← takeNumeral true rest
          return (number numeral, rest)
      | _ => do
          let (numeral, rest) ← takeNumeral false (byte :: rest)
          return (number numeral, rest)

/-- The tokens of at most `bound` bytes. -/
def takeAll : Nat → List UInt8 → Option (List Token)
  | _, [] => some []
  | 0, _ :: _ => none
  | bound + 1, byte :: rest =>
      if isBlank byte then
        takeAll bound rest
      else do
        let (token, rest) ← take (byte :: rest)
        return token :: (← takeAll bound rest)

/-- The tokens that bytes spell. -/
def ofBytes (bytes : List UInt8) : Option (List Token) :=
  takeAll bytes.length bytes

end Token

end FingerprintSet.Json
