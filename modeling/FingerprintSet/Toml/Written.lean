import FingerprintSet.Decimal.Shortest
import FingerprintSet.Settings.Tree

/-!
# Written TOML

A setting tree as TOML: first the plain fields, a line each, then a section for every table,
with a blank line before it.  Which quotes a text gets depends on what is in it, so that as
little as possible has to be escaped.
-/

namespace FingerprintSet.Toml

/-! ## Texts -/

/-- The length of the longest run of a character. -/
def longestRun (c : Char) (text : List Char) : Nat :=
  (text.foldl (fun (longest, current) d =>
    let current := if d = c then current + 1 else 0
    (max longest current, current)) (0, 0)).1

/-- Whether a character is a control that no quotes can hold as it is. -/
def needsCode (c : Char) : Bool :=
  (c < ' ' && c ≠ '\t' && c ≠ '\n') || c = '\x7f'

/-- The ways to put a text in quotes. -/
inductive Quoting
  /-- Double quotes, with escapes. -/
  | basic
  /-- Single quotes, without escapes. -/
  | literal
  /-- Three double quotes. -/
  | basicLines
  /-- Three single quotes. -/
  | literalLines
  deriving DecidableEq, Repr, Inhabited

namespace Quoting

/-- The way for a text: the plainest one that needs no escapes, if there is one. -/
def ofText (text : List Char) : Quoting :=
  let singles := longestRun '\'' text
  let doubles := longestRun '"' text
  let hasCodes := text.any needsCode
  let hasEscape := hasCodes || text.contains '\\'
  let hasBreak := text.contains '\n'
  if !hasEscape ∧ doubles = 0 ∧ !hasBreak then basic
  else if !hasCodes ∧ singles = 0 ∧ !hasBreak then literal
  else if !hasEscape ∧ doubles ≤ 2 then basicLines
  else if !hasCodes ∧ singles ≤ 2 then literalLines
  else if hasBreak then basicLines
  else basic

/-- Whether a text may go over several lines. -/
def spansLines : Quoting → Bool
  | basic => false
  | literal => false
  | basicLines => true
  | literalLines => true

/-- The quotes on either side. -/
def mark : Quoting → List Char
  | basic => ['"']
  | literal => ['\'']
  | basicLines => ['"', '"', '"']
  | literalLines => ['\'', '\'', '\'']

/-- Whether backslashes are escapes. -/
def hasEscapes : Quoting → Bool
  | basic => true
  | literal => false
  | basicLines => true
  | literalLines => false

/-- How many double quotes may stand in a row unescaped. -/
def quotesInRow : Quoting → Nat
  | basic => 0
  | literal => 0
  | basicLines => 2
  | literalLines => 2

end Quoting

/-- A number in four upper-case hexadecimal digits. -/
def hexFour (n : Nat) : List Char :=
  let ds := (Nat.toDigits 16 n).map Char.toUpper
  List.replicate (4 - ds.length) '0' ++ ds

/-- A character that is no double quote where backslashes are escapes. -/
def escapeChar (spansLines : Bool) (c : Char) : List Char :=
  match c with
  | '\x08' => ['\\', 'b']
  | '\t' => ['\\', 't']
  | '\n' => if spansLines then ['\n'] else ['\\', 'n']
  | '\x0c' => ['\\', 'f']
  | '\r' => ['\\', 'r']
  | '\\' => ['\\', '\\']
  | c => if c < ' ' ∨ c = '\x7f' then '\\' :: 'u' :: hexFour c.toNat else [c]

/-- A text inside double quotes, behind so many quotes in a row. -/
def escapeText (quoting : Quoting) : Nat → List Char → List Char
  | _, [] => []
  | inRow, c :: rest =>
      if c = '"' then
        if inRow < quoting.quotesInRow then '"' :: escapeText quoting (inRow + 1) rest
        else '\\' :: '"' :: escapeText quoting 0 rest
      else
        escapeChar quoting.spansLines c ++ escapeText quoting 0 rest

/-- A text in quotes.  One that goes over several lines starts on a line of its own. -/
def writeText (text : String) : List Char :=
  let chars := text.toList
  let quoting := Quoting.ofText chars
  let body := if quoting.hasEscapes then escapeText quoting 0 chars else chars
  let start := if quoting.spansLines ∧ chars.contains '\n' then ['\n'] else []
  quoting.mark ++ start ++ body ++ quoting.mark

/-! ## Numbers -/

/-- A floating-point number, always with a point. -/
def writeFloat (x : Float) : List Char :=
  if x.isNaN then "nan".toList
  else
    let text := (Decimal.text x).toList
    if x.isInf ∨ text.contains '.' then text else text ++ ['.', '0']

/-! ## Documents -/

mutual

/-- A value on one line. -/
def writeValue : Setting → List Char
  | .null => []
  | .bool value => (if value then "true" else "false").toList
  | .int value => (toString value).toList
  | .float value => writeFloat value
  | .text value => writeText value
  | .list items => '[' :: writeItems items ++ [']']
  | .table fields => '\x7b' :: writeInline fields ++ ['\x7d']

/-- Values with commas between them. -/
def writeItems : List Setting → List Char
  | [] => []
  | [item] => writeValue item
  | item :: items => writeValue item ++ [',', ' '] ++ writeItems items

/-- Fields on one line with commas between them. -/
def writeInline : List (String × Setting) → List Char
  | [] => []
  | [(name, value)] => ' ' :: name.toList ++ [' ', '=', ' '] ++ writeValue value ++ [' ']
  | (name, value) :: fields =>
      ' ' :: name.toList ++ [' ', '=', ' '] ++ writeValue value ++ [','] ++ writeInline fields

end

/-- A field on a line of its own. -/
def writeField (name : String) (value : Setting) : List Char :=
  name.toList ++ [' ', '=', ' '] ++ writeValue value ++ ['\n']

/-- A table in a section of its own. -/
def writeSection (name : String) (fields : List (String × Setting)) : List Char :=
  ['\n', '['] ++ name.toList ++ [']', '\n'] ++ fields.flatMap fun field =>
    writeField field.1 field.2

/-- A field of the root: a table gets a section. -/
def writeRootField (name : String) : Setting → List Char
  | .table fields => writeSection name fields
  | value => writeField name value

/-- A tree as a document.  The fields of the root that are no tables have to come first. -/
def write (tree : Setting) : String :=
  String.ofList (tree.fields.flatMap fun field => writeRootField field.1 field.2)

end FingerprintSet.Toml
