import FingerprintSet.Yaml.Scalar

/-!
# Tokens of YAML

The lexical layer of YAML.  Most of its structure has no characters of its own: a collection in
block form starts with a deeper column and ends with a shallower one, and a key is known for one
only when its colon comes.  The scan therefore remembers where a key could have started and puts
tokens in before it afterwards.
-/

namespace FingerprintSet.Yaml

/-- A lexical unit. -/
inductive Token
  | streamEnd
  | directive
  | documentStart
  | documentEnd
  /-- The start of a sequence in block form. -/
  | sequenceStart
  /-- The start of a mapping in block form. -/
  | mappingStart
  | blockEnd
  | openBracket
  | closeBracket
  | openBrace
  | closeBrace
  | dash
  | comma
  | key
  | value
  | alias (name : String)
  | anchor (name : String)
  | tag (handle suffix : String)
  | scalar (isPlain : Bool) (text : List Char)
  deriving DecidableEq, Repr, Inhabited

/-- A place where a key without a mark of its own may have started. -/
structure KeyStart where
  isPossible : Bool := false
  isRequired : Bool := false
  /-- How many tokens come before it. -/
  index : Nat := 0
  line : Nat := 0
  column : Nat := 0
  offset : Nat := 0
  deriving DecidableEq, Repr, Inhabited

/-- The longest key without a mark of its own. -/
def longestKey : Nat := 1024

/-- A scan in the middle of a text. -/
structure Scan where
  cursor : Cursor
  tokens : Array Token := #[]
  /-- Whether a key may start here. -/
  keyAllowed : Bool := true
  /-- The last possible key of each bracketed collection, innermost first, and of the text. -/
  keys : List KeyStart := [{}]
  /-- The column of the innermost collection in block form. -/
  indent : Int := -1
  /-- The columns of those around it. -/
  outer : List Int := []
  /-- Where a value may follow its key without a blank. -/
  adjacent : Option Nat := none
  deriving Inhabited

namespace Scan

/-- Whether the scan is inside brackets. -/
def inFlow (scan : Scan) : Bool :=
  1 < scan.keys.length

/-- The scan with one more token. -/
def push (scan : Scan) (token : Token) : Scan :=
  { scan with tokens := scan.tokens.push token }

/-- The scan behind a token of so many characters. -/
def pushMark (scan : Scan) (token : Token) (length : Nat) : Scan :=
  { scan with tokens := scan.tokens.push token, cursor := scan.cursor.skip length }

/-- The scan with the last possible key put in place of the innermost one. -/
def withKey (scan : Scan) (key : KeyStart) : Scan :=
  { scan with keys := key :: scan.keys.tail }

/-- The innermost possible key. -/
def lastKey (scan : Scan) : KeyStart :=
  scan.keys.headD {}

/-! ## Columns -/

/-- End the collections in block form that are deeper than a column. -/
def endBlocksTo (column : Int) : List Int → Scan → Scan
  | [], scan => scan
  | above :: outer, scan =>
      if column < scan.indent then
        endBlocksTo column outer { scan.push .blockEnd with indent := above, outer }
      else
        scan

/-- End the collections in block form that are deeper than a column, unless brackets make
columns meaningless. -/
def endBlocks (scan : Scan) (column : Int) : Scan :=
  if scan.inFlow then scan else endBlocksTo column scan.outer scan

/-- Start a collection in block form at a column, if it is deeper than the one around it.  Its
token comes before the one with the given number. -/
def startBlock (scan : Scan) (column : Nat) (token : Token) (index : Nat) : Scan :=
  if !scan.inFlow ∧ scan.indent < column then
    { scan with
      tokens := scan.tokens.insertIdxIfInBounds index token
      indent := column
      outer := scan.indent :: scan.outer }
  else
    scan

/-! ## Keys -/

/-- Give up keys that have become too long or went over a line. -/
def dropStaleKeys (scan : Scan) : Option Scan := do
  let keys ← scan.keys.mapM fun key =>
    if key.isPossible ∧ (key.line < scan.cursor.line
        ∨ key.offset + longestKey < scan.cursor.offset) then
      if key.isRequired then none else some { key with isPossible := false }
    else
      some key
  return { scan with keys }

/-- Give up the innermost possible key. -/
def dropKey (scan : Scan) : Option Scan :=
  let key := scan.lastKey
  if key.isPossible ∧ key.isRequired then none
  else some (scan.withKey { key with isPossible := false })

/-- Remember that a key may start here. -/
def saveKey (scan : Scan) : Option Scan :=
  if scan.keyAllowed then do
    let scan ← scan.dropKey
    return scan.withKey
      { isPossible := true
        isRequired := scan.inFlow && scan.indent == (scan.cursor.column : Int)
        index := scan.tokens.size
        line := scan.cursor.line
        column := scan.cursor.column
        offset := scan.cursor.offset }
  else
    some scan

/-! ## Tokens -/

/-- Pass over blanks, comments and line breaks.  Outside of brackets a key may start on every
new line, and there a tab is no blank. -/
def skipToToken : Nat → Scan → Scan
  | 0, scan => scan
  | bound + 1, scan =>
      let c := scan.cursor.head
      if c = ' ' ∨ (c = '\t' ∧ (scan.inFlow ∨ !scan.keyAllowed)) then
        skipToToken bound { scan with cursor := scan.cursor.next }
      else if isBreak c then
        skipToToken bound
          { scan with
            cursor := scan.cursor.skipBreak
            keyAllowed := scan.keyAllowed || !scan.inFlow }
      else if c = '#' then
        skipToToken bound { scan with cursor := scan.cursor.skipWhile fun c => !isBreak c }
      else
        scan

/-- The end of the text. -/
def finish (scan : Scan) : Option Scan := do
  let cursor := scan.cursor
  let cursor := if cursor.column = 0 then cursor
    else { cursor with column := 0, line := cursor.line + 1 }
  let scan ← ({ scan with cursor }.endBlocks (-1)).dropKey
  return { scan with keyAllowed := false }.push .streamEnd

/-- A version number or other text behind a directive's name. -/
def skipDirective? (name : List Char) (cursor : Cursor) : Option Cursor :=
  if name = "YAML".toList then
    let cursor := cursor.skipWhile isBlank
    let major := cursor.takeWhile Char.isDigit
    let cursor := cursor.skip major.length
    let minor := cursor.next.takeWhile Char.isDigit
    if major = [] ∨ minor = [] ∨ cursor.head ≠ '.' then none
    else (cursor.next.skip minor.length).finishLine?
  else
    (cursor.skipWhile fun c => !isBreak c).finishLine?

/-- A line that starts with a percent sign. -/
def takeDirective (scan : Scan) : Option Scan := do
  let scan ← (scan.endBlocks (-1)).dropKey
  let name := scan.cursor.next.takeWhile isNameChar
  let cursor := scan.cursor.next.skip name.length
  if name = [] ∨ !endsWord cursor.head then none
  else
    let cursor ← skipDirective? name cursor
    return { scan with keyAllowed := false, cursor }.push .directive

/-- A mark that starts or ends a document. -/
def takeDocumentMark (scan : Scan) (token : Token) : Option Scan := do
  let scan ← (scan.endBlocks (-1)).dropKey
  return { scan with keyAllowed := false }.pushMark token 3

/-- A bracket that starts a collection, which may be a key. -/
def openFlow (scan : Scan) (token : Token) : Option Scan := do
  let scan ← scan.saveKey
  return { scan with keys := {} :: scan.keys, keyAllowed := true }.pushMark token 1

/-- A bracket that ends a collection. -/
def closeFlow (scan : Scan) (token : Token) : Option Scan := do
  let scan ← scan.dropKey
  let keys := if scan.inFlow then scan.keys.tail else scan.keys
  return { scan with keys, keyAllowed := false }.pushMark token 1

/-- A comma between brackets. -/
def takeComma (scan : Scan) : Option Scan := do
  let scan ← scan.dropKey
  return { scan with keyAllowed := true }.pushMark .comma 1

/-- A dash in front of an item. -/
def takeDash (scan : Scan) : Option Scan := do
  if scan.inFlow ∨ !scan.keyAllowed then none
  else
    let scan ← (scan.startBlock scan.cursor.column .sequenceStart scan.tokens.size).dropKey
    return { scan with keyAllowed := true }.pushMark .dash 1

/-- A question mark in front of a key. -/
def takeKeyMark (scan : Scan) : Option Scan := do
  if !scan.inFlow ∧ !scan.keyAllowed then none
  else
    let scan ← (scan.startBlock scan.cursor.column .mappingStart scan.tokens.size).dropKey
    return { scan with keyAllowed := !scan.inFlow }.pushMark .key 1

/-- A colon in front of a value.  What may have been a key is one. -/
def takeColon (scan : Scan) : Option Scan :=
  let key := scan.lastKey
  if key.isPossible then
    let scan := { scan with tokens := scan.tokens.insertIdxIfInBounds key.index .key }
    let scan := scan.startBlock key.column .mappingStart key.index
    some ({ scan.withKey { key with isPossible := false } with keyAllowed := false }.pushMark
      .value 1)
  else if !scan.inFlow ∧ !scan.keyAllowed then
    none
  else
    let scan := scan.startBlock scan.cursor.column .mappingStart scan.tokens.size
    some ({ scan with keyAllowed := !scan.inFlow }.pushMark .value 1)

/-- The name of an anchor or an alias. -/
def takeName (scan : Scan) (token : String → Token) : Option Scan := do
  let scan ← scan.saveKey
  let name := scan.cursor.next.takeWhile isNameChar
  let cursor := scan.cursor.next.skip name.length
  if name ≠ [] ∧ (endsWord cursor.head ∨ "?:,]\x7d%@\x60".toList.contains cursor.head) then
    return { scan with keyAllowed := false, cursor }.push (token (String.ofList name))
  else
    none

/-- Whether a character may stand in a tag. -/
def isTagChar (c : Char) : Bool :=
  isNameChar c || ";/?:@&=+$,.!~*'()[]%".toList.contains c

/-- A tag in angle brackets, or one with a handle between exclamation marks. -/
def tagAt (cursor : Cursor) : Option (Token × Cursor) :=
  if cursor.peek 1 = '<' then
    let inner := cursor.skip 2
    let suffix := inner.takeWhile isTagChar
    let after := inner.skip suffix.length
    if suffix ≠ [] ∧ after.head = '>' then some (.tag "" (String.ofList suffix), after.next)
    else none
  else
    let name := cursor.next.takeWhile isNameChar
    let after := cursor.next.skip name.length
    if after.head = '!' then
      let suffix := after.next.takeWhile isTagChar
      if suffix = [] then none
      else
        let handle := '!' :: name ++ ['!']
        some (.tag (String.ofList handle) (String.ofList suffix), after.next.skip suffix.length)
    else
      let suffix := name ++ after.takeWhile isTagChar
      some (.tag "!" (String.ofList suffix), cursor.next.skip suffix.length)

/-- A tag in front of a value. -/
def takeTag (scan : Scan) : Option Scan := do
  let scan ← scan.saveKey
  let (token, cursor) ← tagAt scan.cursor
  if endsWord cursor.head then
    return { scan with keyAllowed := false, cursor }.push token
  else
    none

/-- A block of lines. -/
def takeBlockScalar (scan : Scan) (literal : Bool) : Option Scan := do
  let scan ← scan.saveKey
  let (text, cursor) ← takeBlock literal scan.indent scan.cursor.next
  return { scan with keyAllowed := true, cursor }.push (.scalar false text)

/-- A text in quotes. -/
def takeQuotedScalar (scan : Scan) : Option Scan := do
  let scan ← scan.saveKey
  let (text, cursor) ←
    takeQuoted scan.cursor.head (scan.cursor.rest.length + 1) scan.cursor.next
  return { scan with keyAllowed := false, cursor, adjacent := some cursor.offset }.push
    (.scalar false text)

/-- A text without quotes.  Behind its last line a key may start. -/
def takePlainScalar (scan : Scan) : Option Scan := do
  let scan ← scan.saveKey
  let (text, keyAllowed, cursor) ←
    takePlain scan.inFlow (scan.indent + 1) (scan.cursor.rest.length + 1) none scan.cursor
  return { scan with keyAllowed, cursor }.push (.scalar true text)

/-- Whether the colon here stands in front of a value. -/
def isValueMark (scan : Scan) : Bool :=
  let next := scan.cursor.peek 1
  endsWord next
    || (scan.inFlow && (isFlowMark next || scan.adjacent == some scan.cursor.offset))

/-- The next token, by its first character. -/
def takeToken (scan : Scan) : Option Scan :=
  let c := scan.cursor.head
  let standsAlone := endsWord (scan.cursor.peek 1)
  if isEnd c then scan.finish
  else if scan.cursor.column = 0 ∧ c = '%' then scan.takeDirective
  else if scan.cursor.isMark '-' then scan.takeDocumentMark .documentStart
  else if scan.cursor.isMark '.' then scan.takeDocumentMark .documentEnd
  else if c = '[' then scan.openFlow .openBracket
  else if c = '\x7b' then scan.openFlow .openBrace
  else if c = ']' then scan.closeFlow .closeBracket
  else if c = '\x7d' then scan.closeFlow .closeBrace
  else if c = ',' then scan.takeComma
  else if c = '-' ∧ standsAlone then scan.takeDash
  else if c = '?' ∧ standsAlone then scan.takeKeyMark
  else if c = ':' ∧ scan.isValueMark then scan.takeColon
  else if c = '*' then scan.takeName .alias
  else if c = '&' then scan.takeName .anchor
  else if c = '!' then scan.takeTag
  else if c = '|' ∧ !scan.inFlow then scan.takeBlockScalar true
  else if c = '>' ∧ !scan.inFlow then scan.takeBlockScalar false
  else if c = '\'' ∨ c = '"' then scan.takeQuotedScalar
  else if c = '%' ∨ c = '@' ∨ c = '\x60' then none
  else scan.takePlainScalar

/-- One more token, and those that a change of column brings. -/
def step (scan : Scan) : Option Scan := do
  let scan ← (skipToToken (scan.cursor.rest.length + 1) scan).dropStaleKeys
  (scan.endBlocks scan.cursor.column).takeToken

/-- Scan on to the end of the text, at most `bound` steps. -/
def run : Nat → Scan → Option Scan
  | 0, _ => none
  | bound + 1, scan => do
      let scan ← scan.step
      if scan.tokens.back? = some .streamEnd then return scan else run bound scan

end Scan

/-- The tokens that a text is made of. -/
def Token.ofText (text : List Char) : Option (List Token) := do
  let scan ← Scan.run (text.length + 2) { cursor := { rest := text } }
  return scan.tokens.toList

end FingerprintSet.Yaml
