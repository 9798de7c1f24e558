import FingerprintSet.Decimal.Numeral
import FingerprintSet.Word
import FingerprintSet.Yaml.Cursor

/-!
# Scalars of YAML

The ways to write a single text: plain, in quotes, or as a block of lines.  Inside the first
two a single line break stands for a blank, and more of them for one less.
-/

namespace FingerprintSet.Yaml

open Text

/-! ## Gaps -/

/-- Blanks and line breaks inside a scalar. -/
inductive Gap
  | blanks (text : List Char)
  | breaks (count : Nat)
  /-- Line breaks behind one that a backslash took away. -/
  | escaped (count : Nat)
  deriving DecidableEq, Repr, Inhabited

/-- What a gap stands for. -/
def Gap.text : Gap → List Char
  | blanks text => text
  | breaks 1 => [' ']
  | breaks count => List.replicate (count - 1) '\n'
  | escaped count => List.replicate count '\n'

/-- Whether a gap goes over the end of a line. -/
def Gap.spansLines : Gap → Bool
  | blanks _ => false
  | _ => true

/-- A gap with what follows it of blanks and line breaks, at most `bound` characters.  A tab
before the column `indent` of a new line is refused. -/
def takeGap (indent : Int) : Nat → Gap → Cursor → Option (Gap × Cursor)
  | 0, gap, cursor => some (gap, cursor)
  | bound + 1, gap, cursor =>
      let c := cursor.head
      if isBlank c then
        match gap with
        | .blanks text => takeGap indent bound (.blanks (text ++ [c])) cursor.next
        | _ =>
            if c = '\t' ∧ cursor.column < indent then none
            else takeGap indent bound gap cursor.next
      else if isBreak c then
        let gap :=
          match gap with
          | .blanks _ => .breaks 1
          | .breaks count => .breaks (count + 1)
          | .escaped count => .escaped (count + 1)
        takeGap indent bound gap cursor.skipBreak
      else
        some (gap, cursor)

/-! ## Plain scalars -/

/-- Whether a plain scalar ends before the next character, which is no blank. -/
def endsPlain (inFlow : Bool) (cursor : Cursor) : Bool :=
  let c := cursor.head
  let next := cursor.peek 1
  (c = ':' && (endsWord next || (inFlow && isFlowMark next))) || (inFlow && isFlowMark c)

/-- The characters of a plain scalar up to the next blank, at most `bound` of them. -/
def takeRun (inFlow : Bool) : Nat → Cursor → List Char × Cursor
  | 0, cursor => ([], cursor)
  | bound + 1, cursor =>
      if endsWord cursor.head || endsPlain inFlow cursor then ([], cursor)
      else
        let (run, after) := takeRun inFlow bound cursor.next
        (cursor.head :: run, after)

/-- A plain scalar behind a gap, whether the gap at its end goes over a line, and the place
behind that gap.  Lines that go on with it start at the column `indent` or later. -/
def takePlain (inFlow : Bool) (indent : Int) :
    Nat → Option Gap → Cursor → Option (List Char × Bool × Cursor)
  | 0, _, _ => none
  | bound + 1, gap, cursor =>
      let atLineStart := (gap.map Gap.spansLines).getD false
      if cursor.atDocumentMark || cursor.head = '#' then
        some ([], atLineStart, cursor)
      else
        let (run, after) := takeRun inFlow (bound + 1) cursor
        let text := if run = [] then [] else ((gap.map Gap.text).getD []) ++ run
        let gap := if run = [] then gap else none
        if isBlank after.head || isBreak after.head then do
          let (next, after) ← takeGap indent (bound + 1) (.blanks []) after
          if !inFlow ∧ after.column < indent then
            return (text, next.spansLines, after)
          else do
            let (more, atLineStart, after) ← takePlain inFlow indent bound (some next) after
            return (text ++ more, atLineStart, after)
        else
          some (text, (gap.map Gap.spansLines).getD false, after)

/-! ## Quoted scalars -/

/-- The character that so many hexadecimal digits name, and the place behind them. -/
def takeCodePoint (digits : Nat) (cursor : Cursor) : Option (Char × Cursor) := do
  let values ← (cursor.rest.take digits).mapM hexValue?
  if values.length = digits then
    let n := values.foldl (fun n d => n * 16 + d) 0
    if h : n.isValidChar then some (Char.ofNatAux n h, cursor.skip digits) else none
  else
    none

/-- The character that a backslash and what follows it stand for, and the place behind. -/
def takeEscape (cursor : Cursor) : Option (Char × Cursor) :=
  let is (c : Char) : Option (Char × Cursor) := some (c, cursor.next)
  match cursor.head with
  | '0' => is '\x00'
  | 'a' => is '\x07'
  | 'b' => is '\x08'
  | 't' => is '\t'
  | '\t' => is '\t'
  | 'n' => is '\n'
  | 'v' => is '\x0b'
  | 'f' => is '\x0c'
  | 'r' => is '\r'
  | 'e' => is '\x1b'
  | ' ' => is ' '
  | '"' => is '"'
  | '\'' => is '\''
  | '\\' => is '\\'
  | 'N' => is '\u0085'
  | '_' => is '\u00a0'
  | 'L' => is '\u2028'
  | 'P' => is '\u2029'
  | 'x' => takeCodePoint 2 cursor.next
  | 'u' => takeCodePoint 4 cursor.next
  | 'U' => takeCodePoint 8 cursor.next
  | _ => none

/-- A scalar behind its opening quote, and the place behind its closing one. -/
def takeQuoted (quote : Char) : Nat → Cursor → Option (List Char × Cursor)
  | 0, _ => none
  | bound + 1, cursor =>
      let c := cursor.head
      let push (c : Char) (after : Cursor) : Option (List Char × Cursor) := do
        let (text, after) ← takeQuoted quote bound after
        return (c :: text, after)
      let pass (gap : Gap) (after : Cursor) : Option (List Char × Cursor) := do
        let (gap, after) ← takeGap 0 (bound + 1) gap after
        if after.atDocumentMark then none
        else do
          let (text, after) ← takeQuoted quote bound after
          return (gap.text ++ text, after)
      if isEnd c then
        none
      else if isBlank c ∨ isBreak c then
        pass (.blanks []) cursor
      else if c = quote then
        if quote = '\'' ∧ cursor.peek 1 = quote then push quote (cursor.skip 2)
        else some ([], cursor.next)
      else if c = '\\' ∧ quote = '"' then
        if isBreak (cursor.peek 1) then
          pass (.escaped 0) cursor.next.skipBreak
        else do
          let (c, after) ← takeEscape cursor.next
          push c after
      else
        push c cursor.next

/-! ## Blocks of lines -/

/-- What becomes of the line breaks at the end of a block. -/
inductive Chomp
  | strip
  | clip
  | keep
  deriving DecidableEq, Repr, Inhabited

/-- What becomes of the last line breaks, by its sign. -/
def takeChomp (cursor : Cursor) : Chomp × Cursor :=
  if cursor.head = '+' then (.keep, cursor.next)
  else if cursor.head = '-' then (.strip, cursor.next)
  else (.clip, cursor)

/-- How much deeper than its surroundings a block is, if that is said. -/
def takeDepth (cursor : Cursor) : Option (Nat × Cursor) :=
  match digitValue? cursor.head with
  | none => some (0, cursor)
  | some 0 => none
  | some d => some (d, cursor.next)

/-- The signs behind the mark of a block, in either order. -/
def takeBlockSigns (cursor : Cursor) : Option (Chomp × Nat × Cursor) := do
  match takeChomp cursor with
  | (.clip, _) => do
      let (depth, after) ← takeDepth cursor
      if depth = 0 then return (.clip, 0, after)
      else
        let (chomp, after) := takeChomp after
        return (chomp, depth, after)
  | (chomp, after) => do
      let (depth, after) ← takeDepth after
      return (chomp, depth, after)

/-- The line breaks before the next line of a block that is not empty, the deepest column on
the way, and the place where the line starts.  Up to `indent` blanks of it are passed over, all
of them if `indent` is zero. -/
def skipEmptyLines (indent : Nat) : Nat → Nat → Nat → Cursor → Option (Nat × Nat × Cursor)
  | 0, _, _, _ => none
  | bound + 1, count, deepest, cursor =>
      let room := if indent = 0 then cursor.rest.length else indent - cursor.column
      let cursor := cursor.skip ((cursor.takeWhile (· = ' ')).length.min room)
      let deepest := max deepest cursor.column
      if (indent = 0 ∨ cursor.column < indent) ∧ cursor.head = '\t' then none
      else if isBreak cursor.head then
        skipEmptyLines indent bound (count + 1) deepest cursor.skipBreak
      else
        some (count, deepest, cursor)

/-- The lines of a block from the column `indent` on.  `held` says whether a line break waits
before the next line, `empty` how many empty lines stand before it, and `blankBefore` whether
the line above starts with a blank. -/
def takeBlockLines (literal : Bool) (chomp : Chomp) (indent : Nat) :
    Nat → Bool → Nat → Bool → Cursor → Option (List Char × Cursor)
  | 0, _, _, _, _ => none
  | bound + 1, held, empty, blankBefore, cursor =>
      let tail : List Char :=
        (if held ∧ chomp ≠ .strip then ['\n'] else [])
          ++ (if chomp = .keep then List.replicate empty '\n' else [])
      if cursor.column = indent ∧ !isEnd cursor.head then
        let startsBlank := isBlank cursor.head
        let joint : List Char :=
          if !literal ∧ held ∧ !blankBefore ∧ !startsBlank then
            if empty = 0 then [' '] else []
          else
            if held then ['\n'] else []
        let line := cursor.takeWhile fun c => !isBreak c
        let text := joint ++ List.replicate empty '\n' ++ line
        let after := cursor.skip line.length
        if isEnd after.head then
          some (text, after)
        else do
          let (empty, _, after) ←
            skipEmptyLines indent (after.rest.length + 1) 0 0 after.skipBreak
          let (more, after) ← takeBlockLines literal chomp indent bound true empty startsBlank after
          return (text ++ more, after)
      else
        some (tail, cursor)

/-- A block of lines behind its mark, inside something at the column `outer`, and the place
behind it. -/
def takeBlock (literal : Bool) (outer : Int) (cursor : Cursor) :
    Option (List Char × Cursor) := do
  let (chomp, depth, after) ← takeBlockSigns cursor
  let after ← after.finishLine?
  let said : Nat := if depth = 0 then 0 else (max outer 0).toNat + depth
  let bound := after.rest.length + 1
  let (empty, deepest, after) ← skipEmptyLines said bound 0 0 after
  let indent := if said = 0 then max deepest (max (outer + 1).toNat 1) else said
  takeBlockLines literal chomp indent bound false empty false after

/-! ## Meaning -/

/-- What a scalar stands for. -/
inductive Scalar
  | void
  | bool (value : Bool)
  | int (value : Int)
  /-- A decimal, or a word that stands for a number beyond all decimals. -/
  | real (text : List Char)
  | text (value : String)
  deriving DecidableEq, Repr, Inhabited

namespace Scalar

/-- The words for numbers that have no digits. -/
def realWords : List String :=
  [".inf", ".Inf", ".INF", "+.inf", "+.Inf", "+.INF", "-.inf", "-.Inf", "-.INF",
    ".nan", "NaN", ".NaN", ".NAN"]

/-- The number if 64 bits with a sign hold it. -/
def small? (n : Int) : Option Int :=
  if Word.isSigned n then some n else none

/-- The whole number that a text is in a base other than ten. -/
def based? (base : Nat) (text : List Char) : Option Int := do
  let (negative, digits) := Decimal.takeSign text
  let values ← digits.mapM hexValue?
  if values = [] ∨ values.any (base ≤ ·) then none
  else
    let n : Nat := values.foldl (fun n d => n * base + d) 0
    small? (if negative then -(n : Int) else n)

/-- The whole number that a text is. -/
def int? (text : List Char) : Option Int :=
  let inBase : Option Int :=
    match text with
    | '0' :: 'x' :: digits => based? 16 digits
    | '0' :: 'o' :: digits => based? 8 digits
    | '+' :: rest => Decimal.signed? rest >>= small?
    | _ => none
  inBase <|> (Decimal.signed? text >>= small?)

/-- Whether a text is a number that may have places. -/
def isReal (text : List Char) : Bool :=
  realWords.contains (String.ofList text) || (Decimal.float? text).isSome

/-- What a plain scalar stands for. -/
def ofPlain (text : List Char) : Scalar :=
  match int? text with
  | some n => int n
  | none =>
      match String.ofList text with
      | "~" => void
      | "null" => void
      | "true" => bool true
      | "false" => bool false
      | word => if isReal text then real text else .text word

/-- What a plain scalar with a tag of the standard set stands for. -/
def ofTagged (tag : String) (text : List Char) : Scalar :=
  match tag, String.ofList text with
  | "bool", "true" => bool true
  | "bool", "false" => bool false
  | "bool", _ => void
  | "int", _ => ((Decimal.signed? text >>= small?).map int).getD void
  | "float", _ => if isReal text then real text else void
  | "null", _ => void
  | _, word => .text word

end Scalar

end FingerprintSet.Yaml
