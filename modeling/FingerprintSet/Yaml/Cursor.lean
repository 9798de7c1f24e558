/-!
# Places in a YAML text

A cursor stands before the next character of a text and knows its line and column, which decide
how deep a thing is nested.  The character NUL stands for the end of the text, and ends it.
-/

namespace FingerprintSet.Yaml

/-- Whether a character ends the text. -/
def isEnd (c : Char) : Bool :=
  c = '\x00'

/-- Whether a character is a line break. -/
def isBreak (c : Char) : Bool :=
  c = '\n' || c = '\r'

/-- Whether a character is a blank within a line. -/
def isBlank (c : Char) : Bool :=
  c = ' ' || c = '\t'

/-- Whether a character ends a line. -/
def endsLine (c : Char) : Bool :=
  isBreak c || isEnd c

/-- Whether a character ends a word. -/
def endsWord (c : Char) : Bool :=
  isBlank c || endsLine c

/-- Whether a character is a mark between or around the parts of a bracketed collection. -/
def isFlowMark (c : Char) : Bool :=
  c = ',' || c = '[' || c = ']' || c = '\x7b' || c = '\x7d'

/-- Whether a character may stand in the name of an anchor. -/
def isNameChar (c : Char) : Bool :=
  c.isAlphanum || c = '_' || c = '-'

/-- A place before the next character of a text. -/
structure Cursor where
  rest : List Char
  line : Nat := 1
  column : Nat := 0
  offset : Nat := 0
  deriving Inhabited

namespace Cursor

/-- The next character. -/
def head (cursor : Cursor) : Char :=
  cursor.rest.headD '\x00'

/-- The character behind the next `n` ones. -/
def peek (cursor : Cursor) (n : Nat) : Char :=
  cursor.rest.getD n '\x00'

/-- The place behind the next character.  A line feed starts a line. -/
def next (cursor : Cursor) : Cursor :=
  match cursor.rest with
  | [] => cursor
  | c :: rest =>
      if c = '\n' then
        { rest, line := cursor.line + 1, column := 0, offset := cursor.offset + 1 }
      else
        { cursor with rest, column := cursor.column + 1, offset := cursor.offset + 1 }

/-- The place behind the next `n` characters. -/
def skip (cursor : Cursor) : Nat → Cursor
  | 0 => cursor
  | n + 1 => cursor.next.skip n

/-- The place behind a line break. -/
def skipBreak (cursor : Cursor) : Cursor :=
  if cursor.head = '\r' ∧ cursor.peek 1 = '\n' then cursor.skip 2
  else if isBreak cursor.head then cursor.next
  else cursor

/-- The next characters for as long as they fulfil a condition. -/
def takeWhile (cursor : Cursor) (p : Char → Bool) : List Char :=
  cursor.rest.takeWhile fun c => !isEnd c && p c

/-- The place behind the next characters that fulfil a condition. -/
def skipWhile (cursor : Cursor) (p : Char → Bool) : Cursor :=
  cursor.skip (cursor.takeWhile p).length

/-- Whether three of a character stand alone at the start of a line. -/
def isMark (cursor : Cursor) (c : Char) : Bool :=
  cursor.column = 0 && cursor.head = c && cursor.peek 1 = c && cursor.peek 2 = c
    && endsWord (cursor.peek 3)

/-- Whether a document starts or ends here. -/
def atDocumentMark (cursor : Cursor) : Bool :=
  cursor.isMark '-' || cursor.isMark '.'

/-- The place behind blanks and a comment at the end of a line, if there is nothing else. -/
def finishLine? (cursor : Cursor) : Option Cursor :=
  let cursor := cursor.skipWhile isBlank
  let cursor := if cursor.head = '#' then cursor.skipWhile fun c => !isBreak c else cursor
  if endsLine cursor.head then some cursor.skipBreak else none

end Cursor

end FingerprintSet.Yaml
