import FingerprintSet.Text.Digits

/-!
# Tokens of TOML

The lexical layer of TOML: punctuation, bare words, quoted texts, blanks, comments and line
breaks.  Numbers and dates are not tokens; they are made of words and punctuation.
-/

namespace FingerprintSet.Toml

open Text

/-- A lexical unit. -/
inductive Token
  | blank (text : List Char)
  | newline
  | comment
  | equals
  | period
  | comma
  | colon
  | plus
  | openBrace
  | closeBrace
  | openBracket
  | closeBracket
  /-- Letters, digits, hyphens and underscores. -/
  | word (text : List Char)
  /-- A quoted text, and whether its quotes are triple. -/
  | quoted (text : List Char) (triple : Bool)
  deriving DecidableEq, Repr, Inhabited

/-! ## Line breaks -/

/-- A text in which every line ends with a line feed alone. -/
def plainBreaks : List Char → List Char
  | '\r' :: '\n' :: rest => '\n' :: plainBreaks rest
  | c :: rest => c :: plainBreaks rest
  | [] => []

/-- Whether a character may stand in a comment. -/
def isCommentChar (c : Char) : Bool :=
  c = '\t' || ' ' ≤ c

/-- Whether a character may stand in quotes as it is. -/
def isQuotable (c : Char) : Bool :=
  c = '\t' || (' ' ≤ c && c ≠ '\x7f')

/-- Whether a character is a blank within a line. -/
def isBlank (c : Char) : Bool :=
  c = ' ' || c = '\t'

/-- Whether a character may stand in a bare word. -/
def isWordChar (c : Char) : Bool :=
  c.isAlphanum || c = '-' || c = '_'

/-! ## Quoted texts -/

/-- The character that a number of hexadecimal digits names, and what comes after them. -/
def takeCodePoint (digits : Nat) (text : List Char) : Option (Char × List Char) := do
  let values ← (text.take digits).mapM hexValue?
  if values.length = digits then
    let n := values.foldl (fun n d => n * 16 + d) 0
    if h : n.isValidChar then some (Char.ofNatAux n h, text.drop digits) else none
  else
    none

/-- The character that a backslash and what follows it stand for, and what comes after. -/
def takeEscape : List Char → Option (Char × List Char)
  | '"' :: rest => some ('"', rest)
  | '\\' :: rest => some ('\\', rest)
  | 'b' :: rest => some ('\x08', rest)
  | 'f' :: rest => some ('\x0c', rest)
  | 'n' :: rest => some ('\n', rest)
  | 'r' :: rest => some ('\r', rest)
  | 't' :: rest => some ('\t', rest)
  | 'u' :: rest => takeCodePoint 4 rest
  | 'U' :: rest => takeCodePoint 8 rest
  | _ => none

/-- What comes after a backslash at the end of a line: the next character that is neither blank
nor a line break. -/
def skipLineEnd (text : List Char) : Option (List Char) :=
  match text.dropWhile isBlank with
  | '\n' :: rest => some (rest.dropWhile fun c => isBlank c || c = '\n')
  | [] => some []
  | _ => none

/-- A text up to its closing quote on the same line, and what comes after it. -/
def takeLine (quote : Char) : Nat → List Char → Option (List Char × List Char)
  | 0, _ => none
  | _, [] => none
  | bound + 1, c :: rest =>
      if c = quote then
        some ([], rest)
      else do
        let (c, rest) ←
          if c = '\\' ∧ quote = '"' then takeEscape rest
          else if isQuotable c then some (c, rest)
          else none
        let (text, rest) ← takeLine quote bound rest
        return (c :: text, rest)

/-- A text up to its closing three quotes, and what comes after them.  One or two quotes more
belong to the text. -/
def takeLines (quote : Char) : Nat → List Char → Option (List Char × List Char)
  | 0, _ => none
  | _, [] => none
  | bound + 1, c :: rest =>
      let go (c : Char) (rest : List Char) : Option (List Char × List Char) := do
        let (text, rest) ← takeLines quote bound rest
        return (c :: text, rest)
      if c = quote then
        match rest with
        | second :: third :: rest' =>
            if second = quote ∧ third = quote then
              let more := (rest'.take 2).takeWhile (· = quote)
              some (more, rest'.drop more.length)
            else
              go c rest
        | _ => go c rest
      else if c = '\n' then
        go c rest
      else if c = '\\' ∧ quote = '"' then
        match rest with
        | next :: _ =>
            if isBlank next ∨ next = '\n' then do
              takeLines quote bound (← skipLineEnd rest)
            else do
              let (c, rest) ← takeEscape rest
              go c rest
        | [] => none
      else if isQuotable c then
        go c rest
      else
        none

/-- A quoted text behind its first quote, and what comes after it.  A line break right behind
three quotes does not count. -/
def takeQuoted (quote : Char) (text : List Char) : Option (Token × List Char) :=
  let double : List Char := [quote, quote]
  match double.isPrefixOf? text with
  | some rest => do
      let rest :=
        match rest with
        | '\n' :: rest => rest
        | _ => rest
      let (text, rest) ← takeLines quote (rest.length + 1) rest
      return (.quoted text true, rest)
  | none => do
      let (text, rest) ← takeLine quote (text.length + 1) text
      return (.quoted text false, rest)

/-! ## Token sequences -/

namespace Token

/-- The token at the front of a text, and what comes after it. -/
def take : List Char → Option (Token × List Char)
  | [] => none
  | c :: rest =>
      match c with
      | '\n' => some (newline, rest)
      | '=' => some (equals, rest)
      | '.' => some (period, rest)
      | ',' => some (comma, rest)
      | ':' => some (colon, rest)
      | '+' => some (plus, rest)
      | '\x7b' => some (openBrace, rest)
      | '\x7d' => some (closeBrace, rest)
      | '[' => some (openBracket, rest)
      | ']' => some (closeBracket, rest)
      | '\'' => takeQuoted '\'' rest
      | '"' => takeQuoted '"' rest
      | '#' => some (comment, rest.dropWhile isCommentChar)
      | c =>
          if isBlank c then
            let (more, rest) := rest.span isBlank
            some (blank (c :: more), rest)
          else if isWordChar c then
            let (more, rest) := rest.span isWordChar
            some (word (c :: more), rest)
          else
            none

/-- The tokens of at most `bound` characters. -/
def takeAll : Nat → List Char → Option (List Token)
  | _, [] => some []
  | 0, _ :: _ => none
  | bound + 1, text => do
      let (token, rest) ← take text
      return token :: (← takeAll bound rest)

/-- The tokens that a text is made of.  A byte order mark in front of it does not count. -/
def ofText (text : List Char) : Option (List Token) :=
  let text :=
    match plainBreaks text with
    | '\ufeff' :: rest => rest
    | text => text
  takeAll text.length text

/-- The characters of a token that can stand in a date. -/
def chars : Token → List Char
  | blank text => text
  | period => ['.']
  | colon => [':']
  | plus => ['+']
  | word text => text
  | _ => []

end Token

end FingerprintSet.Toml
