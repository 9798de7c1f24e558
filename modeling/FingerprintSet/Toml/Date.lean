import FingerprintSet.Toml.Token

/-!
# Dates of TOML

Dates, times of day, and dates with times, which may be off from universal time.  All that
settings need of them is their text, in one form for each.
-/

namespace FingerprintSet.Toml

open Text

/-- A number of so many digits, and what comes after it. -/
def takeFixed (count : Nat) (text : List Char) : Option (List Char × List Char) :=
  let ds := text.take count
  if ds.length = count ∧ ds.all Char.isDigit then some (ds, text.drop count) else none

/-- A given character, and what comes after it. -/
def takeChar (c : Char) : List Char → Option (List Char)
  | [] => none
  | d :: rest => if d = c then some rest else none

/-- The number that digit characters spell. -/
def number (digits : List Char) : Nat :=
  ofDigits (digits.filterMap digitValue?)

/-- A calendar date. -/
def takeDate (text : List Char) : Option (List Char × List Char) := do
  let (year, rest) ← takeFixed 4 text
  let rest ← takeChar '-' rest
  let (month, rest) ← takeFixed 2 rest
  let rest ← takeChar '-' rest
  let (day, rest) ← takeFixed 2 rest
  if 1 ≤ number month ∧ number month ≤ 12 ∧ 1 ≤ number day ∧ number day ≤ 31 then
    return (year ++ '-' :: month ++ '-' :: day, rest)
  else
    none

/-- The places of a second, without the zeros at their end. -/
def takePlaces : List Char → Option (List Char × List Char)
  | '.' :: rest =>
      match rest.span Char.isDigit with
      | ([], _) => none
      | (places, rest) =>
          let shown := ((places.take 9).reverse.dropWhile (· = '0')).reverse
          some (if shown = [] then [] else '.' :: shown, rest)
  | text => some ([], text)

/-- A time of day. -/
def takeTime (text : List Char) : Option (List Char × List Char) := do
  let (hour, rest) ← takeFixed 2 text
  let rest ← takeChar ':' rest
  let (minute, rest) ← takeFixed 2 rest
  let rest ← takeChar ':' rest
  let (second, rest) ← takeFixed 2 rest
  let (places, rest) ← takePlaces rest
  if number hour ≤ 24 ∧ number minute ≤ 59 ∧ number second ≤ 59 then
    return (hour ++ ':' :: minute ++ ':' :: second ++ places, rest)
  else
    none

/-- How far a time is off from universal time. -/
def takeOffset : List Char → Option (List Char × List Char)
  | [] => some ([], [])
  | c :: rest =>
      if c = 'Z' ∨ c = 'z' then
        some (['Z'], rest)
      else if c = '+' ∨ c = '-' then do
        let (hours, rest) ← takeFixed 2 rest
        let rest ← takeChar ':' rest
        let (minutes, rest) ← takeFixed 2 rest
        return (c :: hours ++ ':' :: minutes, rest)
      else
        none

/-- The time and the offset behind a date. -/
def takeTimeOfDate : List Char → Option (List Char × List Char)
  | c :: rest =>
      if c = 'T' ∨ c = 't' ∨ c = ' ' then do
        let (time, rest) ← takeTime rest
        let (offset, rest) ← takeOffset rest
        return ('T' :: time ++ offset, rest)
      else
        some ([], c :: rest)
  | [] => some ([], [])

/-- The text of the date that a text is. -/
def dateText? (text : List Char) : Option String := do
  let (shown, rest) ←
    if text[2]? = some ':' then
      takeTime text
    else do
      let (date, rest) ← takeDate text
      let (time, rest) ← takeTimeOfDate rest
      pure (date ++ time, rest)
  if rest = [] then return String.ofList shown else none

/-- Whether a word that starts like a number starts a date. -/
def startsDate (word : List Char) : Bool :=
  let hasPair (c d : Char) : Bool := (word.zip word.tail).contains (c, d)
  word.contains 'T' || word.contains 't' ||
    (word.tail.contains '-' && !hasPair 'e' '-' && !hasPair 'E' '-')

/-- A word that may stand behind a given token in a date, and the tokens after it. -/
def takeAfter (mark : Token) (tokens : List Token) : Option (List Token × List Token) :=
  match tokens with
  | token :: rest =>
      if token = mark then
        match rest with
        | .word text :: rest => some ([token, .word text], rest)
        | _ => none
      else
        some ([], tokens)
  | [] => some ([], [])

/-- The tokens of a date behind its first word, and the tokens after them. -/
def takeDateTokens (tokens : List Token) : Option (List Token × List Token) := do
  let (hour, tokens) :=
    match tokens with
    | .blank [' '] :: .word text :: rest => ([Token.blank [' '], .word text], rest)
    | _ => ([], tokens)
  match ← takeAfter .colon tokens with
  | ([], tokens) => return (hour, tokens)
  | (minute, tokens) => do
      let (second, tokens) ← takeAfter .colon tokens
      if second = [] then none
      else do
        let (places, tokens) ← takeAfter .period tokens
        let (plus, tokens) ← takeAfter .plus tokens
        let (last, tokens) ← takeAfter .colon tokens
        return (hour ++ minute ++ second ++ places ++ plus ++ last, tokens)

/-- A date that starts with a word, as its text, and the tokens after it. -/
def takeDateText (word : List Char) (tokens : List Token) : Option (String × List Token) := do
  let (inner, tokens) ← takeDateTokens tokens
  return (← dateText? (word ++ inner.flatMap Token.chars), tokens)

end FingerprintSet.Toml
