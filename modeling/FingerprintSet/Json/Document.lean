import FingerprintSet.Json.Token

/-!
# JSON documents

The tree that a sequence of tokens makes up, and its printed form: one entry a line, indented
by two blanks a level.  Fields keep their order, and a name may come twice; whether that is
allowed is for the reader of the tree to say.
-/

namespace FingerprintSet

/-- A JSON value.  Numbers and strings are kept as they are written. -/
inductive Json
  | null
  | bool (value : Bool)
  | number (numeral : Json.Numeral)
  | string (raw : List UInt8)
  | array (items : List Json)
  | object (fields : List (List UInt8 × Json))
  deriving Repr, Inhabited

namespace Json

/-! ## Reading -/

mutual

/-- A value at the front of some tokens, nested at most `bound` deep, and what comes after
it. -/
def takeValue : Nat → List Token → Option (Json × List Token)
  | 0, _ => none
  | bound + 1, tokens =>
      match tokens with
      | .null :: rest => some (null, rest)
      | .bool value :: rest => some (bool value, rest)
      | .number numeral :: rest => some (number numeral, rest)
      | .string raw :: rest => some (string raw, rest)
      | .openBracket :: .closeBracket :: rest => some (array [], rest)
      | .openBracket :: rest => do
          let (items, rest) ← takeItems bound rest
          return (array items, rest)
      | .openBrace :: .closeBrace :: rest => some (object [], rest)
      | .openBrace :: rest => do
          let (fields, rest) ← takeFields bound rest
          return (object fields, rest)
      | _ => none

/-- Items up to a closing bracket, and what comes after it. -/
def takeItems : Nat → List Token → Option (List Json × List Token)
  | 0, _ => none
  | bound + 1, tokens => do
      let (item, rest) ← takeValue bound tokens
      match rest with
      | .closeBracket :: rest => return ([item], rest)
      | .comma :: rest => do
          let (items, rest) ← takeItems bound rest
          return (item :: items, rest)
      | _ => none

/-- Fields up to a closing brace, and what comes after it. -/
def takeFields : Nat → List Token → Option (List (List UInt8 × Json) × List Token)
  | 0, _ => none
  | bound + 1, tokens =>
      match tokens with
      | .string name :: .colon :: rest => do
          let (value, rest) ← takeValue bound rest
          match rest with
          | .closeBrace :: rest => return ([(name, value)], rest)
          | .comma :: rest => do
              let (fields, rest) ← takeFields bound rest
              return ((name, value) :: fields, rest)
          | _ => none
      | _ => none

end

/-- The value that tokens make up. -/
def ofTokens (tokens : List Token) : Option Json :=
  match takeValue tokens.length tokens with
  | some (value, []) => some value
  | _ => none

/-- The value that bytes spell. -/
def read (bytes : List UInt8) : Option Json := do
  ofTokens (← Token.ofBytes bytes)

/-! ## Printing -/

/-- A line break and the blanks that a level starts with. -/
def lineBreak (level : Nat) : List UInt8 :=
  0x0a :: List.replicate (2 * level) 0x20

mutual

/-- A value printed at a level. -/
def print (level : Nat) : Json → List UInt8
  | null => Token.null.bytes
  | bool value => (Token.bool value).bytes
  | number numeral => numeral.bytes
  | string raw => (Token.string raw).bytes
  | array [] => Token.openBracket.bytes ++ Token.closeBracket.bytes
  | array (item :: items) =>
      Token.openBracket.bytes ++ lineBreak (level + 1) ++ print (level + 1) item
        ++ printItems (level + 1) items ++ lineBreak level ++ Token.closeBracket.bytes
  | object [] => Token.openBrace.bytes ++ Token.closeBrace.bytes
  | object ((name, value) :: fields) =>
      Token.openBrace.bytes ++ lineBreak (level + 1) ++ (Token.string name).bytes
        ++ Token.colon.bytes ++ [0x20] ++ print (level + 1) value
        ++ printFields (level + 1) fields ++ lineBreak level ++ Token.closeBrace.bytes

/-- The items of an array behind the first one. -/
def printItems (level : Nat) : List Json → List UInt8
  | [] => []
  | item :: items =>
      Token.comma.bytes ++ lineBreak level ++ print level item ++ printItems level items

/-- The fields of an object behind the first one. -/
def printFields (level : Nat) : List (List UInt8 × Json) → List UInt8
  | [] => []
  | (name, value) :: fields =>
      Token.comma.bytes ++ lineBreak level ++ (Token.string name).bytes ++ Token.colon.bytes
        ++ [0x20] ++ print level value ++ printFields level fields

end

/-- The printed form of a value. -/
def pretty (value : Json) : List UInt8 :=
  print 0 value

/-! ## Values -/

/-- A natural number as a value. -/
def ofNat (n : Nat) : Json :=
  number (.ofNat n)

/-- A text as a value. -/
def ofText (text : String) : Json :=
  string (rawOf text)

/-- The natural number below `limit` that a value is. -/
def naturalBelow? (limit : Nat) : Json → Option Nat
  | number numeral => do
      let n ← numeral.natural?
      if n < limit then some n else none
  | _ => none

/-- The text that a value is. -/
def text? : Json → Option String
  | string raw => textOf? raw
  | _ => none

/-- The items of an array. -/
def items? : Json → Option (List Json)
  | array items => some items
  | _ => none

/-- The fields of an object by their names, which must be text. -/
def namedFields? (fields : List (List UInt8 × Json)) : Option (List (String × Json)) :=
  fields.mapM fun (name, value) => do return (← textOf? name, value)

/-- The only value under a name. -/
def only? (name : String) (fields : List (String × Json)) : Option Json :=
  match fields.filter (·.1 = name) with
  | [(_, value)] => some value
  | _ => none

/-- The values of a record with the given fields.  They stand under their names, each once and
in any order among others, or else without names, in order and with none beside them. -/
def record? (names : List String) : Json → Option (List Json)
  | object fields => do
      let fields ← namedFields? fields
      names.mapM fun name => only? name fields
  | array items => if items.length = names.length then some items else none
  | _ => none

end Json

end FingerprintSet
