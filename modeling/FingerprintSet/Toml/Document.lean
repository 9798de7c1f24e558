import FingerprintSet.Toml.Date
import FingerprintSet.Toml.Number

/-!
# TOML documents

Lines of TOML as a setting tree.  A table has one body, under one header, but headers of tables
inside it may come before and after; a dotted key makes tables that no header opens again.  A
name that would stand for two things makes the whole document void.
-/

namespace FingerprintSet.Toml

/-! ## Bodies -/

/-- What a name stands for while the lines of one body are read. -/
inductive Node
  | value (setting : Setting)
  /-- A table made by dotted keys, to which later lines of the body may add. -/
  | dotted (fields : List (String × Node))
  deriving Inhabited

/-- Fields with one more, whose name is given with the names of the tables around it. -/
def addDotted (value : Setting) (outer : List String) (name : String)
    (fields : List (String × Node)) : Option (List (String × Node)) :=
  match outer with
  | [] => some (fields ++ [(name, .value value)])
  | first :: outer =>
      match fields.lookup first with
      | none => do
          let inner ← addDotted value outer name []
          return fields ++ [(first, .dotted inner)]
      | some (.value _) => none
      | some (.dotted inner) => do
          let inner ← addDotted value outer name inner
          return fields.map fun field =>
            if field.1 = first then (first, .dotted inner) else field

/-- Fields if no name comes twice. -/
def distinct? {α : Type} (fields : List (String × α)) : Option (List (String × α)) :=
  if (fields.map (·.1)).Nodup then some fields else none

mutual

/-- A node as a setting. -/
def Node.close? : Node → Option Setting
  | .value setting => some setting
  | .dotted fields => do
      return .table (← distinct? (← closeFields? fields))

/-- Fields as settings. -/
def closeFields? : List (String × Node) → Option (List (String × Setting))
  | [] => some []
  | (name, node) :: rest => do
      return (name, ← node.close?) :: (← closeFields? rest)

end

/-- The settings of a finished body. -/
def closeBody? (fields : List (String × Node)) : Option (List (String × Setting)) := do
  distinct? (← closeFields? fields)

/-! ## Values -/

/-- Tokens without the blank at their front. -/
def skipBlank : List Token → List Token
  | .blank _ :: rest => rest
  | tokens => tokens

/-- Tokens without blanks, comments and line breaks at their front.  A comment ends its line. -/
def skipLines : List Token → Option (List Token)
  | .blank _ :: rest => skipLines rest
  | .newline :: rest => skipLines rest
  | [.comment] => some []
  | .comment :: .newline :: rest => skipLines rest
  | .comment :: _ => none
  | tokens => some tokens

/-- One part of a key, and the tokens after it. -/
def takeKeyPart : List Token → Option (String × List Token)
  | .word text :: rest => some (String.ofList text, rest)
  | .quoted text false :: rest => some (String.ofList text, rest)
  | _ => none

/-- The parts of a key, at most `bound` of them, and the tokens after them. -/
def takeKey : Nat → List Token → Option (List String × List Token)
  | 0, _ => none
  | bound + 1, tokens => do
      let (part, rest) ← takeKeyPart tokens
      match skipBlank rest with
      | .period :: rest => do
          let (parts, rest) ← takeKey bound (skipBlank rest)
          return (part :: parts, rest)
      | rest => return ([part], rest)

/-- The tokens behind a key and its equals sign, with the key. -/
def takeAssigned (bound : Nat) (tokens : List Token) :
    Option ((List String × String) × List Token) := do
  let (parts, rest) ← takeKey bound tokens
  match skipBlank rest with
  | .equals :: rest => return ((parts.dropLast, ← parts.getLast?), skipBlank rest)
  | _ => none

/-- A value made of a word and what follows it. -/
def takeWordValue (word : List Char) (tokens : List Token) : Option (Setting × List Token) :=
  match String.ofList word with
  | "true" => some (.bool true, tokens)
  | "false" => some (.bool false, tokens)
  | text =>
      match word with
      | [] => none
      | c :: _ =>
          if text = "inf" ∨ text = "nan" ∨ c = '-' ∨ c.isDigit then
            if startsDate word || tokens.head? = some .colon then do
              let (date, tokens) ← takeDateText word tokens
              return (.text date, tokens)
            else
              takeNumber word tokens
          else
            none

mutual

/-- A value nested at most `bound` deep, and the tokens after it. -/
def takeValue : Nat → List Token → Option (Setting × List Token)
  | 0, _ => none
  | bound + 1, tokens =>
      match tokens with
      | .quoted text _ :: rest => some (.text (String.ofList text), rest)
      | .word text :: rest => takeWordValue text rest
      | .plus :: .word text :: rest => takeNumber text rest
      | .openBrace :: rest =>
          match skipBlank rest with
          | .closeBrace :: rest => some (.empty, rest)
          | rest => do
              let (fields, rest) ← takeFields bound [] rest
              return (.table (← closeBody? fields), rest)
      | .openBracket :: rest => do
          let (items, rest) ← takeItems bound rest
          return (.list items, rest)
      | _ => none

/-- Items up to a closing bracket, and the tokens after it. -/
def takeItems : Nat → List Token → Option (List Setting × List Token)
  | 0, _ => none
  | bound + 1, tokens => do
      match ← skipLines tokens with
      | .closeBracket :: rest => return ([], rest)
      | tokens => do
          let (item, rest) ← takeValue bound tokens
          match ← skipLines rest with
          | .closeBracket :: rest => return ([item], rest)
          | .comma :: rest => do
              let (items, rest) ← takeItems bound rest
              return (item :: items, rest)
          | _ => none

/-- Fields behind those of a body up to a closing brace, and the tokens after it. -/
def takeFields : Nat → List (String × Node) → List Token →
    Option (List (String × Node) × List Token)
  | 0, _, _ => none
  | bound + 1, fields, tokens => do
      let ((outer, name), rest) ← takeAssigned bound tokens
      let (value, rest) ← takeValue bound rest
      let fields ← addDotted value outer name fields
      match skipBlank rest with
      | .closeBrace :: rest => return (fields, rest)
      | .comma :: rest => takeFields bound fields (skipBlank rest)
      | _ => none

end

/-! ## Lines -/

/-- What comes after the end of a line. -/
def endLine (tokens : List Token) : Option (List Token) :=
  match skipBlank tokens with
  | [] => some []
  | .newline :: rest => some rest
  | [.comment] => some []
  | .comment :: .newline :: rest => some rest
  | _ => none

/-- The header of a table, or of one of several tables in a list. -/
structure Header where
  path : List String
  isItem : Bool
  deriving DecidableEq, Repr, Inhabited

/-- A header behind its first bracket, and the tokens after its line. -/
def takeHeader (tokens : List Token) : Option (Header × List Token) := do
  let (isItem, tokens) :=
    match tokens with
    | .openBracket :: rest => (true, rest)
    | _ => (false, tokens)
  let (path, rest) ← takeKey tokens.length (skipBlank tokens)
  match skipBlank rest, isItem with
  | .closeBracket :: .closeBracket :: rest, true => return ({ path, isItem }, ← endLine rest)
  | .closeBracket :: rest, false => return ({ path, isItem }, ← endLine rest)
  | _, _ => none

/-- A header, none for the start of the document, and the body under it. -/
abbrev Section := Option Header × List (String × Node)

/-- The sections of at most `bound` lines.  The open one comes first. -/
def takeSections : Nat → List Section → List Token → Option (List Section)
  | 0, _, _ => none
  | bound + 1, sections, tokens => do
      match ← skipLines tokens with
      | [] => return sections
      | .openBracket :: rest => do
          let (header, rest) ← takeHeader rest
          takeSections bound ((some header, []) :: sections) rest
      | tokens => do
          let ((outer, name), rest) ← takeAssigned tokens.length tokens
          let (value, rest) ← takeValue rest.length rest
          let rest ← endLine rest
          match sections with
          | [] => none
          | (header, fields) :: above => do
              let fields ← addDotted value outer name fields
              takeSections bound ((header, fields) :: above) rest

/-! ## Tables -/

/-- What a name stands for in a document. -/
inductive Entry
  | value (setting : Setting)
  /-- A table, and whether it has had its body. -/
  | table (isDefined : Bool) (fields : List (String × Entry))
  /-- The fields of each table of a list, the last one first. -/
  | tables (bodies : List (List (String × Entry)))
  deriving Inhabited

/-- Fields with the entry under one name put in place of what was there. -/
def putEntry (name : String) (entry : Entry) (fields : List (String × Entry)) :
    List (String × Entry) :=
  if (fields.lookup name).isSome then
    fields.map fun field => if field.1 = name then (name, entry) else field
  else
    fields ++ [(name, entry)]

/-- Fields with a body put where a header says. -/
def addBody (body : List (String × Entry)) (isItem : Bool) :
    List String → List (String × Entry) → Option (List (String × Entry))
  | [], _ => none
  | [name], fields =>
      match fields.lookup name with
      | none =>
          some (putEntry name (if isItem then .tables [body] else .table true body) fields)
      | some (.table false inner) =>
          if isItem then none
          else do return putEntry name (.table true (← distinct? (inner ++ body))) fields
      | some (.tables bodies) =>
          if isItem then some (putEntry name (.tables (body :: bodies)) fields) else none
      | some _ => none
  | name :: rest, fields =>
      match fields.lookup name with
      | none => do
          return putEntry name (.table false (← addBody body isItem rest [])) fields
      | some (.table isDefined inner) => do
          return putEntry name (.table isDefined (← addBody body isItem rest inner)) fields
      | some (.tables (last :: bodies)) => do
          return putEntry name (.tables ((← addBody body isItem rest last) :: bodies)) fields
      | some _ => none

/-- A document with one more section. -/
def addSection (fields : List (String × Entry)) (part : Section) :
    Option (List (String × Entry)) := do
  let body := (← closeBody? part.2).map fun field => (field.1, Entry.value field.2)
  match part.1 with
  | none => distinct? (fields ++ body)
  | some header => addBody body header.isItem header.path fields

mutual

/-- An entry as a setting. -/
def Entry.toSetting : Entry → Setting
  | .value setting => setting
  | .table _ fields => .table (entrySettings fields)
  | .tables bodies => .list (bodySettings bodies).reverse

/-- Fields as settings by name. -/
def entrySettings : List (String × Entry) → List (String × Setting)
  | [] => []
  | (name, entry) :: rest => (name, entry.toSetting) :: entrySettings rest

/-- Bodies as tables. -/
def bodySettings : List (List (String × Entry)) → List Setting
  | [] => []
  | body :: rest => .table (entrySettings body) :: bodySettings rest

end

/-- The setting tree that a text spells. -/
def readSetting? (text : List Char) : Option Setting := do
  let tokens ← Token.ofText text
  let sections ← takeSections (tokens.length + 1) [(none, [])] tokens
  return .table (entrySettings (← sections.reverse.foldlM addSection []))

end FingerprintSet.Toml
