import FingerprintSet.Json.Document
import FingerprintSet.Proofs.Json.Token

/-!
# Reading printed documents

A document of natural numbers and plain strings is read back from its printed form.  Printing
spells the tokens of the document, whatever blanks stand between them, and the document is what
these tokens make up.
-/

namespace FingerprintSet.Json

/-! ## The tokens of a document -/

mutual

/-- The tokens of a value. -/
def tokens : Json → List Token
  | null => [.null]
  | bool value => [.bool value]
  | number numeral => [.number numeral]
  | string raw => [.string raw]
  | array [] => [.openBracket, .closeBracket]
  | array (item :: items) => .openBracket :: (tokens item ++ itemTokens items)
  | object [] => [.openBrace, .closeBrace]
  | object ((name, value) :: fields) =>
      .openBrace :: .string name :: .colon :: (tokens value ++ fieldTokens fields)

/-- The tokens behind the first item of an array. -/
def itemTokens : List Json → List Token
  | [] => [.closeBracket]
  | item :: items => .comma :: (tokens item ++ itemTokens items)

/-- The tokens behind the first field of an object. -/
def fieldTokens : List (List UInt8 × Json) → List Token
  | [] => [.closeBrace]
  | (name, value) :: fields =>
      .comma :: .string name :: .colon :: (tokens value ++ fieldTokens fields)

end

mutual

/-- All numbers of a value are natural and all its strings are plain. -/
def Plain : Json → Prop
  | null => True
  | bool _ => True
  | number numeral => ∃ n, numeral = .ofNat n
  | string raw => IsPlain raw
  | array items => PlainItems items
  | object fields => PlainFields fields

/-- All items are plain. -/
def PlainItems : List Json → Prop
  | [] => True
  | item :: items => Plain item ∧ PlainItems items

/-- All fields are plain. -/
def PlainFields : List (List UInt8 × Json) → Prop
  | [] => True
  | (name, value) :: fields => IsPlain name ∧ Plain value ∧ PlainFields fields

end

/-! ## Printing spells the tokens -/

theorem Lexes.lineBreak (level : Nat) {rest : List UInt8} {out : List Token}
    (lexes : Lexes rest out) : Lexes (lineBreak level ++ rest) out := by
  rw [Json.lineBreak, List.cons_append]
  exact lexes.blanks.blank rfl

theorem Lexes.space {rest : List UInt8} {out : List Token} (lexes : Lexes rest out) :
    Lexes (0x20 :: rest) out :=
  lexes.blank rfl

theorem endsNumeral_lineBreak (level : Nat) (rest : List UInt8) :
    EndsNumeral (lineBreak level ++ rest) := by
  rw [lineBreak, List.cons_append]
  exact (by decide : EndsNumeral [0x0a])

/-- What follows an item of an array. -/
def printItemsEnd (level : Nat) (items : List Json) : List UInt8 :=
  printItems (level + 1) items ++ lineBreak level ++ Token.closeBracket.bytes

/-- What follows a field of an object. -/
def printFieldsEnd (level : Nat) (fields : List (List UInt8 × Json)) : List UInt8 :=
  printFields (level + 1) fields ++ lineBreak level ++ Token.closeBrace.bytes

theorem endsNumeral_items (level : Nat) (items : List Json) (rest : List UInt8) :
    EndsNumeral (printItemsEnd level items ++ rest) := by
  cases items with
  | nil =>
      rw [printItemsEnd, printItems, List.nil_append, List.append_assoc]
      exact endsNumeral_lineBreak _ _
  | cons => exact (by decide : EndsNumeral [ascii ','])

theorem endsNumeral_fields (level : Nat) (fields : List (List UInt8 × Json)) (rest : List UInt8) :
    EndsNumeral (printFieldsEnd level fields ++ rest) := by
  cases fields with
  | nil =>
      rw [printFieldsEnd, printFields, List.nil_append, List.append_assoc]
      exact endsNumeral_lineBreak _ _
  | cons => exact (by decide : EndsNumeral [ascii ','])

mutual

theorem lexes_print (level : Nat) : (value : Json) → Plain value → {rest : List UInt8} →
    {out : List Token} → EndsNumeral rest → Lexes rest out →
      Lexes (print level value ++ rest) (tokens value ++ out)
  | null, _, _, _, _, lexes => lexes.fixed .null
  | bool value, _, _, _, _, lexes => lexes.fixed (.bool value)
  | number _, ⟨_, equal⟩, _, _, ends, lexes => by
      subst equal
      exact lexes.number ends
  | string _, plain, _, _, _, lexes => lexes.string plain
  | array [], _, rest, out, _, lexes => by
      rw [print, List.append_assoc]
      exact (lexes.fixed .closeBracket).fixed .openBracket
  | array (item :: items), plain, rest, out, _, lexes => by
      have others := lexes_items level items plain.2 lexes
      have first := lexes_print (level + 1) item plain.1 (endsNumeral_items level items rest) others
      have opened := (first.lineBreak (level + 1)).fixed .openBracket
      simpa [print, printItemsEnd, tokens, List.append_assoc] using opened
  | object [], _, rest, out, _, lexes => by
      rw [print, List.append_assoc]
      exact (lexes.fixed .closeBrace).fixed .openBrace
  | object ((name, value) :: fields), plain, rest, out, _, lexes => by
      have others := lexes_fields level fields plain.2.2 lexes
      have first := lexes_print (level + 1) value plain.2.1 (endsNumeral_fields level fields rest)
        others
      have named := ((first.space).fixed .colon).string plain.1
      have opened := (named.lineBreak (level + 1)).fixed .openBrace
      simpa [print, printFieldsEnd, tokens, List.append_assoc] using opened

theorem lexes_items (level : Nat) : (items : List Json) → PlainItems items → {rest : List UInt8} →
    {out : List Token} → Lexes rest out →
      Lexes (printItemsEnd level items ++ rest) (itemTokens items ++ out)
  | [], _, rest, out, lexes => by
      have closed := ((lexes.fixed .closeBracket).lineBreak level)
      simpa [printItemsEnd, printItems, itemTokens, List.append_assoc] using closed
  | item :: items, plain, rest, out, lexes => by
      have others := lexes_items level items plain.2 lexes
      have first := lexes_print (level + 1) item plain.1 (endsNumeral_items level items rest) others
      have parted := (first.lineBreak (level + 1)).fixed .comma
      simpa [printItemsEnd, printItems, itemTokens, List.append_assoc] using parted

theorem lexes_fields (level : Nat) : (fields : List (List UInt8 × Json)) → PlainFields fields →
    {rest : List UInt8} → {out : List Token} → Lexes rest out →
      Lexes (printFieldsEnd level fields ++ rest) (fieldTokens fields ++ out)
  | [], _, rest, out, lexes => by
      have closed := ((lexes.fixed .closeBrace).lineBreak level)
      simpa [printFieldsEnd, printFields, fieldTokens, List.append_assoc] using closed
  | (name, value) :: fields, plain, rest, out, lexes => by
      have others := lexes_fields level fields plain.2.2 lexes
      have first := lexes_print (level + 1) value plain.2.1 (endsNumeral_fields level fields rest)
        others
      have named := ((first.space).fixed .colon).string plain.1
      have parted := (named.lineBreak (level + 1)).fixed .comma
      simpa [printFieldsEnd, printFields, fieldTokens, List.append_assoc] using parted

end

/-! ## The tokens make up the document -/

theorem tokens_ne_close (value : Json) :
    ∃ token more, tokens value = token :: more ∧ token ≠ .closeBracket := by
  cases value with
  | null => exact ⟨_, _, rfl, by simp⟩
  | bool => exact ⟨_, _, rfl, by simp⟩
  | number => exact ⟨_, _, rfl, by simp⟩
  | string => exact ⟨_, _, rfl, by simp⟩
  | array items => cases items <;> exact ⟨_, _, rfl, by simp⟩
  | object fields => rcases fields with _ | ⟨⟨_, _⟩, _⟩ <;> exact ⟨_, _, rfl, by simp⟩

theorem takeValue_openBracket (bound : Nat) {token : Token} {more : List Token}
    (other : token ≠ .closeBracket) :
    takeValue (bound + 1) (.openBracket :: token :: more) = (do
      let (items, rest) ← takeItems bound (token :: more)
      return (array items, rest)) := by
  cases token <;> first | rfl | contradiction

theorem length_itemTokens_pos (items : List Json) : 0 < (itemTokens items).length := by
  cases items <;> exact Nat.succ_pos _

theorem length_fieldTokens_pos (fields : List (List UInt8 × Json)) :
    0 < (fieldTokens fields).length := by
  rcases fields with _ | ⟨⟨_, _⟩, _⟩ <;> exact Nat.succ_pos _

mutual

theorem takeValue_tokens : (value : Json) → (bound : Nat) → (rest : List Token) →
    (tokens value).length ≤ bound → takeValue bound (tokens value ++ rest) = some (value, rest)
  | null, bound + 1, _, _ => rfl
  | bool _, bound + 1, _, _ => rfl
  | number _, bound + 1, _, _ => rfl
  | string _, bound + 1, _, _ => rfl
  | array [], bound + 1, _, _ => rfl
  | object [], bound + 1, _, _ => rfl
  | array (item :: items), bound + 1, rest, enough => by
      have taken := takeItems_tokens item items bound rest (Nat.le_of_succ_le_succ enough)
      obtain ⟨token, more, first, other⟩ := tokens_ne_close item
      rw [first, List.cons_append, List.cons_append] at taken
      rw [tokens, first, List.cons_append, List.cons_append, List.cons_append,
        takeValue_openBracket bound other, taken]
      rfl
  | object ((name, value) :: fields), bound + 1, rest, enough => by
      have room : (tokens value ++ fieldTokens fields).length ≤ bound := by
        have whole : (tokens value ++ fieldTokens fields).length + 3 ≤ bound + 1 := enough
        omega
      have taken := takeFields_tokens name value fields bound rest room
      have opened : takeValue (bound + 1) (tokens (object ((name, value) :: fields)) ++ rest) = (do
          let (fields, rest) ← takeFields bound
            (.string name :: .colon :: (tokens value ++ fieldTokens fields) ++ rest)
          return (object fields, rest)) := rfl
      rw [opened, taken]
      rfl
  | null, 0, _, enough => absurd enough (Nat.not_succ_le_zero _)
  | bool _, 0, _, enough => absurd enough (Nat.not_succ_le_zero _)
  | number _, 0, _, enough => absurd enough (Nat.not_succ_le_zero _)
  | string _, 0, _, enough => absurd enough (Nat.not_succ_le_zero _)
  | array [], 0, _, enough => absurd enough (Nat.not_succ_le_zero _)
  | array (_ :: _), 0, _, enough => absurd enough (Nat.not_succ_le_zero _)
  | object [], 0, _, enough => absurd enough (Nat.not_succ_le_zero _)
  | object ((_, _) :: _), 0, _, enough => absurd enough (Nat.not_succ_le_zero _)

theorem takeItems_tokens : (item : Json) → (items : List Json) → (bound : Nat) →
    (rest : List Token) → (tokens item ++ itemTokens items).length ≤ bound →
      takeItems bound (tokens item ++ itemTokens items ++ rest) = some (item :: items, rest)
  | item, items, 0, rest, enough => by
      have some := length_itemTokens_pos items
      rw [List.length_append] at enough
      omega
  | item, items, bound + 1, rest, enough => by
      have some := length_itemTokens_pos items
      rw [List.length_append] at enough
      have taken := takeValue_tokens item bound (itemTokens items ++ rest) (by omega)
      rw [takeItems, List.append_assoc, taken]
      cases items with
      | nil => rfl
      | cons next items =>
          have left : (tokens next ++ itemTokens items).length ≤ bound := by
            have whole : (itemTokens (next :: items)).length =
                (tokens next ++ itemTokens items).length + 1 := rfl
            omega
          have others := takeItems_tokens next items bound rest left
          show (do
              let (items, rest) ← takeItems bound (tokens next ++ itemTokens items ++ rest)
              return (item :: items, rest) : Option (List Json × List Token)) = _
          rw [others]
          rfl

theorem takeFields_tokens : (name : List UInt8) → (value : Json) →
    (fields : List (List UInt8 × Json)) → (bound : Nat) → (rest : List Token) →
      (tokens value ++ fieldTokens fields).length ≤ bound →
        takeFields bound (.string name :: .colon :: (tokens value ++ fieldTokens fields) ++ rest) =
          some ((name, value) :: fields, rest)
  | name, value, fields, 0, rest, enough => by
      have some := length_fieldTokens_pos fields
      rw [List.length_append] at enough
      omega
  | name, value, fields, bound + 1, rest, enough => by
      have some := length_fieldTokens_pos fields
      rw [List.length_append] at enough
      have taken := takeValue_tokens value bound (fieldTokens fields ++ rest) (by omega)
      rw [List.cons_append, List.cons_append, takeFields, List.append_assoc, taken]
      rcases fields with _ | ⟨⟨other, next⟩, fields⟩
      · rfl
      · have left : (tokens next ++ fieldTokens fields).length ≤ bound := by
          have whole : (fieldTokens ((other, next) :: fields)).length =
              (tokens next ++ fieldTokens fields).length + 3 := rfl
          omega
        have others := takeFields_tokens other next fields bound rest left
        show (do
            let (fields, rest) ← takeFields bound
              (.string other :: .colon :: (tokens next ++ fieldTokens fields) ++ rest)
            return ((name, value) :: fields, rest) :
              Option (List (List UInt8 × Json) × List Token)) = _
        rw [others]
        rfl

end

/-- A document is read back from its printed form. -/
theorem read_pretty {value : Json} (plain : Plain value) : read (pretty value) = some value := by
  have lexes := lexes_print 0 value plain (show EndsNumeral [] from trivial) .nil
  rw [List.append_nil, List.append_nil] at lexes
  have lexed : Token.ofBytes (pretty value) = some (tokens value) := lexes _ (Nat.le_refl _)
  have parsed := takeValue_tokens value (tokens value).length [] (Nat.le_refl _)
  rw [List.append_nil] at parsed
  rw [read, lexed]
  show ofTokens (tokens value) = _
  rw [ofTokens, parsed]

end FingerprintSet.Json
