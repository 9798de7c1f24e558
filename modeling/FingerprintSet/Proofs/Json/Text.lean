import FingerprintSet.Proofs.Json.Document

/-!
# Plain texts

A text of printable ASCII characters without quotes and backslashes is spelled by its own
characters, and it is read back from them.
-/

namespace FingerprintSet.Json

open Text

/-- Characters that stand for themselves between quotes. -/
def IsPlainChar (c : Char) : Prop :=
  0x20 ≤ c.toNat ∧ c.toNat < 0x80 ∧ c ≠ '"' ∧ c ≠ '\\'

instance : DecidablePred IsPlainChar := fun c =>
  inferInstanceAs (Decidable (0x20 ≤ c.toNat ∧ c.toNat < 0x80 ∧ c ≠ '"' ∧ c ≠ '\\'))

/-- A text of such characters. -/
def IsPlainText (text : String) : Prop :=
  ∀ c ∈ text.toList, IsPlainChar c

instance (text : String) : Decidable (IsPlainText text) :=
  List.decidableBAll IsPlainChar text.toList

/-- What reading and writing do with one plain character. -/
structure SpelledBy (c : Char) (byte : UInt8) : Prop where
  written : (String.utf8EncodeChar c).flatMap escapeByte = [byte]
  plain : byte ≠ ascii '"' ∧ ¬byte < 0x20 ∧ byte ≠ ascii '\\'
  single : byte < 0x80
  decoded : charFrom? 0 byte.toNat = some c

theorem spelledBy_ascii {c : Char} (plain : IsPlainChar c) : SpelledBy c (ascii c) := by
  have number : Char.ofNat c.toNat = c := Char.ofNat_toNat c
  have every : ∀ n < 0x80, IsPlainChar (Char.ofNat n) →
      (String.utf8EncodeChar (Char.ofNat n)).flatMap escapeByte = [ascii (Char.ofNat n)] ∧
      (ascii (Char.ofNat n) ≠ ascii '"' ∧ ¬ascii (Char.ofNat n) < 0x20 ∧
        ascii (Char.ofNat n) ≠ ascii '\\') ∧ ascii (Char.ofNat n) < 0x80 ∧
      charFrom? 0 (ascii (Char.ofNat n)).toNat = some (Char.ofNat n) := by
    decide +kernel
  have here := every c.toNat plain.2.1
  rw [number] at here
  obtain ⟨written, plain, single, decoded⟩ := here plain
  exact ⟨written, plain, single, decoded⟩

theorem rawOf_plain {text : String} (plain : IsPlainText text) :
    rawOf text = text.toList.map ascii := by
  rw [rawOf, utf8Encode, List.flatMap_assoc]
  rw [IsPlainText] at plain
  generalize text.toList = cs at plain ⊢
  induction cs with
  | nil => rfl
  | cons c cs ih =>
      rw [List.forall_mem_cons] at plain
      rw [List.flatMap_cons, (spelledBy_ascii plain.1).written, ih plain.2]
      rfl

theorem isPlain_rawOf {text : String} (plain : IsPlainText text) : IsPlain (rawOf text) := by
  rw [rawOf_plain plain]
  intro byte mem
  obtain ⟨c, charMem, rfl⟩ := List.mem_map.mp mem
  exact (spelledBy_ascii (plain c charMem)).plain

theorem unescape_plain {raw : List UInt8} (plain : IsPlain raw) : unescape raw = some raw := by
  induction raw with
  | nil => rw [unescape.eq_def]
  | cons byte raw ih =>
      rw [IsPlain, List.forall_mem_cons] at plain
      rw [unescape.eq_def]
      dsimp only
      rw [if_neg plain.1.2.2, ih plain.2]
      rfl

theorem utf8Decode_ascii {cs : List Char} (plain : ∀ c ∈ cs, IsPlainChar c) :
    utf8Decode (cs.map ascii) = some cs := by
  induction cs with
  | nil => rw [List.map_nil, utf8Decode.eq_def]
  | cons c cs ih =>
      rw [List.forall_mem_cons] at plain
      have spelled := spelledBy_ascii plain.1
      rw [List.map_cons, utf8Decode.eq_def]
      dsimp only
      rw [if_pos spelled.single, spelled.decoded, ih plain.2]
      rfl

/-- A plain text is read back from what is written for it. -/
theorem textOf?_rawOf {text : String} (plain : IsPlainText text) :
    textOf? (rawOf text) = some text := by
  rw [textOf?, unescape_plain (isPlain_rawOf plain), rawOf_plain plain]
  show (do
      let chars ← utf8Decode (text.toList.map ascii)
      return String.ofList chars) = _
  rw [utf8Decode_ascii plain]
  exact congrArg some String.ofList_toList

/-! ## Records -/

theorem namedFields?_zip {names : List String} (plain : ∀ name ∈ names, IsPlainText name)
    (values : List Json) :
    namedFields? ((names.map rawOf).zip values) = some (names.zip values) := by
  induction names generalizing values with
  | nil => rfl
  | cons name names ih =>
      rw [List.forall_mem_cons] at plain
      cases values with
      | nil => rfl
      | cons value values =>
          rw [List.map_cons, List.zip_cons_cons, namedFields?, List.mapM_cons]
          show (do
              let field ← (do return (← textOf? (rawOf name), value))
              let fields ← namedFields? ((names.map rawOf).zip values)
              return field :: fields) = _
          rw [textOf?_rawOf plain.1, ih plain.2]
          rfl

theorem filter_of_distinct {fields : List (String × Json)} (distinct : (fields.map (·.1)).Nodup)
    {field : String × Json} (mem : field ∈ fields) :
    fields.filter (·.1 = field.1) = [field] := by
  induction fields with
  | nil => contradiction
  | cons first fields ih =>
      rw [List.map_cons, List.nodup_cons] at distinct
      rcases List.mem_cons.mp mem with rfl | later
      · rw [List.filter_cons_of_pos (by simp), List.filter_eq_nil_iff.mpr]
        intro other otherMem
        simp only [decide_eq_true_eq]
        exact fun same => distinct.1 (same ▸ List.mem_map_of_mem otherMem)
      · rw [List.filter_cons_of_neg, ih distinct.2 later]
        simp only [decide_eq_true_eq]
        exact fun same => distinct.1 (same ▸ List.mem_map_of_mem later)

theorem mapM_only? {names : List String} {values : List Json} {fields : List (String × Json)}
    (same : names.length = values.length)
    (each : ∀ field ∈ names.zip values, only? field.1 fields = some field.2) :
    names.mapM (only? · fields) = some values := by
  induction names generalizing values with
  | nil =>
      obtain rfl := List.length_eq_zero_iff.mp same.symm
      rfl
  | cons name names ih =>
      cases values with
      | nil => contradiction
      | cons value values =>
          rw [List.zip_cons_cons, List.forall_mem_cons] at each
          rw [List.mapM_cons, each.1, ih (Nat.succ.inj same) each.2]
          rfl

/-- The values of a record are found under their names. -/
theorem record?_zip {names : List String} {values : List Json}
    (plain : ∀ name ∈ names, IsPlainText name) (distinct : names.Nodup)
    (same : names.length = values.length) :
    (object ((names.map rawOf).zip values)).record? names = some values := by
  have keys : (names.zip values).map (·.1) = names :=
    List.map_fst_zip (Nat.le_of_eq same)
  have each (field : String × Json) (mem : field ∈ names.zip values) :
      only? field.1 (names.zip values) = some field.2 := by
    rw [only?, filter_of_distinct (by rw [keys]; exact distinct) mem]
  rw [record?, namedFields?_zip plain]
  exact mapM_only? same each

end FingerprintSet.Json
