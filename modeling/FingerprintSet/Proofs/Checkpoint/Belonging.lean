import FingerprintSet.BoundedSet
import FingerprintSet.Proofs.Checkpoint.Naming

/-!
# Whose directory it is

Everything that a set keeps stands in a few entries of its directory: the one in which a checkpoint
is written, those of generations, and the one for pages.  Sets are told apart by how these entries
are spelt, and a name may itself end like the entry of another set.  No entry belongs to two
names all the same: how it ends says what kind of entry it is, and what stands in front is the name.
-/

namespace FingerprintSet.Checkpoint

open Storage Text

variable {name other entry : String}

/-- Digits, with a plus sign in front if need be. -/
def IsNumeral (suffix : List Char) : Prop :=
  ∃ digits, (suffix = digits ∨ suffix = '+' :: digits) ∧ digits ≠ [] ∧
    ∀ c ∈ digits, digitValue? c ≠ none

/-- The entries that a set of the given name keeps in its directory. -/
inductive Belongs (name : String) : String → Prop
  | staging : Belongs name (stagingName name)
  | generation {suffix : String} (numeral : IsNumeral suffix.toList) :
      Belongs name (stem name ++ suffix)
  | overflow : Belongs name (name ++ ".overflow")

/-! ## What belongs to a name -/

theorem takeDigits_append (cs : List Char) :
    ∃ front, cs = front ++ (takeDigits cs).2 ∧ (∀ c ∈ front, digitValue? c ≠ none) ∧
      ((takeDigits cs).1 ≠ [] → front ≠ []) := by
  induction cs with
  | nil => exact ⟨[], rfl, (fun _ none => nomatch none), fun some => absurd rfl some⟩
  | cons c rest ih =>
      rw [takeDigits]
      cases value : digitValue? c with
      | none => exact ⟨[], rfl, (fun _ none => nomatch none), fun some => absurd rfl some⟩
      | some d =>
          obtain ⟨front, split, digits, -⟩ := ih
          refine ⟨c :: front, congrArg (c :: ·) split, ?_, fun _ => List.cons_ne_nil c front⟩
          rw [List.forall_mem_cons]
          exact ⟨fun none => Option.some_ne_none d (value.symm.trans none), digits⟩

/-- What is read as digits to its end is made of digits. -/
theorem digits_of_takeDigits {cs : List Char} {ds : List Nat} (taken : takeDigits cs = (ds, []))
    (some : ds ≠ []) : cs ≠ [] ∧ ∀ c ∈ cs, digitValue? c ≠ none := by
  obtain ⟨front, split, digits, nonempty⟩ := takeDigits_append cs
  rw [taken, List.append_nil] at split
  rw [taken] at nonempty
  exact split ▸ ⟨nonempty some, digits⟩

theorem isNumeral_of_suffixNumber? {suffix : List Char} {number : Nat}
    (spells : suffixNumber? suffix = some number) : IsNumeral suffix := by
  by_cases signed : ∃ rest, suffix = '+' :: rest
  · obtain ⟨rest, rfl⟩ := signed
    rw [suffixNumber?] at spells
    dsimp only at spells
    split at spells
    · contradiction
    · rename_i ds none taken
      obtain ⟨nonempty, digits⟩ := digits_of_takeDigits taken none
      exact ⟨rest, Or.inr rfl, nonempty, digits⟩
    · contradiction
  · rw [suffixNumber?] at spells
    · dsimp only at spells
      split at spells
      · contradiction
      · rename_i ds none taken
        obtain ⟨nonempty, digits⟩ := digits_of_takeDigits taken none
        exact ⟨suffix, Or.inl rfl, nonempty, digits⟩
      · contradiction
    · exact fun rest same => signed ⟨rest, same⟩

/-- Whatever stands for a generation belongs to the name. -/
theorem Belongs.of_generationOf? {number : Nat} (found : generationOf? name entry = some number) :
    Belongs name entry := by
  obtain ⟨suffix, rfl⟩ := stem_of_generationOf? found
  rw [generationOf?_append] at found
  exact .generation (isNumeral_of_suffixNumber? found)

theorem belongs_generationName (name : String) (number : Nat) :
    Belongs name (generationName name number) := by
  refine .generation ⟨_, Or.inl rfl, ?_, fun c mem none => not_mem_zeroPadded none mem⟩
  rw [toList_zeroPadded]
  exact mt List.map_eq_nil_iff.mp (paddedDigits_ne_nil 8 number)

/-! ## Entries of different names -/

/-- What a numeral is made of. -/
def isNumeralChar (c : Char) : Bool :=
  (digitValue? c).isSome || c == '+'

theorem IsNumeral.all {suffix : List Char} (numeral : IsNumeral suffix) :
    ∀ c ∈ suffix, isNumeralChar c = true := by
  obtain ⟨digits, same, -, every⟩ := numeral
  have inner (c : Char) (mem : c ∈ digits) : isNumeralChar c = true := by
    rw [isNumeralChar, Option.isSome_iff_ne_none.mpr (every c mem), Bool.true_or]
  rcases same with rfl | rfl
  · exact inner
  · rw [List.forall_mem_cons]
    exact ⟨by decide, inner⟩

theorem IsNumeral.getLast? {suffix : List Char} (numeral : IsNumeral suffix) :
    ∃ c, suffix.getLast? = some c ∧ digitValue? c ≠ none := by
  obtain ⟨digits, same, nonempty, every⟩ := numeral
  refine ⟨digits.getLast nonempty, ?_, every _ (List.getLast_mem nonempty)⟩
  rcases same with rfl | rfl
  · exact List.getLast?_eq_some_getLast nonempty
  · rw [List.getLast?_cons, List.getLast?_eq_some_getLast nonempty, Option.getD_some]

/-- The last character of an entry tells its kind. -/
theorem getLast?_stagingName (name : String) : (stagingName name).toList.getLast? = some 'g' := by
  rw [stagingName, String.toList_append, List.getLast?_append]
  rfl

theorem getLast?_overflow (name : String) : (name ++ ".overflow").toList.getLast? = some 'w' := by
  rw [String.toList_append, List.getLast?_append]
  rfl

theorem getLast?_generation {suffix : String} (numeral : IsNumeral suffix.toList) :
    ∃ c, (stem name ++ suffix).toList.getLast? = some c ∧ digitValue? c ≠ none := by
  obtain ⟨c, last, digit⟩ := numeral.getLast?
  refine ⟨c, ?_, digit⟩
  rw [String.toList_append, List.getLast?_append, last]
  rfl

/-- A numeral ends where it cannot go on, which is the dot of the stem. -/
theorem reverse_numeral {suffix : String} (numeral : IsNumeral suffix.toList) :
    (stem name ++ suffix).toList.reverse.takeWhile isNumeralChar = suffix.toList.reverse := by
  have dot : (stem name).toList = name.toList ++ ".chkpt".toList ++ ['.'] := by
    rw [stem, String.toList_append, List.append_assoc]
    rfl
  rw [String.toList_append, dot, List.reverse_append, List.reverse_append, List.reverse_singleton]
  rw [List.takeWhile_append_of_pos fun c mem => numeral.all c (List.mem_reverse.mp mem),
    List.singleton_append, List.takeWhile_cons_of_neg (by decide), List.append_nil]

theorem stem_inj : stem name = stem other ↔ name = other := by
  rw [stem, stem, String.append_left_inj]

/-- Two entries with numerals at their ends have the same one if they are the same. -/
theorem generation_name_eq {suffix ending : String} (numeral : IsNumeral suffix.toList)
    (other_numeral : IsNumeral ending.toList) (same : stem name ++ suffix = stem other ++ ending) :
    name = other := by
  have reversed : suffix.toList.reverse = ending.toList.reverse := by
    rw [← @reverse_numeral name _ numeral, same, reverse_numeral other_numeral]
  obtain rfl := String.toList_injective (List.reverse_injective reversed)
  exact stem_inj.mp ((String.append_left_inj _).mp same)

/-- An entry belongs to one name at most. -/
theorem Belongs.name_eq (first : Belongs name entry) (second : Belongs other entry) :
    name = other := by
  have last {c d : Char} {one two : String} (ends : one.toList.getLast? = some c)
      (other_ends : two.toList.getLast? = some d) (same : one = two) : c = d :=
    Option.some.inj (ends.symm.trans (same ▸ other_ends))
  cases first with
  | staging =>
      generalize same : stagingName name = entry at second
      cases second with
      | staging => exact stem_inj.mp ((String.append_left_inj _).mp same)
      | generation numeral =>
          obtain ⟨c, ends, digit⟩ := @getLast?_generation other _ numeral
          exact absurd (last (getLast?_stagingName name) ends same ▸ digit) (by decide)
      | overflow =>
          exact absurd (last (getLast?_stagingName name) (getLast?_overflow other) same) (by decide)
  | generation numeral =>
      obtain ⟨c, ends, digit⟩ := @getLast?_generation name _ numeral
      generalize same : stem name ++ _ = entry at second
      cases second with
      | staging =>
          exact absurd (last ends (getLast?_stagingName other) same ▸ digit) (by decide)
      | generation other_numeral => exact generation_name_eq numeral other_numeral same
      | overflow => exact absurd (last ends (getLast?_overflow other) same ▸ digit) (by decide)
  | overflow =>
      generalize same : name ++ ".overflow" = entry at second
      cases second with
      | staging =>
          exact absurd (last (getLast?_overflow name) (getLast?_stagingName other) same) (by decide)
      | generation numeral =>
          obtain ⟨c, ends, digit⟩ := @getLast?_generation other _ numeral
          exact absurd (last (getLast?_overflow name) ends same ▸ digit) (by decide)
      | overflow => exact (String.append_left_inj _).mp same

end FingerprintSet.Checkpoint
