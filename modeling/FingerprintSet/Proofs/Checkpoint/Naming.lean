import FingerprintSet.Checkpoint.Naming
import FingerprintSet.Proofs.Storage.Names
import Mathlib.Data.List.Basic

/-!
# What the names of checkpoints stand for

The name of a generation's directory stands for that generation, and no other name that is used
stands for any.  All names of a set's checkpoints start with one stem.
-/

namespace FingerprintSet.Checkpoint

open Storage Text

variable {name : String} {generation : Nat}

theorem generationOf?_append (name : String) (suffix : String) :
    generationOf? name (stem name ++ suffix) = suffixNumber? suffix.toList := by
  rw [generationOf?, String.toList_append, List.isPrefixOf?_eq_some_iff_append_eq.mpr rfl]
  rfl

/-- The name of a generation stands for it. -/
theorem generationOf?_generationName (below : generation < generationLimit) :
    generationOf? name (generationName name generation) = some generation := by
  rw [generationName, generationOf?_append, suffixNumber?]
  · obtain ⟨d, ds, split⟩ := List.exists_cons_of_ne_nil (paddedDigits_ne_nil 8 generation)
    have number := ofDigits_paddedDigits 8 generation
    rw [split] at number
    simp only [takeDigits_zeroPadded, split, number]
    exact if_pos below
  · intro rest signed
    have mem : '+' ∈ (zeroPadded 8 generation).toList := signed ▸ List.mem_cons_self
    exact not_mem_zeroPadded (by decide) mem

/-- The name of the directory in which a checkpoint is written stands for no generation. -/
theorem generationOf?_stagingName (name : String) :
    generationOf? name (stagingName name) = none := by
  rw [stagingName, generationOf?_append]
  decide

theorem generationName_ne_stagingName (below : generation < generationLimit) :
    generationName name generation ≠ stagingName name := by
  intro same
  have number := @generationOf?_generationName name _ below
  rw [same, generationOf?_stagingName] at number
  contradiction

/-- What stands for a generation begins with the stem. -/
theorem stem_of_generationOf? {entry : String} (found : generationOf? name entry = some generation) :
    ∃ suffix, entry = stem name ++ suffix := by
  rw [generationOf?] at found
  cases isPrefix : (stem name).toList.isPrefixOf? entry.toList with
  | none =>
      rw [isPrefix] at found
      contradiction
  | some suffix =>
      refine ⟨String.ofList suffix, String.toList_injective ?_⟩
      rw [← List.append_eq_of_isPrefixOf?_eq_some isPrefix, String.toList_append,
        String.toList_ofList]

/-! ## Short names -/

theorem stem_size (name : String) : (stem name).utf8ByteSize = name.utf8ByteSize + 7 :=
  String.utf8ByteSize_append

theorem stem_clean (clean : '\x00' ∉ name.toList) : '\x00' ∉ (stem name).toList := by
  rw [stem, String.toList_append, List.mem_append]
  exact not_or.mpr ⟨clean, by decide⟩

theorem stagingName_fits (short : name.utf8ByteSize + 14 ≤ Volume.longestName)
    (clean : '\x00' ∉ name.toList) : FitsDirectory (stagingName name) := by
  constructor
  · rw [stagingName, String.utf8ByteSize_append, stem_size]
    exact short
  · rw [Bool.eq_false_iff]
    intro found
    have mem := List.contains_iff_mem.mp found
    rw [stagingName, String.toList_append, List.mem_append] at mem
    exact mem.elim (stem_clean clean) (by decide)

/-- The number of a generation has no more than twenty digits. -/
theorem generationName_fits (short : name.utf8ByteSize + 27 ≤ Volume.longestName)
    (clean : '\x00' ∉ name.toList) (below : generation < generationLimit) :
    FitsDirectory (generationName name generation) := by
  have same : generationName name generation = numbered (stem name) 8 generation "" :=
    String.append_empty.symm
  have limit : generationLimit < Nat.pow 10 20 := by decide
  have room : (stem name).utf8ByteSize + "".utf8ByteSize + 20 ≤ Volume.longestName := by
    rw [stem_size]
    exact short
  rw [same]
  exact numbered_fits room (by decide) (stem_clean clean) (by decide) (Nat.lt_trans below limit)

/-! ## Files of segments -/

theorem segmentFile_eq (index : Nat) : segmentFile index = numbered "seg-" 4 index ".fps" := rfl

theorem segmentFile_inj {first second : Nat} : segmentFile first = segmentFile second ↔ first = second := by
  rw [segmentFile_eq, segmentFile_eq, numbered_inj]

theorem segmentFile_fits {index : Nat} (below : index < UInt64.size) :
    FitsDirectory (segmentFile index) := by
  have limit : UInt64.size < Nat.pow 10 20 := by decide
  exact numbered_fits (by decide) (by decide) (by decide) (by decide) (Nat.lt_trans below limit)

theorem manifestFile_fits : FitsDirectory manifestFile := by
  constructor <;> decide

theorem segmentFile_ne_manifestFile (index : Nat) : segmentFile index ≠ manifestFile := by
  intro same
  have chars := congrArg (·.toList.head?) same
  rw [segmentFile_eq, toList_numbered] at chars
  have first : some 's' = some 'm' := chars
  exact absurd first (by decide)

end FingerprintSet.Checkpoint
