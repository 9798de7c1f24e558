import FingerprintSet.Proofs.Storage.Frame
import FingerprintSet.Proofs.Text.Digits

/-!
# Names with a number

The names of pages, of segment files and of checkpoint directories are a number between two
fixed texts.  Different numbers make different names, and a number that is not too long makes
a name that a directory takes.
-/

namespace FingerprintSet.Storage

open Volume

/-- A number between two texts, with zeros in front up to a width. -/
def numbered (front : String) (width n : Nat) (back : String) : String :=
  front ++ Text.zeroPadded width n ++ back

/-- Numbers below this limit have no more than thirty digits. -/
def numberLimit : Nat := Nat.pow 10 30

theorem toList_numbered (front : String) (width n : Nat) (back : String) :
    (numbered front width n back).toList =
      front.toList ++ (Text.zeroPadded width n).toList ++ back.toList := by
  rw [numbered, String.toList_append, String.toList_append]

theorem numbered_inj {front back : String} {width first second : Nat} :
    numbered front width first back = numbered front width second back ↔ first = second := by
  constructor
  · intro same
    have chars := congrArg String.toList same
    rw [toList_numbered, toList_numbered, List.append_left_inj, List.append_right_inj] at chars
    exact Text.zeroPadded_inj.mp (String.toList_injective chars)
  · rintro rfl
    rfl

theorem numbered_fits {front back : String} {width digits n : Nat}
    (short : front.utf8ByteSize + back.utf8ByteSize + digits ≤ longestName)
    (narrow : 0 < width ∧ width ≤ digits) (frontClean : '\x00' ∉ front.toList)
    (backClean : '\x00' ∉ back.toList) (below : n < Nat.pow 10 digits) :
    FitsDirectory (numbered front width n back) := by
  constructor
  · have few := Text.length_digits_le (by omega) below
    rw [numbered, String.utf8ByteSize_append, String.utf8ByteSize_append,
      Text.utf8ByteSize_zeroPadded]
    omega
  · rw [Bool.eq_false_iff]
    intro found
    have mem := List.contains_iff_mem.mp found
    rw [toList_numbered, List.mem_append, List.mem_append] at mem
    rcases mem with (mem | mem) | mem
    · exact frontClean mem
    · exact Text.not_mem_zeroPadded (by decide) mem
    · exact backClean mem

end FingerprintSet.Storage
