import FingerprintSet.Proofs.Fnv
import FingerprintSet.Proofs.SortedFile.Exact

/-!
# Damaged files

A file that was intact is so no longer when one of its bytes changes, the reserved ones apart,
and neither when it is cut or when something is added.  In the header every field is compared with something:
the magic and the version with constants, the count with the length, the checksum with the
entries.  In the entries it is the checksum that tells, for no later byte undoes the difference
that one byte has made.
-/

namespace FingerprintSet

open Storage Volume

namespace SortedFile

/-- What can happen to the bytes of a file: one that is not reserved is replaced by a different
one, the file is cut, or something is added. -/
inductive Damage (bytes : Bytes) : Bytes → Prop
  | replaced (place : Nat) (inside : place < bytes.size)
      (unreserved : place < 24 ∨ headerLength ≤ place) (byte : UInt8)
      (differs : byte ≠ bytes[place]) : Damage bytes (bytes.set place byte)
  | cut (length : Nat) (shorter : length < bytes.size) : Damage bytes (bytes.extract 0 length)
  | extended (more : Bytes) (nonempty : more ≠ #[]) : Damage bytes (bytes ++ more)

variable {kind : Kind} {header other : Header} {bytes damaged : Bytes}

/-! ## Fields -/

theorem length_field {start width : Nat} (inside : start + width ≤ bytes.size) :
    (field bytes start width).length = width := by
  rw [field, List.length_take, List.length_drop, Array.length_toList]
  omega

/-- A byte outside a field leaves it alone. -/
theorem field_set_outside {place start width : Nat} {byte : UInt8} (inside : place < bytes.size)
    (outside : place < start ∨ start + width ≤ place) :
    field (bytes.set place byte) start width = field bytes start width := by
  rw [field, field, Array.toList_set, List.drop_set]
  split
  · rfl
  · rw [List.take_set, List.set_eq_of_length_le]
    rw [List.length_take]
    omega

/-- A byte inside a field changes it. -/
theorem field_set_inside {place start width : Nat} {byte : UInt8} (inside : place < bytes.size)
    (differs : byte ≠ bytes[place]) (onward : start ≤ place) (within : place < start + width) :
    field (bytes.set place byte) start width ≠ field bytes start width := by
  intro same
  have here := congrArg (·[place - start]?) same
  simp only [field, List.getElem?_take_of_lt (show place - start < width by omega),
    List.getElem?_drop, Nat.add_sub_cancel' onward, Array.getElem?_toList] at here
  rw [Array.getElem?_set_self, Array.getElem?_eq_getElem inside] at here
  exact differs (Option.some.inj here)

/-! ## Whole files -/

theorem Headed.headerLength_le (headed : Headed kind header bytes) : headerLength ≤ bytes.size := by
  rw [headed.length]
  exact Nat.le_add_right _ _

/-- Nothing else has the same header fields and another length. -/
theorem Headed.not_resized (headed : Headed kind header bytes) (size : damaged.size ≠ bytes.size)
    (same : headerLength ≤ damaged.size → field damaged 8 8 = field bytes 8 8) :
    ¬Headed kind other damaged := by
  intro also
  have count : other.count = header.count := by
    rw [← also.count, same also.headerLength_le, headed.count]
  exact size (by rw [also.length, headed.length, Header.fileLength, Header.fileLength, count])

/-- Files of one length have as many entries. -/
theorem Headed.count_eq (headed : Headed kind header bytes) (also : Headed kind other damaged)
    (size : damaged.size = bytes.size) : other.count = header.count := by
  have lengths := also.length.symm.trans (size.trans headed.length)
  simp only [Header.fileLength, headerLength, entryLength] at lengths
  exact UInt64.toNat_inj.mp (by omega)

theorem not_headed_cut {length : Nat} (headed : Headed kind header bytes)
    (shorter : length < bytes.size) : ¬Headed kind other (bytes.extract 0 length) := by
  have size : (bytes.extract 0 length).size = length := by
    rw [Array.size_extract]
    omega
  apply headed.not_resized (by omega)
  intro long
  rw [size, headerLength] at long
  rw [field, field, Array.toList_extract, List.extract_eq_take_drop, List.drop_zero,
    List.drop_take, List.take_take, Nat.min_eq_left (by omega)]

theorem not_headed_extended {more : Bytes} (headed : Headed kind header bytes)
    (nonempty : more ≠ #[]) : ¬Headed kind other (bytes ++ more) := by
  have longer : more.size ≠ 0 := fun none => nonempty (Array.eq_empty_of_size_eq_zero none)
  have long := headed.headerLength_le
  rw [headerLength, ← Array.length_toList] at long
  apply headed.not_resized
  · rw [Array.size_append]
    omega
  · intro _
    rw [field, field, Array.toList_append, List.drop_append_of_le_length (by omega),
      List.take_append_of_le_length]
    rw [List.length_drop]
    omega

/-- A replaced entry byte changes the checksum of the entries. -/
theorem checksum_replaced {place : Nat} {byte : UInt8} (inside : place < bytes.size)
    (headed : Headed kind header bytes) (also : Headed kind other (bytes.set place byte))
    (behind : headerLength ≤ place) (differs : byte ≠ bytes[place]) :
    Fnv.checksum (entriesIn (bytes.set place byte)) ≠ Fnv.checksum (entriesIn bytes) := by
  have here : place - headerLength < (bytes.toList.drop headerLength).length := by
    rw [List.length_drop, Array.length_toList]
    omega
  have original : (bytes.toList.drop headerLength)[place - headerLength] = bytes[place] := by
    rw [List.getElem_drop, Array.getElem_toList]
    simp only [Nat.add_sub_cancel' behind]
  have replaced : (bytes.set place byte).toList.drop headerLength =
      (bytes.toList.drop headerLength).set (place - headerLength) byte := by
    rw [Array.toList_set, List.drop_set, if_neg (Nat.not_lt.mpr behind)]
  rw [Fnv.checksum_eq, Fnv.checksum_eq, (allBytes_entriesIn also.length).1,
    (allBytes_entriesIn headed.length).1, replaced]
  exact Fnv.absorbAll_set_ne here (original ▸ differs)

/-- A replaced byte that is not reserved is noticed. -/
theorem not_intact_replaced {place : Nat} {byte : UInt8} (intact : Intact kind header bytes)
    (inside : place < bytes.size) (unreserved : place < 24 ∨ headerLength ≤ place)
    (differs : byte ≠ bytes[place]) : ¬Intact kind other (bytes.set place byte) := by
  intro also
  have headed := intact.headed
  have long := headed.headerLength_le
  have size : (bytes.set place byte).size = bytes.size := Array.size_set ..
  have alike (start width : Nat) (fits : start + width ≤ headerLength) :
      (field (bytes.set place byte) start width).length = (field bytes start width).length := by
    rw [length_field (by omega), length_field (by omega)]
  have eight (start : Nat) (fits : start + 8 ≤ headerLength) : (field bytes start 8).length = 8 :=
    length_field (by omega)
  rcases unreserved with fixed | behind
  · rcases Nat.lt_or_ge place 4 with magic | afterMagic
    · exact field_set_inside inside differs (Nat.zero_le _) (by omega)
        (also.headed.magic.trans headed.magic.symm)
    rcases Nat.lt_or_ge place 8 with version | afterVersion
    · exact field_set_inside inside differs afterMagic version
        (Word.natOfBytes_inj (alike 4 4 (by decide))
          (also.headed.version.trans headed.version.symm))
    rcases Nat.lt_or_ge place 16 with count | afterCount
    · have same := headed.count_eq also.headed size
      rw [← headed.count, ← also.headed.count] at same
      exact field_set_inside inside differs afterVersion count
        (Word.ofBytes_inj ((alike 8 8 (by decide)).trans (eight 8 (by decide)))
          (eight 8 (by decide)) same)
    · have entries : entriesIn (bytes.set place byte) = entriesIn bytes := by
        apply entriesIn_eq
        rw [(allBytes_entriesIn headed.length).1, Array.toList_set, List.drop_set,
          if_pos (by rw [headerLength]; omega)]
      have same := intact.sum
      rw [← entries, also.sum, ← headed.checksum, ← also.headed.checksum] at same
      exact field_set_inside inside differs afterCount fixed
        (Word.ofBytes_inj ((alike 16 8 (by decide)).trans (eight 16 (by decide)))
          (eight 16 (by decide)) same)
  · rw [headerLength] at behind
    have kept : field (bytes.set place byte) 16 8 = field bytes 16 8 :=
      field_set_outside inside (Or.inr (by omega))
    have same : other.checksum = header.checksum := by
      rw [← also.headed.checksum, kept, headed.checksum]
    apply checksum_replaced inside headed also.headed behind differs
    rw [also.sum, same, intact.sum]

/-- No damage leaves a file intact. -/
theorem Damage.spoils (damage : Damage bytes damaged) (intact : Intact kind header bytes) :
    ¬Intact kind other damaged := by
  cases damage with
  | cut length shorter => exact fun also => not_headed_cut intact.headed shorter also.headed
  | extended more nonempty => exact fun also => not_headed_extended intact.headed nonempty also.headed
  | replaced place inside unreserved byte differs =>
      exact not_intact_replaced intact inside unreserved differs

end SortedFile

end FingerprintSet
