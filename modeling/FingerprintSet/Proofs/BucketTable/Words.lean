import FingerprintSet.Proofs.BucketTable
import FingerprintSet.Proofs.Range

/-!
# Bucket tables in words and slices

A bucket is a slice of the slots, and what a bucket gives up is moved from one slice to another.
As long as a table has its shape and a bucket is one of its buckets, all these slices are there.
-/

namespace FingerprintSet

open Wordwise

namespace BucketTable

namespace Wordwise

/-- `BucketTable.empty` in words. -/
def empty (buckets bucketEntries : Nat) : Option BucketTable := do
  let _ ← times buckets bucketEntries
  return BucketTable.empty buckets bucketEntries

/-- `BucketTable.bucket` in words. -/
def bucket (table : BucketTable) (bucket : Nat) : Option (List Fingerprint) := do
  let start ← times bucket table.bucketEntries
  let occupied ← table.occupancy[bucket]?
  slice table.slots start (← plus start occupied.toNat)

/-- `BucketTable.contains` in words. -/
def contains (table : BucketTable) (number : Nat) (fp : Fingerprint) : Option Bool := do
  return (← bucket table number).contains fp

/-- `BucketTable.surplus` in words. -/
def surplus (table : BucketTable) (bucket : Nat) : Option Nat := do
  let occupied ← table.occupancy[bucket]?
  if occupied.toNat = table.bucketEntries then
    return (← plus table.bucketEntries 1) / 2
  else
    return 0

/-- `BucketTable.evicted` in words. -/
def evicted (table : BucketTable) (bucket : Nat) : Option (List Fingerprint) := do
  let start ← times bucket table.bucketEntries
  slice table.slots start (← plus start (← surplus table bucket))

/-- `BucketTable.moveDown` in words: one slice is copied to another. -/
def moveDown (slots : Array Fingerprint) (start distance count : Nat) :
    Option (Array Fingerprint) := do
  let source ← plus start distance
  let _ ← slice slots source (← plus source count)
  let _ ← slice slots start (← plus start count)
  return BucketTable.moveDown slots start distance count

/-- The slots once a bucket has given up its surplus: what it keeps is at its start. -/
def makeRoom (slots : Array Fingerprint) (start gone kept : Nat) : Option (Array Fingerprint) :=
  if gone = 0 then some slots else moveDown slots start gone kept

/-- `BucketTable.insert` in words. -/
def insert (table : BucketTable) (bucket : Nat) (fp : Fingerprint) : Option BucketTable := do
  let start ← times bucket table.bucketEntries
  let occupied ← table.occupancy[bucket]?
  let gone ← surplus table bucket
  let kept ← minus occupied.toNat gone
  let slots ← makeRoom table.slots start gone kept
  let filled ← byte (← plus kept 1)
  return {
    slots := ← replaced slots (← plus start kept) fp
    occupancy := ← replaced table.occupancy bucket filled
    bucketEntries := table.bucketEntries
    size := ← plus (← minus table.size gone) 1
    maxOccupancy := max table.maxOccupancy filled }

/-- `BucketTable.toList` in words. -/
def toList (table : BucketTable) : Option (List Fingerprint) := do
  return (← (List.range table.occupancy.size).mapM (bucket table)).flatten

variable {table : BucketTable} {buckets number : Nat} {fp : Fingerprint}

theorem empty_eq {bucketEntries : Nat} (small : buckets * bucketEntries < UInt64.size) :
    empty buckets bucketEntries = some (BucketTable.empty buckets bucketEntries) := by
  rw [empty, times_eq small]
  rfl

section Shaped

variable (shaped : table.Shaped buckets) (inside : number < buckets)
  (small : table.slots.size < UInt64.size)

include shaped inside

theorem exists_occupied :
    ∃ occupied : UInt8, table.occupancy[number]? = some occupied ∧
      occupied.toNat = table.occupied number := by
  have there : number < table.occupancy.size := shaped.occupancy.symm ▸ inside
  refine ⟨table.occupancy[number], Array.getElem?_eq_getElem there, ?_⟩
  rw [BucketTable.occupied, Array.getD_eq_getD_getElem?, Array.getElem?_eq_getElem there]
  rfl

theorem surplus_eq : surplus table number = some (table.surplus number) := by
  obtain ⟨occupied, there, same⟩ := exists_occupied shaped inside
  have room : table.bucketEntries + 1 < UInt64.size :=
    Nat.lt_of_le_of_lt (Nat.succ_le_succ shaped.narrow) (by decide)
  rw [surplus, there, BucketTable.surplus]
  simp only [Option.bind_eq_bind, Option.bind_some, same, plus_eq room]
  split <;> rfl

include small

/-- The slots of a bucket are there, and their positions are words. -/
theorem slot_le {place : Nat} (within : place ≤ table.bucketEntries) :
    table.firstSlot number + place ≤ table.slots.size ∧
      table.firstSlot number + place < UInt64.size := by
  have last := shaped.firstSlot_le inside
  exact ⟨by omega, by omega⟩

theorem firstSlot_eq : times number table.bucketEntries = some (table.firstSlot number) :=
  times_eq (slot_le shaped inside small (Nat.zero_le _)).2

/-- The oldest items of a bucket are a slice of the slots. -/
theorem slice_bucket {count : Nat} (few : count ≤ table.occupied number) :
    slice table.slots (table.firstSlot number) (table.firstSlot number + count) =
      some ((table.bucket number).take count) := by
  have stop := (slot_le shaped inside small (Nat.le_trans few (shaped.fits number))).1
  rw [slice_eq (Nat.le_add_right _ _) stop]
  congr 1
  apply List.ext_getElem
  · rw [List.length_take, length_bucket, Array.length_toList, Array.size_extract]
    omega
  · intro place inExtract inBucket
    rw [List.length_take] at inBucket
    have inSlots : table.firstSlot number + place < table.slots.size := by omega
    simp only [Array.getElem_toList, Array.getElem_extract, List.getElem_take, BucketTable.bucket,
      List.getElem_map, List.getElem_range, BucketTable.slot]
    rw [Array.getD_eq_getD_getElem?, Array.getElem?_eq_getElem inSlots]
    rfl

theorem bucket_eq : bucket table number = some (table.bucket number) := by
  obtain ⟨occupied, there, same⟩ := exists_occupied shaped inside
  have fits := (slot_le shaped inside small (shaped.fits number)).2
  rw [bucket, firstSlot_eq shaped inside small]
  simp only [Option.bind_eq_bind, Option.bind_some, there, same, plus_eq fits]
  rw [slice_bucket shaped inside small (Nat.le_refl _), ← length_bucket, List.take_length]

theorem contains_eq (fp : Fingerprint) :
    contains table number fp = some (table.contains number fp) := by
  rw [contains, bucket_eq shaped inside small]
  rfl

theorem evicted_eq : evicted table number = some (table.evicted number) := by
  have less := table.surplus_le number
  have fits := (slot_le shaped inside small (Nat.le_trans less (shaped.fits number))).2
  rw [evicted, firstSlot_eq shaped inside small]
  simp only [Option.bind_eq_bind, Option.bind_some, surplus_eq shaped inside, plus_eq fits]
  exact slice_bucket shaped inside small less

/-- What a full bucket keeps fits in its slots wherever it stands. -/
theorem moveDown_eq :
    moveDown table.slots (table.firstSlot number) (table.surplus number) (table.kept number) =
      some (BucketTable.moveDown table.slots (table.firstSlot number) (table.surplus number)
        (table.kept number)) := by
  have less := table.surplus_le number
  have fits := shaped.fits number
  have kept : table.kept number = table.occupied number - table.surplus number := rfl
  have source := (slot_le shaped inside small (Nat.le_trans less fits)).2
  have stop := slot_le shaped inside small fits
  have target := slot_le shaped inside small (Nat.le_of_lt (shaped.kept_lt number))
  have whole : table.firstSlot number + table.surplus number + table.kept number =
      table.firstSlot number + table.occupied number := by omega
  rw [moveDown, plus_eq source]
  simp only [Option.bind_eq_bind, Option.bind_some]
  rw [plus_eq (whole ▸ stop.2), plus_eq target.2]
  simp only [Option.bind_some]
  rw [slice_eq (Nat.le_add_right _ _) (whole ▸ stop.1), slice_eq (Nat.le_add_right _ _) target.1]
  rfl

theorem exists_makeRoom :
    ∃ slots, makeRoom table.slots (table.firstSlot number) (table.surplus number)
        (table.kept number) = some slots ∧ slots.size = table.slots.size ∧
      (table.insert number fp).slots =
        slots.setIfInBounds (table.firstSlot number + table.kept number) fp := by
  rw [insert_slots, makeRoom]
  split
  · exact ⟨_, rfl, rfl, rfl⟩
  · exact ⟨_, moveDown_eq shaped inside small, size_moveDown .., rfl⟩

omit small in
/-- A bucket gives up no more than the table holds. -/
theorem surplus_le_size : table.surplus number ≤ table.size := by
  have mem : number ∈ List.range table.occupancy.size :=
    List.mem_range.mpr (shaped.occupancy.symm ▸ inside)
  have part : (table.bucket number).Sublist table.toList :=
    List.sublist_flatten_of_mem (List.mem_map_of_mem mem)
  rw [shaped.counted]
  exact Nat.le_trans (table.surplus_le number) (length_bucket table number ▸ part.length_le)

theorem insert_eq (fp : Fingerprint) :
    insert table number fp = some (table.insert number fp) := by
  obtain ⟨occupied, there, same⟩ := exists_occupied shaped inside
  obtain ⟨slots, room, slotsSize, slotsEq⟩ := @exists_makeRoom _ _ _ fp shaped inside small
  have kept : minus occupied.toNat (table.surplus number) = some (table.kept number) := by
    rw [same]
    exact minus_eq (table.surplus_le number)
  have keptLt := shaped.kept_lt number
  have place := slot_le shaped inside small (Nat.le_of_lt keptLt)
  have last := shaped.firstSlot_le inside
  have filled : table.kept number + 1 < UInt8.size :=
    Nat.lt_of_le_of_lt (Nat.le_trans keptLt shaped.narrow) (by decide)
  have fits : table.kept number + 1 < UInt64.size := Nat.lt_trans filled (by decide)
  -- The table that comes of it has its shape again, so its size is no more than its slots.
  have again : (table.insert number fp).Shaped buckets := insert_shaped shaped inside
  have most := again.length_toList_le
  have size : table.size - table.surplus number + 1 = (table.insert number fp).toList.length :=
    again.counted
  have width : buckets * (table.insert number fp).bucketEntries = table.slots.size :=
    shaped.slots.symm
  have counted : table.size - table.surplus number + 1 < UInt64.size := by omega
  rw [insert, firstSlot_eq shaped inside small]
  simp only [Option.bind_eq_bind, Option.bind_some, there, surplus_eq shaped inside, kept, room,
    plus_eq fits, byte_eq filled, plus_eq place.2]
  rw [replaced_eq (by omega), replaced_eq (shaped.occupancy.symm ▸ inside),
    minus_eq (surplus_le_size shaped inside)]
  simp only [Option.bind_some]
  rw [plus_eq counted, ← slotsEq]
  rfl

omit inside in
/-- All buckets of a table are there. -/
theorem toList_eq : toList table = some table.toList := by
  have every (numbers : List Nat) (within : ∀ number ∈ numbers, number < buckets) :
      numbers.mapM (bucket table) = some (numbers.map table.bucket) := by
    induction numbers with
    | nil => rfl
    | cons number numbers ih =>
        rw [List.forall_mem_cons] at within
        rw [List.mapM_cons, bucket_eq shaped within.1 small, ih within.2]
        rfl
  rw [toList, every _ fun number mem => shaped.occupancy ▸ List.mem_range.mp mem]
  rfl

end Shaped

end Wordwise

end BucketTable

end FingerprintSet
