import FingerprintSet.BucketTable

/-!
# What the buckets of a table hold

Each bucket is a queue of bounded length.  One that takes in a fingerprint gives up its older
half first if it is full, and no other bucket notices.  So what a table holds, together with
what it gives up, is what it held before and the new fingerprint.
-/

namespace FingerprintSet.BucketTable

/-- The arrays of a table have room for every bucket, and no bucket holds more than its
width. -/
structure Shaped (table : BucketTable) (buckets : Nat) : Prop where
  wide : 0 < table.bucketEntries
  narrow : table.bucketEntries ≤ 255
  slots : table.slots.size = buckets * table.bucketEntries
  occupancy : table.occupancy.size = buckets
  fits : ∀ bucket, table.occupied bucket ≤ table.bucketEntries
  counted : table.size = table.toList.length

variable {table : BucketTable} {buckets bucket other : Nat} {fp : Fingerprint}

theorem empty_occupied (buckets bucketEntries bucket : Nat) :
    (empty buckets bucketEntries).occupied bucket = 0 := by
  simp [occupied, empty, Array.getD_eq_getD_getElem?, Array.getElem?_replicate]
  split <;> rfl

theorem empty_toList (buckets bucketEntries : Nat) : (empty buckets bucketEntries).toList = [] := by
  rw [toList, List.flatMap_eq_nil_iff]
  intro bucket _
  rw [BucketTable.bucket, empty_occupied]
  rfl

theorem empty_shaped {buckets bucketEntries : Nat} (wide : 0 < bucketEntries)
    (narrow : bucketEntries ≤ 255) : (empty buckets bucketEntries).Shaped buckets where
  wide := wide
  narrow := narrow
  slots := Array.size_replicate
  occupancy := Array.size_replicate
  fits bucket := by simp [empty_occupied]
  counted := by
    rw [empty_toList]
    rfl

/-! ## Moving down -/

theorem size_moveDown (slots : Array Fingerprint) (start distance count : Nat) :
    (moveDown slots start distance count).size = slots.size := by
  induction count with
  | zero => rfl
  | succ count ih => simp [moveDown, ih]

theorem getD_setIfInBounds {slots : Array Fingerprint} {place : Nat} (inside : place < slots.size)
    (fp : Fingerprint) (position : Nat) :
    (slots.setIfInBounds place fp).getD position 0 =
      if position = place then fp else slots.getD position 0 := by
  rw [Array.getD_eq_getD_getElem?, Array.getElem?_setIfInBounds]
  split
  · rename_i same
    rw [if_pos same.symm]
    rfl
  · rename_i different
    rw [if_neg (Ne.symm different), Array.getD_eq_getD_getElem?]

/-- The fingerprints moved are those that stood `distance` slots higher. -/
theorem getD_moveDown {slots : Array Fingerprint} {start distance count : Nat}
    (inside : start + count ≤ slots.size) (position : Nat) :
    (moveDown slots start distance count).getD position 0 =
      if start ≤ position ∧ position < start + count then slots.getD (position + distance) 0
      else slots.getD position 0 := by
  induction count generalizing position with
  | zero =>
      rw [if_neg (by omega)]
      rfl
  | succ count ih =>
      have place : start + count < (moveDown slots start distance count).size := by
        rw [size_moveDown]
        omega
      have shrunk : start + count ≤ slots.size := by omega
      rw [moveDown, getD_setIfInBounds place]
      split
      · rename_i last
        have source : start + distance + count = position + distance := by omega
        rw [if_pos (by omega), ih shrunk, if_neg (by omega), source]
      · rename_i different
        rw [ih shrunk]
        by_cases moved : start ≤ position ∧ position < start + count
        · rw [if_pos moved, if_pos (by omega)]
        · rw [if_neg moved, if_neg (by omega)]

/-! ## Taking in a fingerprint -/

theorem length_bucket (table : BucketTable) (bucket : Nat) :
    (table.bucket bucket).length = table.occupied bucket := by
  simp [BucketTable.bucket]

theorem surplus_le (table : BucketTable) (bucket : Nat) :
    table.surplus bucket ≤ table.occupied bucket := by
  rw [surplus]
  split <;> omega

/-- How many stay in a bucket when one more comes. -/
def kept (table : BucketTable) (bucket : Nat) : Nat :=
  table.occupied bucket - table.surplus bucket

theorem Shaped.kept_lt (shaped : table.Shaped buckets) (bucket : Nat) :
    table.kept bucket < table.bucketEntries := by
  have fits := shaped.fits bucket
  have wide := shaped.wide
  rw [kept, surplus]
  split <;> omega

theorem Shaped.firstSlot_le (shaped : table.Shaped buckets) (inside : bucket < buckets) :
    table.firstSlot bucket + table.bucketEntries ≤ table.slots.size := by
  rw [shaped.slots, firstSlot, ← Nat.succ_mul]
  exact Nat.mul_le_mul_right _ inside

theorem insert_slots (table : BucketTable) (bucket : Nat) (fp : Fingerprint) :
    (table.insert bucket fp).slots =
      (if table.surplus bucket = 0 then table.slots
        else moveDown table.slots (table.firstSlot bucket) (table.surplus bucket)
          (table.kept bucket)).setIfInBounds (table.firstSlot bucket + table.kept bucket) fp :=
  rfl

theorem insert_occupied (shaped : table.Shaped buckets) (inside : bucket < buckets) :
    (table.insert bucket fp).occupied other =
      if other = bucket then table.kept bucket + 1 else table.occupied other := by
  have unfolded : (table.insert bucket fp).occupancy =
      table.occupancy.setIfInBounds bucket (table.kept bucket + 1).toUInt8 := rfl
  rw [occupied, unfolded, Array.getD_eq_getD_getElem?, Array.getElem?_setIfInBounds]
  split
  · rename_i same
    have below := shaped.kept_lt bucket
    have narrow := shaped.narrow
    rw [if_pos same.symm, if_pos (by rw [shaped.occupancy]; exact inside)]
    exact UInt8.toNat_ofNat_of_lt (by rw [UInt8.size]; omega)
  · rename_i different
    rw [if_neg (Ne.symm different), occupied, Array.getD_eq_getD_getElem?]

theorem insert_slot (shaped : table.Shaped buckets) (inside : bucket < buckets)
    (position : Nat) :
    (table.insert bucket fp).slot position =
      if position = table.firstSlot bucket + table.kept bucket then fp
      else if table.firstSlot bucket ≤ position ∧
          position < table.firstSlot bucket + table.kept bucket then
        table.slot (position + table.surplus bucket)
      else table.slot position := by
  have room := shaped.firstSlot_le inside
  have below := shaped.kept_lt bucket
  rw [slot, insert_slots, getD_setIfInBounds]
  · split
    · rfl
    · split
      · rename_i none
        rw [none, Nat.add_zero, ite_self]
        rfl
      · rw [getD_moveDown (by omega)]
        rfl
  · split
    · omega
    · rw [size_moveDown]
      omega

/-- A bucket that takes in a fingerprint holds it behind those it has not given up. -/
theorem insert_bucket_self (shaped : table.Shaped buckets) (inside : bucket < buckets) :
    (table.insert bucket fp).bucket bucket =
      (table.bucket bucket).drop (table.surplus bucket) ++ [fp] := by
  have less := table.surplus_le bucket
  have same : (table.insert bucket fp).firstSlot bucket = table.firstSlot bucket := rfl
  apply List.ext_getElem
  · rw [length_bucket, insert_occupied shaped inside, if_pos rfl, List.length_append,
      List.length_drop, length_bucket]
    rfl
  · intro place first second
    rw [length_bucket, insert_occupied shaped inside, if_pos rfl] at first
    simp only [BucketTable.bucket, List.getElem_map, List.getElem_range, same,
      insert_slot shaped inside, List.getElem_append, List.length_drop, List.length_map,
      List.length_range, List.getElem_drop, List.getElem_singleton]
    rw [kept] at first ⊢
    by_cases last : place = table.occupied bucket - table.surplus bucket
    · rw [if_pos (by omega), dif_neg (by omega)]
    · have order : table.firstSlot bucket + place + table.surplus bucket =
          table.firstSlot bucket + (table.surplus bucket + place) := by omega
      rw [if_neg (by omega), if_pos (by omega), dif_pos (by omega), order]

theorem insert_bucket_ne (shaped : table.Shaped buckets) (inside : bucket < buckets)
    (different : other ≠ bucket) :
    (table.insert bucket fp).bucket other = table.bucket other := by
  have same : (table.insert bucket fp).firstSlot other = table.firstSlot other := rfl
  have below := shaped.kept_lt bucket
  have fits := shaped.fits other
  rw [BucketTable.bucket, BucketTable.bucket, insert_occupied shaped inside, if_neg different]
  apply List.map_congr_left
  intro place mem
  rw [List.mem_range] at mem
  -- The slots of different buckets lie apart.
  have apart : table.firstSlot other + place < table.firstSlot bucket ∨
      table.firstSlot bucket + table.bucketEntries ≤ table.firstSlot other + place := by
    rcases Nat.lt_or_gt_of_ne different with left | right
    · have next := Nat.mul_le_mul_right table.bucketEntries left
      rw [Nat.succ_mul] at next
      rw [firstSlot, firstSlot]
      omega
    · have next := Nat.mul_le_mul_right table.bucketEntries right
      rw [Nat.succ_mul] at next
      rw [firstSlot, firstSlot]
      omega
  rw [same, insert_slot shaped inside, if_neg (by omega), if_neg (by omega)]

/-- What a table holds and gives up is what it held and the new fingerprint. -/
theorem insert_toList (shaped : table.Shaped buckets) (inside : bucket < buckets) :
    (table.evicted bucket ++ (table.insert bucket fp).toList).Perm (fp :: table.toList) := by
  have size : (table.insert bucket fp).occupancy.size = table.occupancy.size :=
    Array.size_setIfInBounds
  have mem : bucket ∈ List.range table.occupancy.size := by
    rw [List.mem_range, shaped.occupancy]
    exact inside
  obtain ⟨before, after, split⟩ := List.append_of_mem mem
  have distinct : (List.range table.occupancy.size).Nodup := List.nodup_range
  rw [split, List.perm_middle.nodup_iff, List.nodup_cons, List.mem_append] at distinct
  have unchanged (places : List Nat) (absent : bucket ∉ places) :
      places.flatMap (table.insert bucket fp).bucket = places.flatMap table.bucket := by
    rw [List.flatMap, List.flatMap]
    apply congrArg List.flatten
    apply List.map_congr_left
    intro place placeMem
    exact insert_bucket_ne shaped inside fun same => absent (same ▸ placeMem)
  have whole : table.bucket bucket =
      table.evicted bucket ++ (table.bucket bucket).drop (table.surplus bucket) :=
    (List.take_append_drop _ _).symm
  rw [toList, toList, size, split, List.flatMap_append, List.flatMap_append, List.flatMap_cons,
    List.flatMap_cons, insert_bucket_self shaped inside,
    unchanged before fun early => distinct.1 (Or.inl early),
    unchanged after fun late => distinct.1 (Or.inr late)]
  generalize before.flatMap table.bucket = early
  generalize after.flatMap table.bucket = late
  generalize (table.bucket bucket).drop (table.surplus bucket) = rest at whole ⊢
  rw [whole]
  apply List.perm_iff_count.mpr
  intro one
  simp only [List.count_append, List.count_cons, List.count_nil]
  omega

theorem mem_insert_toList (shaped : table.Shaped buckets) (inside : bucket < buckets) :
    fp ∈ (table.insert bucket fp).toList := by
  rw [toList, List.mem_flatMap]
  refine ⟨bucket, ?_, ?_⟩
  · have size : (table.insert bucket fp).occupancy.size = table.occupancy.size :=
      Array.size_setIfInBounds
    rw [List.mem_range, size, shaped.occupancy]
    exact inside
  · rw [insert_bucket_self shaped inside]
    exact List.mem_append_right _ List.mem_cons_self

theorem insert_shaped (shaped : table.Shaped buckets) (inside : bucket < buckets) :
    (table.insert bucket fp).Shaped buckets where
  wide := shaped.wide
  narrow := shaped.narrow
  slots := by
    rw [insert_slots, Array.size_setIfInBounds]
    split
    · exact shaped.slots
    · rw [size_moveDown]
      exact shaped.slots
  occupancy := Array.size_setIfInBounds.trans shaped.occupancy
  fits other := by
    rw [insert_occupied shaped inside]
    split
    · exact shaped.kept_lt bucket
    · exact shaped.fits other
  counted := by
    have unfolded : (table.insert bucket fp).size = table.size - table.surplus bucket + 1 := rfl
    have lengths := (@insert_toList _ _ _ fp shaped inside).length_eq
    have some := List.length_pos_of_mem (@mem_insert_toList _ _ _ fp shaped inside)
    have less := table.surplus_le bucket
    rw [List.length_append, evicted, List.length_take, length_bucket, List.length_cons] at lengths
    rw [unfolded, shaped.counted]
    omega

/-- A table holds no more than its buckets have room for. -/
theorem Shaped.length_toList_le (shaped : table.Shaped buckets) :
    table.toList.length ≤ buckets * table.bucketEntries := by
  have rounds (count : Nat) :
      ((List.range count).flatMap table.bucket).length ≤ count * table.bucketEntries := by
    induction count with
    | zero => exact Nat.zero_le _
    | succ count ih =>
        rw [List.range_succ, List.flatMap_append, List.length_append, List.flatMap_singleton,
          length_bucket, Nat.succ_mul]
        exact Nat.add_le_add ih (shaped.fits count)
  rw [toList, shaped.occupancy]
  exact rounds buckets

/-- The record grows to how full the bucket is now. -/
theorem insert_maxOccupancy (shaped : table.Shaped buckets) (bucket : Nat) (fp : Fingerprint) :
    (table.insert bucket fp).maxOccupancy.toNat =
      max table.maxOccupancy.toNat (table.kept bucket + 1) := by
  have below := shaped.kept_lt bucket
  have narrow := shaped.narrow
  have filled : (table.kept bucket + 1).toUInt8.toNat = table.kept bucket + 1 :=
    UInt8.toNat_ofNat_of_lt (by rw [UInt8.size]; omega)
  have unfolded : (table.insert bucket fp).maxOccupancy =
      if table.maxOccupancy ≤ (table.kept bucket + 1).toUInt8 then (table.kept bucket + 1).toUInt8
      else table.maxOccupancy := rfl
  rw [unfolded]
  split
  · rename_i fuller
    rw [UInt8.le_iff_toNat_le] at fuller
    rw [Nat.max_eq_right (filled ▸ fuller), filled]
  · rename_i emptier
    rw [UInt8.le_iff_toNat_le, filled] at emptier
    exact (Nat.max_eq_left (Nat.le_of_not_le emptier)).symm

/-- No bucket that takes in a fingerprint gets fuller than it is wide. -/
theorem insert_maxOccupancy_le (shaped : table.Shaped buckets)
    (most : table.maxOccupancy.toNat ≤ table.bucketEntries) (bucket : Nat) (fp : Fingerprint) :
    (table.insert bucket fp).maxOccupancy.toNat ≤ table.bucketEntries := by
  rw [insert_maxOccupancy shaped]
  exact Nat.max_le.mpr ⟨most, shaped.kept_lt bucket⟩

/-- No more is given up than half of a bucket, rounded up. -/
theorem length_evicted_le (table : BucketTable) (bucket : Nat) :
    (table.evicted bucket).length ≤ (table.bucketEntries + 1) / 2 := by
  rw [evicted, List.length_take, surplus]
  split
  · exact Nat.min_le_left _ _
  · exact Nat.le_trans (Nat.min_le_left _ _) (Nat.zero_le _)

/-- A fingerprint put into a bucket of its own is found by looking there. -/
theorem contains_iff (home : Fingerprint → Nat) (shaped : table.Shaped buckets)
    (homed : ∀ bucket, ∀ fp ∈ table.bucket bucket, home fp = bucket)
    (inside : home fp < buckets) :
    table.contains (home fp) fp = true ↔ fp ∈ table.toList := by
  rw [contains, List.contains_iff_mem, toList, List.mem_flatMap]
  constructor
  · intro mem
    exact ⟨home fp, List.mem_range.mpr (shaped.occupancy ▸ inside), mem⟩
  · rintro ⟨bucket, -, mem⟩
    rw [homed bucket fp mem]
    exact mem

end FingerprintSet.BucketTable
