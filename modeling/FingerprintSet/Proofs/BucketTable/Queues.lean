import FingerprintSet.Proofs.BucketTable
import FingerprintSet.Proofs.Total
import Mathlib.Order.Bounds.Basic

/-!
# A table is one queue for each bucket

A queue of bounded length gives up its older half when it is full and one more comes.  What it has
given up and what it holds are, one behind the other, all that ever came, in order.  Although all
buckets lie in one array of slots and what stays in a full bucket is moved inside it, each bucket is
such a queue of what arrives at that bucket, whatever arrives at the others.
-/

namespace FingerprintSet.BucketTable

/-- A fingerprint on its way into a bucket. -/
structure Arrival where
  bucket : Nat
  fp : Fingerprint
  deriving DecidableEq, Repr

/-- The table after some arrivals, one after the other. -/
def takeIn (table : BucketTable) : List Arrival → BucketTable
  | [] => table
  | arrival :: rest => (table.insert arrival.bucket arrival.fp).takeIn rest

/-- What a bucket gives up in the course of some arrivals, in the order in which it does. -/
def givenUp (bucket : Nat) (table : BucketTable) : List Arrival → List Fingerprint
  | [] => []
  | arrival :: rest =>
      (if arrival.bucket = bucket then table.evicted bucket else []) ++
        givenUp bucket (table.insert arrival.bucket arrival.fp) rest

/-- The fingerprints that arrive at a bucket. -/
def arrivedAt (bucket : Nat) (arrivals : List Arrival) : List Fingerprint :=
  (arrivals.filter (·.bucket = bucket)).map (·.fp)

/-! ## Queues -/

/-- What a queue has given up and what it holds, both oldest first. -/
structure Queue where
  gone : List Fingerprint := []
  held : List Fingerprint := []

namespace Queue

/-- Take one more into a queue of bounded length. -/
def push (width : Nat) (queue : Queue) (fp : Fingerprint) : Queue :=
  let surplus := if queue.held.length = width then (width + 1) / 2 else 0
  { gone := queue.gone ++ queue.held.take surplus
    held := queue.held.drop surplus ++ [fp] }

/-- The queue after some were taken in. -/
def pushAll (width : Nat) (queue : Queue) (fps : List Fingerprint) : Queue :=
  fps.foldl (push width) queue

/-- Whatever came is given up or still held, in the order in which it came. -/
theorem gone_append_held (width : Nat) (queue : Queue) (fps : List Fingerprint) :
    (queue.pushAll width fps).gone ++ (queue.pushAll width fps).held =
      queue.gone ++ queue.held ++ fps := by
  induction fps generalizing queue with
  | nil => exact (List.append_nil _).symm
  | cons fp fps ih =>
      have pushed : (queue.push width fp).gone ++ (queue.push width fp).held =
          queue.gone ++ queue.held ++ [fp] := by
        simp only [push, List.append_assoc]
        rw [← List.append_assoc (List.take _ _), List.take_append_drop]
      rw [pushAll, List.foldl_cons, ← pushAll, ih, pushed, List.append_assoc]
      rfl

end Queue

/-! ## Buckets as queues -/

variable {table : BucketTable} {buckets bucket : Nat} {fp : Fingerprint} {arrivals : List Arrival}

theorem takeIn_shaped (shaped : table.Shaped buckets)
    (inside : ∀ arrival ∈ arrivals, arrival.bucket < buckets) :
    (table.takeIn arrivals).Shaped buckets := by
  induction arrivals generalizing table with
  | nil => exact shaped
  | cons arrival arrivals ih =>
      rw [List.forall_mem_cons] at inside
      exact ih (insert_shaped shaped inside.1) inside.2

theorem takeIn_bucketEntries (table : BucketTable) (arrivals : List Arrival) :
    (table.takeIn arrivals).bucketEntries = table.bucketEntries := by
  induction arrivals generalizing table with
  | nil => rfl
  | cons arrival arrivals ih => exact ih (table.insert arrival.bucket arrival.fp)

/-- An arrival is taken into the queue of its bucket. -/
theorem insert_eq_push (shaped : table.Shaped buckets) (inside : bucket < buckets)
    (gone : List Fingerprint) :
    ({ gone := gone ++ table.evicted bucket
       held := (table.insert bucket fp).bucket bucket } : Queue) =
      Queue.push table.bucketEntries { gone, held := table.bucket bucket } fp := by
  rw [insert_bucket_self shaped inside, Queue.push, length_bucket]
  rfl

/-- Each bucket is a queue of what arrives there, whatever arrives elsewhere. -/
theorem takeIn_eq_pushAll (shaped : table.Shaped buckets)
    (inside : ∀ arrival ∈ arrivals, arrival.bucket < buckets) (gone : List Fingerprint) :
    ({ gone := gone ++ givenUp bucket table arrivals
       held := (table.takeIn arrivals).bucket bucket } : Queue) =
      Queue.pushAll table.bucketEntries { gone, held := table.bucket bucket }
        (arrivedAt bucket arrivals) := by
  induction arrivals generalizing table gone with
  | nil =>
      rw [givenUp, List.append_nil]
      rfl
  | cons arrival arrivals ih =>
      rw [List.forall_mem_cons] at inside
      have insertShaped : (table.insert arrival.bucket arrival.fp).Shaped buckets :=
        insert_shaped shaped inside.1
      have later := ih insertShaped inside.2
      have width : (table.insert arrival.bucket arrival.fp).bucketEntries =
          table.bucketEntries := rfl
      rw [width] at later
      rw [givenUp, takeIn, arrivedAt, List.filter_cons, ← List.append_assoc, later]
      by_cases here : arrival.bucket = bucket
      · subst here
        rw [if_pos rfl, if_pos (by simp), insert_eq_push shaped inside.1]
        rfl
      · rw [if_neg here, if_neg (by simpa using here), List.append_nil,
          insert_bucket_ne shaped inside.1 (Ne.symm here)]
        rfl

/-! ## The fullest bucket -/

/-- How full the buckets are at any time in the course of some arrivals. -/
def Fillings (table : BucketTable) (buckets : Nat) (arrivals : List Arrival) : Set Nat :=
  { filling | ∃ earlier, earlier <+: arrivals ∧
      ∃ bucket < buckets, (table.takeIn earlier).occupied bucket = filling }

/-- Any time is before the first arrival or after it. -/
theorem fillings_cons (table : BucketTable) (buckets : Nat) (arrival : Arrival)
    (arrivals : List Arrival) :
    table.Fillings buckets (arrival :: arrivals) =
      table.Fillings buckets [] ∪
        (table.insert arrival.bucket arrival.fp).Fillings buckets arrivals := by
  ext filling
  constructor
  · rintro ⟨earlier, before, here⟩
    rcases List.prefix_cons_iff.mp before with rfl | ⟨rest, rfl, restBefore⟩
    · exact Or.inl ⟨[], List.prefix_refl _, here⟩
    · exact Or.inr ⟨rest, restBefore, here⟩
  · rintro (⟨earlier, before, here⟩ | ⟨earlier, before, here⟩)
    · rw [List.prefix_nil] at before
      subst before
      exact ⟨[], List.nil_prefix, here⟩
    · exact ⟨arrival :: earlier, (List.prefix_cons_inj arrival).mpr before, here⟩

/-- The record of the fullest bucket covers how full the buckets are now. -/
def Recorded (table : BucketTable) : Prop :=
  ∀ bucket, table.occupied bucket ≤ table.maxOccupancy.toNat

theorem insert_recorded (shaped : table.Shaped buckets) (inside : bucket < buckets)
    (recorded : table.Recorded) : (table.insert bucket fp).Recorded := by
  intro other
  rw [insert_maxOccupancy shaped, insert_occupied shaped inside]
  split
  · exact Nat.le_max_right _ _
  · exact Nat.le_trans (recorded other) (Nat.le_max_left _ _)

/-- The record grows to the fullest that any bucket gets, and no further. -/
theorem takeIn_maxOccupancy_le_iff (shaped : table.Shaped buckets) (recorded : table.Recorded)
    (inside : ∀ arrival ∈ arrivals, arrival.bucket < buckets) (most : Nat) :
    (table.takeIn arrivals).maxOccupancy.toNat ≤ most ↔
      table.maxOccupancy.toNat ≤ most ∧ most ∈ upperBounds (table.Fillings buckets arrivals) := by
  have now (table : BucketTable) (recorded : table.Recorded)
      (below : table.maxOccupancy.toNat ≤ most) :
      most ∈ upperBounds (table.Fillings buckets []) := by
    rintro _ ⟨earlier, before, bucket, -, rfl⟩
    rw [List.prefix_nil.mp before]
    exact Nat.le_trans (recorded bucket) below
  induction arrivals generalizing table with
  | nil => exact ⟨fun below => ⟨below, now table recorded below⟩, And.left⟩
  | cons arrival arrivals ih =>
      rw [List.forall_mem_cons] at inside
      have insertShaped : (table.insert arrival.bucket arrival.fp).Shaped buckets :=
        insert_shaped shaped inside.1
      have later := ih insertShaped (insert_recorded shaped inside.1 recorded) inside.2
      rw [insert_maxOccupancy shaped, Nat.max_le] at later
      rw [fillings_cons, upperBounds_union]
      refine later.trans ⟨?_, ?_⟩
      · rintro ⟨⟨below, -⟩, bound⟩
        exact ⟨below, now table recorded below, bound⟩
      · rintro ⟨below, -, bound⟩
        refine ⟨⟨below, bound ⟨[], List.nil_prefix, arrival.bucket, inside.1, ?_⟩⟩, bound⟩
        rw [takeIn, insert_occupied shaped inside.1, if_pos rfl]

/-! ## All arrivals -/

/-- However fingerprints arrive at the buckets of a new table, each bucket is a queue of what
arrives there: what it has given up and what it holds are all that arrived, in order.  An arrival
leaves all other buckets alone; looking into a bucket finds what it holds; the buckets are listed
one after the other and counted together; and no bucket gets fuller than it is wide, nor fuller
than the record says, which is the fullest that any bucket ever was. -/
theorem buckets_are_queues {buckets width : Nat} (wide : 0 < width) (narrow : width ≤ 255)
    (arrivals : List Arrival) (inside : ∀ arrival ∈ arrivals, arrival.bucket < buckets) :
    let start := empty buckets width
    let table := start.takeIn arrivals
    (∀ bucket, ({ gone := givenUp bucket start arrivals, held := table.bucket bucket } : Queue) =
        Queue.pushAll width {} (arrivedAt bucket arrivals)) ∧
      (∀ bucket, givenUp bucket start arrivals ++ table.bucket bucket =
        arrivedAt bucket arrivals) ∧
      (∀ bucket < buckets, ∀ fp other, other ≠ bucket →
        (table.insert bucket fp).bucket other = table.bucket other) ∧
      (∀ bucket fp, table.contains bucket fp = true ↔ fp ∈ table.bucket bucket) ∧
      table.toList = (List.range buckets).flatMap table.bucket ∧
      table.size = total (fun bucket => (table.bucket bucket).length) (List.range buckets) ∧
      (∀ bucket, table.occupied bucket ≤ width) ∧
      IsLUB (start.Fillings buckets arrivals) table.maxOccupancy.toNat := by
  intro start table
  have startShaped : start.Shaped buckets := empty_shaped wide narrow
  have shaped : table.Shaped buckets := takeIn_shaped startShaped inside
  have isQueue (bucket : Nat) :
      ({ gone := givenUp bucket start arrivals, held := table.bucket bucket } : Queue) =
        Queue.pushAll width {} (arrivedAt bucket arrivals) := by
    have nothing : start.bucket bucket = [] := by
      rw [← List.length_eq_zero_iff, length_bucket, empty_occupied]
    have runs := @takeIn_eq_pushAll _ _ bucket _ startShaped inside []
    rwa [List.nil_append, nothing] at runs
  have listed : table.toList = (List.range buckets).flatMap table.bucket := by
    rw [toList, shaped.occupancy]
  refine ⟨isQueue, fun bucket => ?_, fun bucket within fp other different => ?_,
    fun bucket fp => List.contains_iff_mem, listed, ?_, fun bucket => ?_, ?_⟩
  · have order := Queue.gone_append_held width {} (arrivedAt bucket arrivals)
    rwa [← isQueue bucket] at order
  · exact insert_bucket_ne shaped within different
  · rw [shaped.counted, listed, length_flatMap]
  · have fits := shaped.fits bucket
    rwa [takeIn_bucketEntries] at fits
  · have recorded : start.Recorded := fun bucket => by rw [empty_occupied]; exact Nat.zero_le _
    rw [isLUB_iff_le_iff]
    intro most
    rw [takeIn_maxOccupancy_le_iff startShaped recorded inside]
    exact and_iff_right (Nat.zero_le most)

/-- Two buckets of width three.  The second one is full when its fourth fingerprint comes, and
gives up two; the first one keeps what it has. -/
theorem buckets_are_queues_odd :
    let arrivals : List Arrival := [⟨1, 10⟩, ⟨0, 20⟩, ⟨1, 11⟩, ⟨1, 12⟩, ⟨1, 13⟩, ⟨0, 20⟩]
    let start := empty 2 3
    let table := start.takeIn arrivals
    0 < 3 ∧ 3 ≤ 255 ∧ (∀ arrival ∈ arrivals, arrival.bucket < 2) ∧
      givenUp 1 start arrivals = [10, 11] ∧ table.bucket 1 = [12, 13] ∧
      givenUp 1 start arrivals ++ table.bucket 1 = arrivedAt 1 arrivals ∧
      table.toList = (List.range 2).flatMap table.bucket ∧
      IsLUB (start.Fillings 2 arrivals) table.maxOccupancy.toNat := by
  intro arrivals start table
  have inside : ∀ arrival ∈ arrivals, arrival.bucket < 2 := by decide
  obtain ⟨-, order, -, -, listed, -, -, fullest⟩ :=
    buckets_are_queues (by decide : 0 < 3) (by decide) arrivals inside
  exact ⟨by decide, by decide, inside, by decide, by decide, order 1, listed, fullest⟩

end FingerprintSet.BucketTable
