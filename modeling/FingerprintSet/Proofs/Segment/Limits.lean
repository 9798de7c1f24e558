import FingerprintSet.Proofs.Plan
import FingerprintSet.Proofs.PageStore.Limits
import FingerprintSet.Proofs.Segment.Idle
import FingerprintSet.Proofs.Segment.Readers

/-!
# The limits of a segment

Memory is bounded in each of the places of a segment.  The table has the room it was created with.
A full bucket gives up half of itself at most, and once that fills the pending set, all of it is
written as a page.  A page too many is merged away in the same put.  The volume has no part in any
of this as long as puts are answered.
-/

namespace FingerprintSet

open Storage

namespace Segment

/-- The limits of the store of a segment. -/
def storeLimits (plan : Plan) (storage : StorageSettings) : StoreLimits where
  stride := storage.pageIndexStride.toNat
  durable := storage.syncWrites
  indexEntries := plan.indexEntriesPerSegment
  openHandles := storage.openPagesPerSegment plan.segmentCount

/-- A segment that keeps to its limits, while at most so many fingerprints are pending and there are
at most so many pages. -/
structure Within (plan : Plan) (storage : StorageSettings) (waiting most : Nat) (segment : Segment) :
    Prop where
  table : segment.table.Shaped plan.bucketsPerSegment
  width : segment.table.bucketEntries = plan.bucketEntries
  fullest : segment.table.maxOccupancy.toNat ≤ plan.bucketEntries
  capacity : segment.pendingCapacity = plan.pendingCapacity
  maxPages : segment.maxPages = storage.maxPagesPerSegment.toNat
  pending : segment.pending.size ≤ waiting
  store : segment.store.Limited (storeLimits plan storage) most
  numbered : segment.store.Numbered

/-- A segment between operations: not enough is pending for a page, there is no page too many and
nothing reads the pages. -/
structure Tidy (plan : Plan) (storage : StorageSettings) (segment : Segment) : Prop
    extends Within plan storage (plan.pendingCapacity - 1) storage.maxPagesPerSegment.toNat
      segment where
  readers : segment.activeReaders = 0

/-- What is left of a segment whose pages a merge is to take in, if there is one. -/
def Readies (result : Except Error (Option CompactionJob)) (last : Segment) : Prop :=
  match result with
  | .ok (some job) => last.activeReaders = 1 ∧ 2 ≤ job.replaced.length ∧
      last.store.Replaceable job.replaced job.targetId
  | _ => last.activeReaders = 0

variable {plan : Plan} {storage : StorageSettings} {waiting most : Nat} {segment : Segment}

theorem Within.mono {more many : Nat} (within : segment.Within plan storage waiting most)
    (pending : waiting ≤ more) (pages : most ≤ many) : segment.Within plan storage more many :=
  { within with
    pending := Nat.le_trans within.pending pending
    store := within.store.mono pages }

/-- The places in memory stay as they are while the store changes. -/
theorem Within.restored (within : segment.Within plan storage waiting most) {store : PageStore}
    {many : Nat} (limited : store.Limited (storeLimits plan storage) many)
    (numbered : store.Numbered) : Within plan storage waiting many { segment with store } :=
  { within with store := limited, numbered }

theorem Within.looked (within : segment.Within plan storage waiting most) {store : PageStore}
    (rehandled : segment.store.Rehandled store) :
    Within plan storage waiting most { segment with store } :=
  within.restored (within.store.rehandled rehandled) (rehandled.same.adds.numbered within.numbered)

theorem Within.withReaders (within : segment.Within plan storage waiting most) (readers : Nat) :
    Within plan storage waiting most { segment with activeReaders := readers } :=
  { within with }

theorem contains_within (within : segment.Within plan storage waiting most) (bucket : Nat)
    (fp : Fingerprint) :
    Keeping.Leaves (contains bucket fp) segment fun _ last =>
      last.Within plan storage waiting most ∧ last.activeReaders = segment.activeReaders := by
  refine (contains_outcome bucket fp).mono ?_
  rintro _ _ ⟨store, rehandled, rfl⟩
  exact ⟨within.looked rehandled, rfl⟩

/-! ## Taking in a fingerprint -/

theorem size_foldl_insert_le (evicted : List Fingerprint) (pending : Std.TreeSet Fingerprint) :
    (evicted.foldl (fun pending old => pending.insert old) pending).size ≤
      pending.size + evicted.length := by
  induction evicted generalizing pending with
  | nil => exact Nat.le_refl _
  | cons old evicted ih =>
      have one : (pending.insert old).size ≤ pending.size + 1 := Std.TreeSet.size_insert_le
      have rest := ih (pending.insert old)
      rw [List.foldl_cons, List.length_cons]
      omega

/-- What a bucket gives up is at most as much as the bucket holds. -/
theorem Within.absorb (within : segment.Within plan storage waiting most) {bucket : Nat}
    (inside : bucket < plan.bucketsPerSegment) (fp : Fingerprint) :
    (segment.absorb bucket fp).Within plan storage (waiting + plan.bucketEntries) most where
  table := BucketTable.insert_shaped within.table inside
  width := within.width
  fullest := by
    have most := within.fullest
    rw [← within.width] at most ⊢
    exact BucketTable.insert_maxOccupancy_le within.table most bucket fp
  capacity := within.capacity
  maxPages := within.maxPages
  pending := by
    have joined := size_foldl_insert_le (segment.table.evicted bucket) segment.pending
    have half := segment.table.length_evicted_le bucket
    have wide := within.table.wide
    have few := within.pending
    rw [within.width] at half wide
    rw [absorb_pending]
    omega
  store := within.store
  numbered := within.numbered

/-! ## Merges -/

/-- A merge that is prepared counts as a reader. -/
theorem Within.registered (within : segment.Within plan storage waiting most)
    (idle : segment.activeReaders = 0) {result : Except Error (Option CompactionJob)}
    {store : PageStore} (prepared : segment.store.Prepared result store)
    (limited : store.Limited (storeLimits plan storage) most) (several : PageStore.Several result) :
    (segment.registered result store).Within plan storage waiting most ∧
      Readies result (segment.registered result store) := by
  refine ⟨(within.restored limited (prepared.1.numbered within.numbered)).withReaders _, ?_⟩
  rcases result with error | none | job
  · exact idle
  · exact idle
  · exact ⟨congrArg (· + 1) idle, several job rfl, prepared.2 job rfl⟩

/-- Writing what is pending empties the pending set, and what makes a page too many is to be
merged. -/
theorem Flushing.within {result : Except Error (Option CompactionJob)} {last : Segment}
    (flushing : segment.Flushing result last)
    (within : segment.Within plan storage waiting storage.maxPagesPerSegment.toNat)
    (two : 2 ≤ storage.maxPagesPerSegment.toNat) (idle : segment.activeReaders = 0)
    {job : Option CompactionJob} (done : result = .ok job) :
    last.Within plan storage 0 (storage.maxPagesPerSegment.toNat + 1) ∧ Readies result last ∧
      (job = none → last.store.pageCount ≤ storage.maxPagesPerSegment.toNat) := by
  cases flushing with
  | refused => nomatch done
  | busy busy => exact absurd idle (Nat.ne_of_gt busy)
  | @idle written store result _ appending tiering =>
      have more := within.restored (within.store.appending appending)
        (appending.adds.numbered within.numbered)
      have emptied : Within plan storage 0 (storage.maxPagesPerSegment.toNat + 1)
          { segment with store := written, pending := ∅ } :=
        { more with pending := Nat.le_of_eq Std.TreeSet.size_emptyc }
      have prepared := tiering.leaves emptied.numbered
      rw [within.maxPages] at tiering
      obtain ⟨limited, several, few⟩ := emptied.store.tiering two tiering
      obtain ⟨still, readies⟩ := emptied.registered idle prepared limited several
      exact ⟨still, readies, fun none => few (none ▸ done)⟩

/-- A merge is a reader no more once it is settled, and what it merged is a page less at least. -/
theorem runCompaction_within {job : CompactionJob}
    (within : segment.Within plan storage waiting most) (readies : Readies (.ok (some job)) segment) :
    Keeping.Leaves (runCompaction job) segment fun result last =>
      last.Within plan storage waiting most ∧ last.activeReaders = 0 ∧
        (result = .ok () → last.store.pageCount < most) := by
  obtain ⟨one, several, replaceable⟩ := readies
  have readers : segment.dropReader.activeReaders = 0 := by rw [dropReader, one]
  have dropped : segment.dropReader.Within plan storage waiting most := within.withReaders _
  refine (runCompaction_outcome job).mono ?_
  rintro result last ⟨outcome, numbers, settling⟩
  cases settling with
  | failed => exact ⟨dropped, readers, by simp⟩
  | installed merges installing =>
      obtain ⟨replaced, id⟩ := numbers _ merges
      rw [← replaced] at several
      rw [← replaced, ← id] at replaceable
      obtain ⟨limited, fewer⟩ :=
        within.store.installing within.numbered replaceable several installing
      exact ⟨dropped.restored limited (installing.numbered within.numbered replaceable), readers,
        fun _ => fewer⟩

/-! ## Operations -/

/-- What the first step of a put leaves: a segment with a page too many and the merge of its pages, or
a tidy one. -/
def LeftToMerge (plan : Plan) (storage : StorageSettings) (last : Segment) : PutStep → Prop
  | .added (some job) => last.Within plan storage 0 (storage.maxPagesPerSegment.toNat + 1) ∧
      Readies (.ok (some job)) last
  | _ => last.Tidy plan storage

theorem Tidy.beginPut_leaves (tidy : segment.Tidy plan storage) (buffered : 0 < plan.pendingCapacity)
    (two : 2 ≤ storage.maxPagesPerSegment.toNat) {bucket : Nat}
    (inside : bucket < plan.bucketsPerSegment) (fp : Fingerprint) :
    Keeping.Leaves (beginPut bucket fp) segment fun result last => ∀ step, result = .ok step →
      LeftToMerge plan storage last step := by
  refine (beginPut_outcome bucket fp).mono fun result last beginning step done => ?_
  have within := tidy.toWithin
  cases beginning with
  | failed => nomatch done
  | known rehandled =>
      obtain rfl := Except.ok.inj done
      exact ⟨within.looked rehandled, tidy.readers⟩
  | absorbed rehandled room =>
      obtain rfl := Except.ok.inj done
      have absorbed := (within.looked rehandled).absorb inside fp
      rw [isPendingFull, decide_eq_true_eq, absorbed.capacity] at room
      exact ⟨{ absorbed with pending := by omega }, tidy.readers⟩
  | @flushed store result last rehandled full flushing =>
      cases result with
      | error => nomatch done
      | ok job =>
          obtain rfl := Except.ok.inj done
          have absorbed := (within.looked rehandled).absorb inside fp
          obtain ⟨still, readies, few⟩ := flushing.within absorbed two tidy.readers rfl
          cases job with
          | none =>
              have still := still.mono (Nat.zero_le (plan.pendingCapacity - 1)) (Nat.le_refl _)
              exact ⟨{ still with store := { still.store with few := few rfl } }, readies⟩
          | some job => exact ⟨still, readies⟩

/-- A put that is answered leaves a segment tidy. -/
theorem Tidy.put_leaves (tidy : segment.Tidy plan storage) (buffered : 0 < plan.pendingCapacity)
    (two : 2 ≤ storage.maxPagesPerSegment.toNat) {bucket : Nat}
    (inside : bucket < plan.bucketsPerSegment) (fp : Fingerprint) :
    Keeping.Leaves (put bucket fp) segment fun result last => ∀ known, result = .ok known →
      last.Tidy plan storage := by
  refine Keeping.Leaves.bind _ (tidy.beginPut_leaves buffered two inside fp) ?_ fun _ _ _ => by simp
  intro step last leaves
  have left := leaves step rfl
  cases step with
  | known => exact Keeping.Leaves.pure fun _ _ => left
  | added job =>
      cases job with
      | none => exact Keeping.Leaves.pure fun _ _ => left
      | some job =>
          obtain ⟨within, readies⟩ := left
          refine Keeping.Leaves.bind _ (runCompaction_within within readies) ?_ fun _ _ _ => by simp
          rintro _ settled ⟨still, idle, fewer⟩
          have few := Nat.le_of_lt_succ (fewer rfl)
          have still := still.mono (Nat.zero_le (plan.pendingCapacity - 1)) (Nat.le_refl _)
          exact Keeping.Leaves.pure fun _ _ =>
            ⟨{ still with store := { still.store with few } }, idle⟩

/-- Preparing a merge of all pages leaves a tidy segment but for the reader that the merge is. -/
theorem Tidy.beginCompact_within (tidy : segment.Tidy plan storage) :
    Keeping.Leaves beginCompact segment fun result last =>
      last.Within plan storage (plan.pendingCapacity - 1) storage.maxPagesPerSegment.toNat ∧
        Readies result last := by
  refine beginCompact_outcome.mono fun _ last compacting => ?_
  cases compacting with
  | busy busy => exact absurd tidy.readers (Nat.ne_of_gt busy)
  | idle idle preparing =>
      obtain ⟨limited, several⟩ := tidy.store.preparing preparing
      exact tidy.toWithin.registered idle (preparing.all_leaves tidy.numbered) limited several

/-- Merging all pages leaves a segment tidy, however it ends. -/
theorem Tidy.compact_leaves (tidy : segment.Tidy plan storage) :
    Keeping.Leaves compact segment fun _ last => last.Tidy plan storage := by
  refine Keeping.Leaves.bind _ tidy.beginCompact_within ?_ fun _ _ holds => ⟨holds.1, holds.2⟩
  · rintro job last ⟨within, readies⟩
    cases job with
    | none => exact Keeping.Leaves.pure ⟨within, readies⟩
    | some job =>
        refine (runCompaction_within within readies).mono ?_
        exact fun _ _ holds => ⟨holds.1, holds.2.1⟩

end Segment

end FingerprintSet
