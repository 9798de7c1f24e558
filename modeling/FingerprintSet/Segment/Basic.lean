import Std.Data.TreeSet
import FingerprintSet.BucketTable
import FingerprintSet.Plan
import FingerprintSet.PageStore.Compaction

/-!
# Segments

A segment holds the fingerprints of one range.  A new one goes into a bucket.  What a full
bucket gives up waits in the pending set, and when enough are pending they are written as a
page.  So a fingerprint is in one of three places: a bucket, the pending set or a page.

An operation on a segment is made of steps that have the segment to themselves and, for merges,
of file work between them during which other operations may take their steps.  The steps are
functions of their own here, and an operation is their sequence.  A merge is prepared only
while nothing reads the pages, and it counts as a reader until it is settled.
-/

namespace FingerprintSet

open Storage

/-- One range of a fingerprint set. -/
structure Segment where
  /-- The place of the segment in the set. -/
  index : Nat
  table : BucketTable
  /-- Evicted fingerprints that are in no page yet. -/
  pending : Std.TreeSet Fingerprint
  store : PageStore
  /-- Snapshots and merges that are reading the pages. -/
  activeReaders : Nat
  /-- Fingerprints evicted so far. -/
  evictions : Nat
  /-- Fingerprints held. -/
  size : Nat
  /-- So many pending fingerprints make a page. -/
  pendingCapacity : Nat
  /-- With more pages than this some are merged. -/
  maxPages : Nat
  deriving Inhabited

/-- Where a segment's fingerprints are and what it has done so far. -/
structure SegmentStats where
  inMemory : Nat
  pending : Nat
  onDisk : Nat
  pages : Nat
  evictions : Nat
  compactions : Nat
  indexBytes : Nat
  openPages : Nat
  maxOccupancy : Nat
  deriving DecidableEq, Repr, Inhabited

/-- What the step of a put that has the segment to itself comes to. -/
inductive PutStep
  /-- The fingerprint was there. -/
  | known
  /-- The fingerprint is new, and a merge may be left to run. -/
  | added (job : Option CompactionJob)
  deriving Inhabited

namespace Segment

/-- An empty segment.  Its pages go into a directory of its own below `overflow`. -/
def create (index : Nat) (plan : Plan) (storage : StorageSettings) (overflow : Path) :
    Task Segment := do
  let store ← PageStore.create (overflow.child s!"seg-{Text.zeroPadded 4 index}")
    { stride := storage.pageIndexStride.toNat
      durable := storage.syncWrites
      indexEntries := plan.indexEntriesPerSegment
      openHandles := storage.openPagesPerSegment plan.segmentCount }
  pure
    { index, store
      table := .empty plan.bucketsPerSegment plan.bucketEntries
      pending := ∅
      activeReaders := 0
      evictions := 0
      size := 0
      pendingCapacity := plan.pendingCapacity
      maxPages := storage.maxPagesPerSegment.toNat }

/-- Work around the segment's store. -/
def onStore {α : Type} (work : Keeping PageStore α) : Keeping Segment α :=
  Keeping.onPart (·.store) (fun store segment => { segment with store }) work

/-- Whether memory holds a fingerprint, in its bucket or pending. -/
def inMemory (segment : Segment) (bucket : Nat) (fp : Fingerprint) : Bool :=
  segment.table.contains bucket fp || segment.pending.contains fp

/-- Whether the segment holds a fingerprint. -/
def contains (bucket : Nat) (fp : Fingerprint) : Keeping Segment Bool := do
  if (← get).inMemory bucket fp then
    pure true
  else
    onStore (PageStore.probe fp)

/-- Take a new fingerprint into its bucket; what the bucket gives up becomes pending.  The
segment is taken apart before its table changes, so that the table changes in place. -/
def absorb (segment : Segment) (bucket : Nat) (fp : Fingerprint) : Segment :=
  match segment with
  | { index, table, pending, store, activeReaders, evictions, size, pendingCapacity, maxPages } =>
      let evicted := table.evicted bucket
      { table := table.insert bucket fp
        pending := evicted.foldl (fun pending old => pending.insert old) pending
        evictions := evictions + evicted.length
        size := size + 1
        index, store, activeReaders, pendingCapacity, maxPages }

/-- Count one reader of the pages more. -/
def addReader (segment : Segment) : Segment :=
  { segment with activeReaders := segment.activeReaders + 1 }

/-- Count one reader of the pages less. -/
def dropReader (segment : Segment) : Segment :=
  { segment with activeReaders := segment.activeReaders - 1 }

/-- A prepared merge counts as a reader. -/
def registerJob (job : Option CompactionJob) : Keeping Segment Unit :=
  if job.isSome then modify addReader else pure ()

/-- Write the pending fingerprints as a page; they are pending no more only when it is written.
Then prepare a tiered merge, unless something reads the pages. -/
def flushPending : Keeping Segment (Option CompactionJob) := do
  let batch := (← get).pending.toList
  onStore (PageStore.append batch)
  modify fun segment => { segment with pending := ∅ }
  if 0 < (← get).activeReaders then
    pure none
  else
    let maxPages := (← get).maxPages
    let job ← onStore (PageStore.tieredCompactionJob maxPages)
    registerJob job
    pure job

/-- Whether so many fingerprints are pending that they make a page. -/
def isPendingFull (segment : Segment) : Bool :=
  segment.pendingCapacity ≤ segment.pending.size

/-- The step of a put that has the segment to itself. -/
def beginPut (bucket : Nat) (fp : Fingerprint) : Keeping Segment PutStep := do
  if ← contains bucket fp then
    pure .known
  else
    modify (·.absorb bucket fp)
    if (← get).isPendingFull then
      return .added (← flushPending)
    else
      pure (.added none)

/-- The step that ends a merge: it is a reader no more, and its result is installed. -/
def settle (outcome : Except Error MergedPage) : Keeping Segment Unit := do
  modify dropReader
  let merged ← Keeping.ofExcept outcome
  onStore (PageStore.install merged)

/-- Run a prepared merge and settle it. -/
def runCompaction (job : CompactionJob) : Keeping Segment Unit := do
  let outcome ← Keeping.outcome (job.run : Task MergedPage)
  settle outcome

/-- Take in a fingerprint and say whether it was there. -/
def put (bucket : Nat) (fp : Fingerprint) : Keeping Segment Bool := do
  match ← beginPut bucket fp with
  | .known => pure true
  | .added none => pure false
  | .added (some job) =>
      runCompaction job
      pure false

/-- The step that prepares a full merge, unless something reads the pages. -/
def beginCompact : Keeping Segment (Option CompactionJob) := do
  if 0 < (← get).activeReaders then
    pure none
  else
    let job ← onStore PageStore.compactionJob
    registerJob job
    pure job

/-- Merge all pages into one, unless something reads them. -/
def compact : Keeping Segment Unit := do
  match ← beginCompact with
  | none => pure ()
  | some job => runCompaction job

/-- The current counts. -/
def stats (segment : Segment) : SegmentStats where
  inMemory := segment.table.size
  pending := segment.pending.size
  onDisk := segment.store.entries
  pages := segment.store.pageCount
  evictions := segment.evictions
  compactions := segment.store.compactions
  indexBytes := segment.store.indexEntries * Plan.fingerprintBytes
  openPages := segment.store.openHandles
  maxOccupancy := segment.table.maxOccupancy.toNat

end Segment

end FingerprintSet
