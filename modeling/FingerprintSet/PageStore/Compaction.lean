import FingerprintSet.Merge
import FingerprintSet.PageStore.Basic

/-!
# Merging pages

A merge of pages goes in three steps, so that the middle one, which does all the reading and
writing, can go on while the store is in use: a job is prepared, run, and its result installed.
A prepared job holds its input pages open.  A result is installed only if all its input pages
are still there, and then takes their place.

There are two choices of input pages.  A full merge takes all of them.  A tiered merge takes
the pages of the smallest size class that has at least two, so that a large page is rewritten
only when pages of its size have come together.
-/

namespace FingerprintSet

open Storage

/-- A prepared merge. -/
structure CompactionJob where
  /-- The pages to be replaced. -/
  replaced : List PageId
  readers : List SortedFile.Reader
  targetId : PageId
  target : Path
  stride : Nat
  durable : Bool
  deriving Inhabited

/-- The result of a merge. -/
structure MergedPage where
  /-- The pages to be replaced. -/
  replaced : List PageId
  id : PageId
  written : SortedFile.Written
  deriving DecidableEq, Repr, Inhabited

namespace CompactionJob

/-- Write the target page from the input pages. -/
def write (job : CompactionJob) : Task SortedFile.Written := do
  let writer ← SortedFile.Writer.create job.target .page job.durable job.stride
  let writer ← (Merge.fresh (job.readers.map .file)).fold SortedFile.Writer.push
    SortedFile.Writer.abandon writer
  writer.finish

/-- Run a merge.  If it fails, what there is of the target page is removed. -/
def run (job : CompactionJob) : Task MergedPage := do
  let written ← tryCatch job.write fun error => do
    removeIfPresent job.target
    throw error
  pure { replaced := job.replaced, id := job.targetId, written }

end CompactionJob

namespace PageStore

/-- Prepare a merge of some pages.  There is nothing to do for fewer than two. -/
def jobFor (replaced : List PageId) : Keeping PageStore (Option CompactionJob) := do
  if replaced.length < 2 then
    pure none
  else
    let chosen := (← get).pages.filter fun page => replaced.contains page.id
    let readers ← openPages chosen
    let targetId ← allocate
    let store ← get
    pure (some
      { replaced, readers, targetId
        target := store.pagePath targetId
        stride := store.limits.stride
        durable := store.limits.durable })

/-- Prepare a merge of all pages. -/
def compactionJob : Keeping PageStore (Option CompactionJob) := do
  jobFor ((← get).pages.map (·.id))

/-- The size classes that at least two pages belong to. -/
def sharedTiers (pages : List Page) : List Nat :=
  (pages.map Page.tier).filter fun tier => 2 ≤ (pages.filter (·.tier = tier)).length

/-- The pages of a tiered merge: those of the smallest class that has at least two, or else
the two smallest pages. -/
def tieredChoice (pages : List Page) : List PageId :=
  match (sharedTiers pages).min? with
  | some tier => (pages.filter (·.tier = tier)).map (·.id)
  | none => ((pages.mergeSort fun a b => a.count ≤ b.count).take 2).map (·.id)

/-- Prepare a tiered merge if there are more than `maxPages` pages. -/
def tieredCompactionJob (maxPages : Nat) : Keeping PageStore (Option CompactionJob) := do
  let pages := (← get).pages
  if pages.length ≤ maxPages then
    pure none
  else
    jobFor (tieredChoice pages)

/-- The store with a merged page in the place of the pages it replaces. -/
def swapIn (store : PageStore) (merged : MergedPage) (old kept : List Page) : PageStore :=
  let page := Page.ofWritten merged.id store.limits.stride merged.written
  { store with
    pages := Page.withinBudget store.limits.indexEntries (kept ++ [page])
    entries := store.entries - total (·.count) old + page.count
    compactions := store.compactions + 1 }

/-- Close and remove a page that was replaced. -/
def discard (page : Page) : Keeping PageStore Unit := do
  modify fun store => { store with handles := store.handles.erase page.id }
  (removeIfPresent page.path : Task Unit)

/-- Put a merged page in the place of the pages it replaces and remove those.  If one of them
is gone already, the merged page is removed instead. -/
def install (merged : MergedPage) : Keeping PageStore Unit := do
  let (old, kept) := (← get).pages.partition fun page => merged.replaced.contains page.id
  if old.length ≠ merged.replaced.length then
    (removeIfPresent merged.written.path : Task Unit)
  else do
    modify (·.swapIn merged old kept)
    old.forM discard

/-- Merge all pages into one. -/
def compact : Keeping PageStore Unit := do
  match ← compactionJob with
  | none => pure ()
  | some job =>
      let merged ← (job.run : Task MergedPage)
      install merged

end PageStore

end FingerprintSet
