import FingerprintSet.Proofs.Page
import FingerprintSet.Proofs.PageStore.Basic
import FingerprintSet.Proofs.SortedFile.Confined
import FingerprintSet.Segment.Snapshot

/-!
# Segments keep to their directories

All that a segment does keeps to a region in which its directory and its pages lie.  Page files
stay open between operations, so it is part of being in a region that what is kept open there is
a file of the region.
-/

namespace FingerprintSet

open Storage Volume Storage.Region

variable {region : Region} {α σ : Type}

/-! ## Page stores -/

theorem removeIfPresent_confined {path : Storage.Path} (writes : region.writes path) :
    region.ConfinesTask (removeIfPresent path) fun _ => True := by
  refine ConfinesTask.run ((removeFile_confined writes).tryCatch fun failure => ?_)
  split
  · exact .pure trivial
  · exact .throw failure

/-- A merge whose target is in the region and whose readers may go on reading. -/
structure CompactionJob.In (region : Region) (job : CompactionJob) : Prop where
  target : region.writes job.target
  readers : ∀ reader ∈ job.readers, reader.Admitted region

/-- The result of such a merge. -/
def MergedPage.In (region : Region) (merged : MergedPage) : Prop :=
  region.writes merged.written.path

theorem admitted_files {readers : List SortedFile.Reader}
    (admitted : ∀ reader ∈ readers, reader.Admitted region) :
    ∀ source ∈ readers.map Source.file, source.Admitted region :=
  List.forall_mem_map.mpr admitted

theorem CompactionJob.run_confined {job : CompactionJob} (inside : job.In region) :
    region.ConfinesTask job.run (MergedPage.In region) := by
  have sources : (Merge.fresh (job.readers.map .file)).Admitted region :=
    admitted_files inside.readers
  have writes : region.ConfinesTask job.write fun written => written.path = job.target := by
    refine (SortedFile.Writer.create_confined inside.target _ _ _).bind fun writer created => ?_
    refine (Merge.foldTo_confined (fun _ fp own => SortedFile.Writer.push_confined own fp)
      (fun _ own => SortedFile.Writer.abandon_confined own) _ sources created).bind fun _ pushed => ?_
    exact SortedFile.Writer.finish_confined pushed
  refine (writes.tryCatch fun error => ?_).bind fun written same => ?_
  · exact (removeIfPresent_confined inside.target).bind fun _ _ => .throw error
  · exact .pure (show region.writes written.path from same ▸ inside.target)

/-- A store with its directory, its pages and what it keeps open in the region. -/
structure PageStore.In (region : Region) (files : Nat) (store : PageStore) : Prop where
  directory : region.writes store.directory
  pages : ∀ page ∈ store.pages, region.writes page.path
  opened : ∀ item ∈ store.handles.entries, region.handles.holds files item.2

/-- Stores that are in the region. -/
def Storage.Region.stores (region : Region) : Custody PageStore where
  holds files store := store.In region files
  grows more inside :=
    { inside with opened := fun item mem => region.handles.grows more (inside.opened item mem) }

namespace PageStore

variable {store : PageStore} {files : Nat}

theorem In.pagePath (inside : store.In region files) (id : PageId) :
    region.writes (store.pagePath id) :=
  region.writes_within _ _ (Path.within_child _ _) inside.directory

theorem create_confined {directory : Path} (writes : region.writes directory)
    (limits : StoreLimits) :
    region.ConfinesTask (create directory limits) fun store => ∀ files, store.In region files := by
  have made := makeDirectories_confined (region.writes_reads _ writes)
  refine (ConfinesTask.run made).bind fun _ _ => ?_
  split
  · exact .throw _
  · split
    · exact .throw _
    · exact .pure fun _ => ⟨writes, (fun _ none => nomatch none), fun _ none => nomatch none⟩

theorem allocate_confined : region.ConfinesKeeping region.stores allocate fun _ => True :=
  .modifyGet (fun _ _ inside => ⟨inside.directory, inside.pages, inside.opened⟩) fun _ => trivial

theorem writes_withinBudget {pages : List Page}
    (writes : ∀ page ∈ pages, region.writes page.path) (budget : Nat) :
    ∀ page ∈ Page.withinBudget budget pages, region.writes page.path := by
  intro page mem
  obtain ⟨old, oldMem, -, same⟩ := Page.mem_withinBudget mem
  exact same ▸ writes old oldMem

/-- The pages of a store with one more behind them. -/
theorem writes_behind {pages : List Page} (writes : ∀ page ∈ pages, region.writes page.path)
    {added : Page} (more : region.writes added.path) (budget : Nat) :
    ∀ page ∈ Page.withinBudget budget (pages ++ [added]), region.writes page.path := by
  refine writes_withinBudget (fun other mem => ?_) budget
  rcases List.mem_append.mp mem with mem | mem
  · exact writes other mem
  · exact List.mem_singleton.mp mem ▸ more

theorem In.add (inside : store.In region files) {page : Page} (writes : region.writes page.path) :
    (store.add page).In region files :=
  ⟨inside.directory, writes_behind inside.pages writes _, inside.opened⟩

theorem append_confined (fps : List Fingerprint) :
    region.ConfinesKeeping region.stores (append fps) fun _ => True := by
  rw [append]
  split
  · exact .pure trivial
  · refine allocate_confined.bind fun id _ => .getThen fun store files inside => ?_
    have wrote := SortedFile.writeList_confined (inside.pagePath id) .page store.limits.durable
      store.limits.stride fps
    refine (ConfinesKeeping.lift wrote).bind fun written same => .modifying fun _ _ still => ?_
    have path : region.writes written.path := same ▸ inside.pagePath id
    have page : region.writes (Page.ofWritten id store.limits.stride written).path := path
    exact still.add page

/-- The handle of a page may be read from.  One that is kept open is known already. -/
theorem handleOf_confined {page : Page} (writes : region.writes page.path) :
    region.ConfinesKeeping region.stores (handleOf page) region.Admits := by
  intro store first second alike inside
  rw [handleOf, Keeping.getThen_apply, Keeping.getThen_apply]
  cases found : store.handles.find? page.id with
  | some handle =>
      have here := inside.opened _ (mem_of_lookup found)
      refine Agree.here alike ⟨⟨inside.directory, inside.pages, fun item mem => ?_⟩, ?_⟩
      · rcases List.mem_cons.mp mem with rfl | older
        · exact here
        · exact inside.opened item (List.mem_filter.mp older).1
      · rintro _ ⟨⟩ id same
        exact (here id same).1
  | none =>
      have opened := openFile_making (region.writes_reads _ writes)
      refine ConfinesKeeping.takeIn opened.run (fun handle store files here inside => ?_)
        (fun handle files here => .pure fun id same => (here id same).1) store first second alike inside
      refine ⟨inside.directory, inside.pages, fun item mem => ?_⟩
      rcases List.mem_cons.mp (List.mem_of_mem_take mem) with rfl | older
      · exact here
      · exact inside.opened item older

theorem readBlock_confined {handle : Handle} (admits : region.Admits handle) (start length : Nat) :
    region.ConfinesTask (Page.readBlock handle start length) fun _ => True := by
  refine (readAt_confined admits _ _).bind fun bytes _ => ?_
  split
  · exact .throw _
  · exact .pure trivial

theorem probePage_confined {page : Page} (writes : region.writes page.path) (fp : Fingerprint) :
    region.ConfinesKeeping region.stores (probePage page fp) fun _ => True := by
  rw [probePage]
  split
  · exact .pure trivial
  · exact .pure trivial
  · refine (handleOf_confined writes).bind fun handle admits => ?_
    exact (ConfinesKeeping.lift (readBlock_confined admits _ _).run).bind fun _ _ => .pure trivial

theorem probePages_confined (fp : Fingerprint) {pages : List Page}
    (writes : ∀ page ∈ pages, region.writes page.path) :
    region.ConfinesKeeping region.stores (probePages fp pages) fun _ => True := by
  induction pages with
  | nil => exact .pure trivial
  | cons page pages ih =>
      rw [List.forall_mem_cons] at writes
      refine (probePage_confined writes.1 fp).bind fun found _ => ?_
      split
      · exact .pure trivial
      · exact ih writes.2

theorem probe_confined (fp : Fingerprint) :
    region.ConfinesKeeping region.stores (probe fp) fun _ => True :=
  .getThen fun _ _ inside => probePages_confined fp fun page mem =>
    inside.pages page (List.mem_reverse.mp mem)

theorem openPages_confined {pages : List Page} (writes : ∀ page ∈ pages, region.writes page.path) :
    region.ConfinesTask (openPages pages)
      fun readers => ∀ reader ∈ readers, reader.Admitted region := by
  induction pages with
  | nil => exact .pure fun _ none => nomatch none
  | cons page pages ih =>
      rw [List.forall_mem_cons] at writes
      have opened := SortedFile.Reader.openAt_confined (region.writes_reads _ writes.1) .page
      refine opened.bind fun reader admitted => (ih writes.2).bind fun readers others => ?_
      exact .pure (List.forall_mem_cons.mpr ⟨admitted, others⟩)

/-- A job that is prepared is in the region. -/
theorem jobFor_confined (replaced : List PageId) :
    region.ConfinesKeeping region.stores (jobFor replaced)
      fun job => ∀ prepared, job = some prepared → prepared.In region := by
  rw [jobFor]
  split
  · exact .pure fun _ none => nomatch none
  · refine .getThen fun store _ inside => ?_
    have chosen : ∀ page ∈ store.pages.filter fun page => replaced.contains page.id,
        region.writes page.path := fun page mem => inside.pages page (List.mem_filter.mp mem).1
    refine (ConfinesKeeping.lift (openPages_confined chosen)).bind fun readers admitted => ?_
    refine allocate_confined.bind fun targetId _ => .getThen fun later _ still => .pure ?_
    rintro _ ⟨⟩
    exact ⟨still.pagePath targetId, admitted⟩

theorem compactionJob_confined : region.ConfinesKeeping region.stores compactionJob
    fun job => ∀ prepared, job = some prepared → prepared.In region :=
  .getThen fun _ _ _ => jobFor_confined _

theorem tieredCompactionJob_confined (maxPages : Nat) :
    region.ConfinesKeeping region.stores (tieredCompactionJob maxPages)
      fun job => ∀ prepared, job = some prepared → prepared.In region := by
  refine .getThen fun store _ _ => ?_
  dsimp only
  split
  · exact .pure fun _ none => nomatch none
  · exact jobFor_confined _

theorem discard_confined {page : Page} (writes : region.writes page.path) :
    region.ConfinesKeeping region.stores (discard page) fun _ => True :=
  .modifyThen (fun _ _ inside => ⟨inside.directory, inside.pages,
    fun item mem => inside.opened item (List.mem_filter.mp mem).1⟩)
    (.lift (removeIfPresent_confined writes))

theorem install_confined {merged : MergedPage} (within : merged.In region) :
    region.ConfinesKeeping region.stores (install merged) fun _ => True := by
  refine .getThen fun store _ inside => ?_
  rw [List.partition_eq_filter_filter]
  have kept {keep : Page → Bool} : ∀ page ∈ store.pages.filter keep, region.writes page.path :=
    fun page mem => inside.pages page (List.mem_filter.mp mem).1
  dsimp only
  split
  · exact .lift (removeIfPresent_confined within)
  · refine .modifyThen (fun later _ still => ?_) (.forM fun page mem => discard_confined (kept page mem))
    have path : region.writes
        (Page.ofWritten merged.id later.limits.stride merged.written).path := within
    exact ⟨still.directory, writes_behind kept path _, still.opened⟩

end PageStore

/-! ## Segments -/

/-- Segments whose pages are in the region. -/
def Storage.Region.segments (region : Region) : Custody Segment where
  holds files segment := region.stores.holds files segment.store
  grows more inside := region.stores.grows more inside

namespace Segment

variable {segment : Segment} {good : α → Prop}

theorem create_confined {overflow : Path} (writes : region.writes overflow) (index : Nat)
    (plan : Plan) (storage : StorageSettings) :
    region.ConfinesTask (create index plan storage overflow)
      fun segment => ∀ files, region.segments.holds files segment := by
  have inner := region.writes_within _ _
    (Path.within_child overflow s!"seg-{Text.zeroPadded 4 index}") writes
  exact (PageStore.create_confined inner _).bind fun _ inside => .pure inside

theorem onStore_confined {work : Keeping PageStore α}
    (confines : region.ConfinesKeeping region.stores work good) :
    region.ConfinesKeeping region.segments (onStore work) good :=
  confines.onPart (fun _ _ inside => inside) fun _ _ _ _ inside => inside

theorem contains_confined (bucket : Nat) (fp : Fingerprint) :
    region.ConfinesKeeping region.segments (contains bucket fp) fun _ => True := by
  refine .getThen fun segment _ _ => ?_
  split
  · exact .pure trivial
  · exact onStore_confined (PageStore.probe_confined fp)

theorem registerJob_confined (job : Option CompactionJob) :
    region.ConfinesKeeping region.segments (registerJob job) fun _ => True := by
  rw [registerJob]
  split
  · exact .modifying fun _ _ inside => inside
  · exact .pure trivial

theorem flushPending_confined : region.ConfinesKeeping region.segments flushPending
    fun job => ∀ prepared, job = some prepared → prepared.In region := by
  refine .getThen fun segment _ _ => ?_
  refine (onStore_confined (PageStore.append_confined _)).bind fun _ _ => ?_
  refine .modifyThen (fun _ _ inside => inside) (.getThen fun _ _ _ => ?_)
  split
  · exact .pure fun _ none => nomatch none
  · refine .getThen fun _ _ _ => ?_
    refine (onStore_confined (PageStore.tieredCompactionJob_confined _)).bind fun job within => ?_
    exact (registerJob_confined job).bind fun _ _ => .pure within

/-- What a put leaves to run is in the region. -/
theorem beginPut_confined (bucket : Nat) (fp : Fingerprint) :
    region.ConfinesKeeping region.segments (beginPut bucket fp)
      fun step => ∀ job, step = .added (some job) → job.In region := by
  refine (contains_confined bucket fp).bind fun known _ => ?_
  split
  · exact .pure fun _ impossible => nomatch impossible
  · refine .modifyThen (fun _ _ inside => inside) (.getThen fun _ _ _ => ?_)
    split
    · refine flushPending_confined.bind fun job within => .pure ?_
      rintro prepared ⟨⟩
      exact within prepared rfl
    · exact .pure fun _ impossible => nomatch impossible

theorem dropReader_confined :
    region.ConfinesKeeping region.segments (modify dropReader) fun _ => True :=
  .modifying fun _ _ inside => inside

theorem runCompaction_confined {job : CompactionJob} (within : job.In region) :
    region.ConfinesKeeping region.segments (runCompaction job) fun _ => True := by
  refine (ConfinesKeeping.lift (CompactionJob.run_confined within)).outcome.bind
    fun outcome merges => ?_
  refine dropReader_confined.bind fun _ _ => ?_
  refine (ConfinesKeeping.ofExcept merges).bind fun merged mergedIn => ?_
  exact onStore_confined (PageStore.install_confined mergedIn)

theorem put_confined (bucket : Nat) (fp : Fingerprint) :
    region.ConfinesKeeping region.segments (put bucket fp) fun _ => True := by
  refine (beginPut_confined bucket fp).bind fun step within => ?_
  rcases step with _ | _ | job
  · exact .pure trivial
  · exact .pure trivial
  · exact (runCompaction_confined (within job rfl)).bind fun _ _ => .pure trivial

theorem compact_confined : region.ConfinesKeeping region.segments compact fun _ => True := by
  have begins : region.ConfinesKeeping region.segments beginCompact
      fun job => ∀ prepared, job = some prepared → prepared.In region := by
    refine .getThen fun segment _ _ => ?_
    split
    · exact .pure fun _ none => nomatch none
    · refine (onStore_confined PageStore.compactionJob_confined).bind fun job within => ?_
      exact (registerJob_confined job).bind fun _ _ => .pure within
  refine begins.bind fun job within => ?_
  cases job with
  | none => exact .pure trivial
  | some job => exact runCompaction_confined (within job rfl)

theorem takeSnapshot_confined :
    region.ConfinesKeeping region.segments takeSnapshot (Merge.Admitted region) := by
  refine .getThen fun segment _ inside => ?_
  have opened := PageStore.openPages_confined inside.pages
  refine (ConfinesKeeping.lift opened).bind fun readers admitted => .getThen fun _ _ _ => ?_
  refine .modifyThen (fun _ _ still => still) (.pure ?_)
  exact List.forall_mem_cons.mpr ⟨trivial, admitted_files admitted⟩

theorem scan_confined {sink : σ → Fingerprint → Task σ} {giveUp : σ → Task Unit}
    {holds : σ → Prop} (sinks : ∀ state fp, holds state → region.ConfinesTask (sink state fp) holds)
    (givesUp : ∀ state, holds state → region.ConfinesTask (giveUp state) fun _ => True) {state : σ}
    (start : holds state) :
    region.ConfinesKeeping region.segments (scan sink giveUp state) holds := by
  refine (takeSnapshot_confined.tryCatch fun error => ?_).bind fun snapshot admitted => ?_
  · exact (ConfinesKeeping.lift (givesUp state start)).bind fun _ _ => .throw error
  · refine (ConfinesKeeping.lift
      (Merge.foldTo_confined sinks givesUp _ admitted start)).outcome.bind fun outcome ended => ?_
    exact dropReader_confined.bind fun _ _ => .ofExcept ended

end Segment

end FingerprintSet
