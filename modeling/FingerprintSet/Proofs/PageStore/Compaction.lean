import FingerprintSet.PageStore.Compaction
import FingerprintSet.Proofs.Merge
import FingerprintSet.Proofs.PageStore.Basic
import FingerprintSet.Proofs.Total

/-!
# Merging pages keeps their entries

A prepared merge has a number of its own, which stands from then on for all entries of its
input pages.  Running it writes exactly these into the file of that number.  Installing the
result changes which pages hold the entries and not which entries are held.
-/

namespace FingerprintSet

open Storage Volume SortedFile

variable {before : Volume} {entries : PageId → List Fingerprint} {store : PageStore}

/-- The files behind some pages. -/
def Behind (volume : Volume) (pages : List Page) (id : FileId) : Prop :=
  ∃ page ∈ pages, volume.binding? page.path = some (.file id)

namespace PageStore

/-- The open readers together give the entries of the pages. -/
theorem openPages_runs (volumeSound : before.Sound) (pages : List Page)
    (filed : ∀ page ∈ pages, ∃ file, Holds before page.path .page (entries page.id) file)
    (ascending : ∀ page ∈ pages, Ascending (entries page.id))
    (few : ∀ page ∈ pages, (entries page.id).length < countLimit) :
    Runs (openPages pages) before Nowhere NoFile fun readers after =>
      Merge.Sources after (Behind before pages) (readers.map .file) fun fp =>
        ∃ page ∈ pages, fp ∈ entries page.id := by
  induction pages generalizing before with
  | nil =>
      apply Runs.pure
      exact (Merge.Sources.nil _ _).congr (by simp)
  | cons page pages ih =>
      rw [List.forall_mem_cons] at filed ascending few
      obtain ⟨⟨file, holds⟩, filedOthers⟩ := filed
      apply Runs.bind (Reader.openAt_runs volumeSound holds few.1)
      rintro reader after changes ⟨stands, -, -⟩
      have filedStill (other : Page) (mem : other ∈ pages) :
          ∃ file, Holds after other.path .page (entries other.id) file := by
        obtain ⟨file, holds⟩ := filedOthers other mem
        exact ⟨file, holds.of_changes changes volumeSound (fun none => none) fun none => none⟩
      apply Runs.bind (ih (changes.sound volumeSound) filedStill ascending.2 few.2)
      intro readers final more gives
      apply Runs.pure
      have delivers : (Source.file reader).Delivers final (Behind before (page :: pages))
          (entries page.id) :=
        ⟨file, ⟨page, List.mem_cons_self, holds.bound⟩, stands.of_changes more fun none => none⟩
      have others := gives.mono fun id (behind : Behind after pages id) => by
        obtain ⟨other, mem, bound⟩ := behind
        rw [changes.entry_eq _ fun none => none] at bound
        exact (⟨other, List.mem_cons_of_mem _ mem, bound⟩ : Behind before (page :: pages) id)
      rw [List.map_cons]
      apply (Merge.Sources.cons delivers ascending.1.weaken others).congr
      simp

/-! ## Preparing -/

end PageStore

/-- A prepared merge: its number is not a page yet and stands for the entries of the pages to be
replaced, which its readers give. -/
structure CompactionJob.Prepared (volume : Volume) (used : FileId → Prop)
    (entries : PageId → List Fingerprint) (store : PageStore) (job : CompactionJob) : Prop where
  numbered : job.targetId < store.nextId
  absent : job.targetId ∉ store.ids
  target : job.target = store.pagePath job.targetId
  free : volume.binding? job.target = none
  stride : job.stride = store.limits.stride
  ascending : Ascending (entries job.targetId)
  sources : Merge.Sources volume used (job.readers.map .file) (· ∈ entries job.targetId)
  exactly : ∀ fp, fp ∈ entries job.targetId ↔ ∃ id ∈ job.replaced, fp ∈ entries id
  below : ∀ id ∈ job.replaced, id < store.nextId
  distinct : job.replaced.Nodup

/-- A prepared merge stays prepared while its number does not become a page, its name stays free
and nothing happens to its sources. -/
theorem CompactionJob.Prepared.of_changes {used : FileId → Prop} {job : CompactionJob}
    {others : PageId → List Fingerprint} {last : PageStore} {after : Volume}
    {paths : Path → Prop} {files : FileId → Prop}
    (prepared : job.Prepared before used entries store)
    (goesOn : store.Continues entries others last) (absent : job.targetId ∉ last.ids)
    (changes : Changes paths files before after) (untouched : ∀ id, used id → ¬files id)
    (outside : ¬paths job.target) : job.Prepared after used others last where
  numbered := Nat.lt_of_lt_of_le prepared.numbered goesOn.nextId_le
  absent := absent
  target := prepared.target.trans (goesOn.pagePath _).symm
  free := (changes.entry_eq _ outside).trans prepared.free
  stride := prepared.stride.trans (congrArg StoreLimits.stride goesOn.limits.symm)
  ascending := by
    rw [goesOn.same _ prepared.numbered]
    exact prepared.ascending
  sources := by
    rw [goesOn.same _ prepared.numbered]
    exact prepared.sources.of_changes changes fun id _ => untouched id
  exactly fp := by
    rw [goesOn.same _ prepared.numbered, prepared.exactly fp]
    exact exists_congr fun id => and_congr_right fun mem => by
      rw [goesOn.same id (prepared.below id mem)]
  below id mem := Nat.lt_of_lt_of_le (prepared.below id mem) goesOn.nextId_le
  distinct := prepared.distinct

theorem CompactionJob.Prepared.mono {used more : FileId → Prop} {job : CompactionJob}
    (prepared : job.Prepared before used entries store) (sub : ∀ id, used id → more id) :
    job.Prepared before more entries store :=
  { prepared with sources := prepared.sources.mono sub }

/-- A merge of pages stays one while nothing happens to pages. -/
theorem CompactionJob.Prepared.paged {job : CompactionJob} {others : PageId → List Fingerprint}
    {last : PageStore} {after : Volume} {paths : Path → Prop} {files : FileId → Prop}
    (prepared : job.Prepared before (IsPage before) entries store)
    (goesOn : store.Continues entries others last) (absent : job.targetId ∉ last.ids)
    (changes : Changes paths files before after) (pages : ∀ id, files id → ¬IsPage before id)
    (outside : ¬paths job.target) : job.Prepared after (IsPage after) others last := by
  have untouched (id : FileId) (isPage : IsPage before id) : ¬files id :=
    fun touched => pages id touched isPage
  exact (prepared.of_changes goesOn absent changes untouched outside).mono fun id isPage =>
    isPage.of_changes changes (untouched id isPage)

namespace PageStore

/-- What lies behind the pages of a store is laid out as pages. -/
theorem Sound.isPage (sound : store.Sound before entries) (volumeSound : before.Sound) {id : FileId}
    (behind : Behind before store.pages id) : IsPage before id := by
  obtain ⟨page, mem, bound⟩ := behind
  obtain ⟨file, holds⟩ := sound.filed page mem
  obtain rfl : file = id := Entry.file.inj (Option.some.inj (holds.bound.symm.trans bound))
  exact holds.isPage volumeSound

/-- Work on the target of a prepared merge leaves the store sound. -/
theorem Sound.of_target {after : Volume} {job : CompactionJob} {used : FileId → Prop}
    (sound : store.Sound before entries) (volumeSound : before.Sound)
    (prepared : job.Prepared before used entries store)
    (changes : Changes (At job.target) NoFile before after) : store.Sound after entries := by
  apply sound.of_changes volumeSound changes fun _ none => none.elim
  · intro same
    exact Path.ne_child _ _ (same.trans prepared.target)
  · intro id same
    obtain rfl : id = job.targetId := pagePath_inj.mp (same.trans prepared.target)
    exact ⟨prepared.absent, prepared.numbered⟩

/-- What a number stands for once a merge of some pages is prepared under it. -/
def mergedEntries (entries : PageId → List Fingerprint) (store : PageStore)
    (replaced : List PageId) : PageId → List Fingerprint :=
  assign entries store.nextId (sorted (replaced.flatMap entries))

/-- What preparing a merge of some pages leaves. -/
def Offered (before after : Volume) (entries : PageId → List Fingerprint)
    (store last : PageStore) (replaced : List PageId) : Option CompactionJob → Prop
  | none => last = store ∧ replaced.length < 2
  | some job => last = { store with nextId := store.nextId + 1 } ∧ job.replaced = replaced ∧
      2 ≤ replaced.length ∧ job.targetId = store.nextId ∧
      job.Prepared after (Behind before store.pages) (mergedEntries entries store replaced) last

theorem mem_mergedEntries {replaced : List PageId} {fp : Fingerprint} :
    fp ∈ mergedEntries entries store replaced store.nextId ↔
      ∃ id ∈ replaced, fp ∈ entries id := by
  rw [mergedEntries, assign_self, mem_sorted, List.mem_flatMap]

theorem mergedEntries_of_lt (entries : PageId → List Fingerprint) (replaced : List PageId)
    {id : PageId} (given : id < store.nextId) :
    mergedEntries entries store replaced id = entries id :=
  assign_ne _ _ (Nat.ne_of_lt given)

/-- With its number given out for a merge the store is sound and has the entries it had. -/
theorem Sound.merging {after : Volume} (sound : store.Sound before entries)
    (volumeSound : before.Sound) (changes : Changes Nowhere NoFile before after)
    (replaced : List PageId) :
    Sound after (mergedEntries entries store replaced)
      { store with nextId := store.nextId + 1 } :=
  ((sound.of_nothing volumeSound changes).assigned _).allocated

theorem Sound.contents_merging (sound : store.Sound before entries) (replaced : List PageId) :
    contents (mergedEntries entries store replaced) { store with nextId := store.nextId + 1 } =
      store.contents entries :=
  sound.contents_assign _

/-- A merge under the next number is prepared once its readers give the entries of the pages to
be replaced. -/
theorem Sound.prepared {after : Volume} {readers : List Reader} {replaced : List PageId}
    (sound : store.Sound before entries) (changes : Changes Nowhere NoFile before after)
    (live : ∀ id ∈ replaced, id ∈ store.ids) (distinct : replaced.Nodup)
    (gives : Merge.Sources after (Behind before store.pages) (readers.map .file) fun fp =>
      ∃ id ∈ replaced, fp ∈ entries id) :
    CompactionJob.Prepared after (Behind before store.pages) (mergedEntries entries store replaced)
      { store with nextId := store.nextId + 1 }
      { replaced, readers, targetId := store.nextId, target := store.pagePath store.nextId
        stride := store.limits.stride, durable := store.limits.durable } where
  numbered := Nat.lt_succ_self _
  absent mem := Nat.lt_irrefl _ (sound.id_lt mem)
  target := rfl
  free := (changes.entry_eq _ fun none => none).trans (sound.free _ (Nat.le_refl _))
  stride := rfl
  ascending := by
    rw [mergedEntries, assign_self]
    exact sorted_ascending _
  sources := gives.congr fun _ => mem_mergedEntries
  exactly fp := by
    rw [mem_mergedEntries]
    exact exists_congr fun id => and_congr_right fun mem => by
      rw [mergedEntries_of_lt _ _ (sound.id_lt (live id mem))]
  below id mem := Nat.lt_succ_of_lt (sound.id_lt (live id mem))
  distinct := distinct

theorem jobFor_runs (volumeSound : before.Sound) (sound : store.Sound before entries)
    {replaced : List PageId} (live : ∀ id ∈ replaced, id ∈ store.ids) (distinct : replaced.Nodup)
    (few : ∀ id ∈ store.ids, (entries id).length < countLimit) :
    Keeping.Runs (jobFor replaced) store before Nowhere NoFile
      (fun job last after => Offered before after entries store last replaced job)
      fun last _ => last = store := by
  rw [jobFor]
  split
  · rename_i single
    exact Keeping.Runs.pure ⟨rfl, single⟩
  · rename_i several
    apply Keeping.Runs.getThen
    generalize chosenEq : (store.pages.filter fun page => replaced.contains page.id) = chosen
    have chosen_iff (page : Page) : page ∈ chosen ↔ page ∈ store.pages ∧ page.id ∈ replaced := by
      rw [← chosenEq, List.mem_filter, List.contains_iff_mem]
    have opens := openPages_runs volumeSound chosen
      (fun page mem => sound.filed page ((chosen_iff page).mp mem).1)
      (fun page mem => (sound.describes page ((chosen_iff page).mp mem).1).ascending)
      fun page mem => few page.id (List.mem_map_of_mem ((chosen_iff page).mp mem).1)
    apply Keeping.Runs.liftThen opens
    · exact fun _ _ => rfl
    · intro readers after changes gives
      apply Keeping.Runs.modifyGetThen
      apply Keeping.Runs.getThen
      apply Keeping.Runs.pure
      have among := gives.mono fun id (behind : Behind before chosen id) => by
        obtain ⟨page, mem, bound⟩ := behind
        exact (⟨page, ((chosen_iff page).mp mem).1, bound⟩ : Behind before store.pages id)
      refine ⟨rfl, rfl, by omega, rfl, sound.prepared changes live distinct (among.congr ?_)⟩
      -- The pages to be replaced are those that were opened.
      intro fp
      constructor
      · rintro ⟨id, mem, isEntry⟩
        obtain ⟨page, pageMem, rfl⟩ := List.mem_map.mp (live id mem)
        exact ⟨page, (chosen_iff page).mpr ⟨pageMem, mem⟩, isEntry⟩
      · rintro ⟨page, mem, isEntry⟩
        exact ⟨page.id, ((chosen_iff page).mp mem).2, isEntry⟩

theorem tieredChoice_sublist (pages : List Page) :
    ∀ id ∈ tieredChoice pages, id ∈ pages.map (·.id) := by
  intro id mem
  rw [tieredChoice] at mem
  split at mem
  · obtain ⟨page, pageMem, rfl⟩ := List.mem_map.mp mem
    exact List.mem_map_of_mem (List.mem_filter.mp pageMem).1
  · obtain ⟨page, pageMem, rfl⟩ := List.mem_map.mp mem
    exact List.mem_map_of_mem (List.mem_mergeSort.mp (List.mem_of_mem_take pageMem))

theorem tieredChoice_nodup {pages : List Page} (distinct : (pages.map (·.id)).Nodup) :
    (tieredChoice pages).Nodup := by
  rw [tieredChoice]
  split
  · exact (List.filter_sublist.map _).nodup distinct
  · have sortedDistinct := ((List.mergeSort_perm pages fun a b => a.count ≤ b.count).map
      (·.id)).nodup_iff.mpr distinct
    exact ((List.take_sublist 2 _).map _).nodup sortedDistinct

/-- Preparing a full merge takes in all pages. -/
theorem compactionJob_runs (volumeSound : before.Sound) (sound : store.Sound before entries)
    (few : ∀ id ∈ store.ids, (entries id).length < countLimit) :
    Keeping.Runs compactionJob store before Nowhere NoFile
      (fun job last after => Offered before after entries store last store.ids job)
      fun last _ => last = store := by
  apply Keeping.Runs.getThen
  exact jobFor_runs volumeSound sound (fun _ mem => mem) sound.distinct few

/-- A tiered merge takes in some pages, and it is prepared when there are too many. -/
theorem tieredCompactionJob_runs (volumeSound : before.Sound) (sound : store.Sound before entries)
    (few : ∀ id ∈ store.ids, (entries id).length < countLimit) (maxPages : Nat) :
    Keeping.Runs (tieredCompactionJob maxPages) store before Nowhere NoFile
      (fun job last after => store.pageCount ≤ maxPages ∧ job = none ∧ last = store ∨
        maxPages < store.pageCount ∧
          Offered before after entries store last (tieredChoice store.pages) job)
      fun last _ => last = store := by
  apply Keeping.Runs.getThen
  dsimp only
  split
  · rename_i fits
    exact Keeping.Runs.pure (Or.inl ⟨fits, rfl, rfl⟩)
  · rename_i tooMany
    have offers := jobFor_runs volumeSound sound (tieredChoice_sublist store.pages)
      (tieredChoice_nodup sound.distinct) few
    apply offers.mono
    · exact fun _ _ _ _ offered => Or.inr ⟨Nat.lt_of_not_le tooMany, offered⟩
    · exact fun _ _ _ same => same

end PageStore

/-! ## Running -/

theorem removeIfPresent_runs (sound : before.Sound) {path : Path} {file : FileId}
    (bound : before.binding? path = some (.file file)) :
    Runs (removeIfPresent path) before (At path) NoFile fun _ after =>
      before.Quiet → after.binding? path = none := by
  have removes : Runs (removeFile path) before (At path) NoFile fun _ after =>
      before.Quiet → after.binding? path = none :=
    (removeFile_runs sound bound).mono fun _ _ _ gone _ => gone
  apply Activity.runs
  apply Meets.tryCatch removes
  rintro failure after ⟨changes, refused⟩
  split
  · exact Meets.of_ok rfl ⟨changes, fun quiet => absurd quiet refused⟩
  · exact Meets.of_error rfl ⟨changes, refused⟩

theorem removeIfPresent_changes (sound : before.Sound) (path : Path) :
    Meets (removeIfPresent path) before (fun _ after => Changes (At path) NoFile before after)
      fun _ after => Changes (At path) NoFile before after := by
  apply Meets.adapt
  apply Meets.tryCatch (removeFile_changes sound path)
  intro failure after changes
  split
  · exact Meets.of_ok rfl changes
  · exact Meets.of_error rfl changes

/-- The result of a merge: a page that can take the place of the pages it was made from. -/
structure MergedPage.Ready (volume : Volume) (entries : PageId → List Fingerprint)
    (store : PageStore) (merged : MergedPage) : Prop where
  numbered : merged.id < store.nextId
  absent : merged.id ∉ store.ids
  path : merged.written.path = store.pagePath merged.id
  filed : ∃ file, Holds volume merged.written.path .page (entries merged.id) file
  describes : merged.written.Describes store.limits.stride (entries merged.id)
  ascending : Ascending (entries merged.id)
  exactly : ∀ fp, fp ∈ entries merged.id ↔ ∃ id ∈ merged.replaced, fp ∈ entries id
  below : ∀ id ∈ merged.replaced, id < store.nextId
  distinct : merged.replaced.Nodup

/-- A finished merge stays ready while its number does not become a page and its file stays. -/
theorem MergedPage.Ready.of_changes {merged : MergedPage} {others : PageId → List Fingerprint}
    {last : PageStore} {after : Volume} {paths : Path → Prop} {files : FileId → Prop}
    (volumeSound : before.Sound) (ready : merged.Ready before entries store)
    (goesOn : store.Continues entries others last) (absent : merged.id ∉ last.ids)
    (changes : Changes paths files before after) (pages : ∀ id, files id → ¬IsPage before id)
    (outside : ¬paths merged.written.path) : merged.Ready after others last where
  numbered := Nat.lt_of_lt_of_le ready.numbered goesOn.nextId_le
  absent := absent
  path := ready.path.trans (goesOn.pagePath _).symm
  filed := by
    obtain ⟨file, holds⟩ := ready.filed
    rw [goesOn.same _ ready.numbered]
    exact ⟨file, holds.of_changes changes volumeSound outside fun touched =>
      pages file touched (holds.isPage volumeSound)⟩
  describes := by
    rw [goesOn.same _ ready.numbered, goesOn.limits]
    exact ready.describes
  ascending := by
    rw [goesOn.same _ ready.numbered]
    exact ready.ascending
  exactly fp := by
    rw [goesOn.same _ ready.numbered, ready.exactly fp]
    exact exists_congr fun id => and_congr_right fun mem => by
      rw [goesOn.same id (ready.below id mem)]
  below id mem := Nat.lt_of_lt_of_le (ready.below id mem) goesOn.nextId_le
  distinct := ready.distinct

namespace CompactionJob

/-- What a merge has written when it is through. -/
def Results (job : CompactionJob) (entries : PageId → List Fingerprint) (volume : Volume)
    (written : Written) : Prop :=
  written.path = job.target ∧ (∃ file, Holds volume job.target .page (entries job.targetId) file) ∧
    written.Describes job.stride (entries job.targetId)

variable {job : CompactionJob} {used : FileId → Prop}

theorem write_runs (volumeSound : before.Sound) (isDir : before.IsDir store.directory)
    (room : job.targetId < numberLimit)
    (prepared : job.Prepared before used entries store) :
    Runs job.write before (At job.target) NoFile fun written after =>
      job.Results entries after written := by
  have targetEq : job.target = store.directory.child (PageStore.pageName job.targetId) :=
    prepared.target
  have free := prepared.free
  have unnamed (id : FileId) (isKnown : before.Known id) : ¬before.Fresh id :=
    Nat.not_le.mpr isKnown
  apply Runs.ofFresh
  rw [targetEq] at free
  have created := Writer.create_runs volumeSound isDir (PageStore.pageName_fits room) free .page
    job.durable job.stride
  rw [← targetEq] at created
  apply Runs.bind (created.widen (fun _ inside => inside) fun _ _ none => none.elim)
  rintro writer start changes ⟨taken, target⟩
  have startSound := changes.sound volumeSound
  have streams : (Merge.fresh (job.readers.map .file)).Streams start before.Known
      (entries job.targetId) :=
    ⟨prepared.ascending, prepared.sources.known.of_changes changes fun id _ isKnown fresh =>
      unnamed id isKnown fresh⟩
  simp only [Writer.target, Prod.mk.injEq] at target
  obtain ⟨path, kind, file, stride, -⟩ := target
  have own (id : FileId) (only : Only writer.file id) : before.Fresh id :=
    Nat.le_of_eq (file.symm.trans only.symm)
  have folded := Merge.fold_push_runs startSound taken streams fun id isKnown only =>
    unnamed id isKnown (own id only)
  apply Runs.bind (folded.widen (fun _ nowhere => nowhere.elim) fun id _ => own id)
  rintro last filled more ⟨lastTaken, same⟩
  simp only [Writer.target, Prod.mk.injEq] at same
  obtain ⟨samePath, sameKind, sameFile, sameStride, -⟩ := same
  rw [List.nil_append] at lastTaken
  have finished := Writer.finish_runs (more.sound startSound) lastTaken
  rw [samePath, path, sameKind, kind, sameFile, sameStride, stride] at finished
  apply (finished.widen (fun _ nowhere => nowhere.elim) fun id _ => own id).mono
  rintro written final _ ⟨holds, pathEq, describes⟩
  exact ⟨pathEq, ⟨_, holds⟩, describes⟩

/-- A merge that is run is ready to be installed; if it fails nothing but its target changed. -/
theorem run_runs (volumeSound : before.Sound) (isDir : before.IsDir store.directory)
    (room : job.targetId < numberLimit)
    (prepared : job.Prepared before used entries store) :
    Runs job.run before (At job.target) NoFile fun merged after =>
      merged.Ready after entries store ∧ merged.id = job.targetId ∧
        merged.replaced = job.replaced := by
  have written : Runs (tryCatch job.write fun error => do
      removeIfPresent job.target
      throw error) before (At job.target) NoFile fun written after =>
        job.Results entries after written := by
    apply Meets.tryCatch (write_runs volumeSound isDir room prepared)
    rintro error after ⟨changes, refused⟩
    have removed := removeIfPresent_changes (changes.sound volumeSound) job.target
    rcases removed.cases with ⟨_, final, result, more⟩ | ⟨_, final, result, more⟩
    · exact Meets.of_error (by rw [bind_apply, result]; rfl) ⟨changes.trans more, refused⟩
    · exact Meets.of_error (by rw [bind_apply, result]) ⟨changes.trans more, refused⟩
  apply Runs.bind written
  rintro written after _ ⟨path, filed, describes⟩
  apply Runs.pure
  refine ⟨?_, rfl, rfl⟩
  exact
    { numbered := prepared.numbered
      absent := prepared.absent
      path := path.trans prepared.target
      filed := path ▸ filed
      describes := prepared.stride ▸ describes
      ascending := prepared.ascending
      exactly := prepared.exactly
      below := prepared.below
      distinct := prepared.distinct }

end CompactionJob

/-! ## Installing -/

namespace PageStore

/-- The paths that installing a merged page can touch: those of the pages it takes part in. -/
def Involved (store : PageStore) (merged : MergedPage) (path : Path) : Prop :=
  ∃ id, (id = merged.id ∨ id ∈ merged.replaced) ∧ path = store.pagePath id

/-- A page that is gone from a store and whose file is still there. -/
structure Gone (volume : Volume) (store : PageStore) (page : Page) : Prop where
  placed : page.path = store.pagePath page.id
  absent : page.id ∉ store.ids
  numbered : page.id < store.nextId
  filed : ∃ file, volume.binding? page.path = some (.file file)

theorem discard_runs (volumeSound : before.Sound) (sound : store.Sound before entries)
    {page : Page} (gone : store.Gone before page) :
    Keeping.Runs (discard page) store before (At page.path) NoFile
      (fun _ last after => last.Sound after entries ∧ store.SameButHandles last)
      fun last after => last.Sound after entries ∧ store.SameButHandles last := by
  have closed : Sound before entries { store with handles := store.handles.erase page.id } := by
    apply sound.rehandled
    intro id handle kept
    exact sound.opened id handle (List.mem_filter.mp kept).1
  have steady (after : Volume) (changes : Changes (At page.path) NoFile before after) :
      Sound after entries { store with handles := store.handles.erase page.id } := by
    apply closed.of_changes volumeSound changes fun _ none => none.elim
    · intro same
      rw [gone.placed] at same
      exact Path.ne_child _ _ same
    · intro id same
      obtain rfl : id = page.id := pagePath_inj.mp (same.trans gone.placed)
      exact ⟨gone.absent, gone.numbered⟩
  obtain ⟨file, bound⟩ := gone.filed
  apply Keeping.Runs.modifyThen
  apply Keeping.Runs.lift
  · exact (removeIfPresent_runs volumeSound bound).mono fun _ after changes _ =>
      ⟨steady after changes, rfl⟩
  · exact fun after changes => ⟨steady after changes, rfl⟩

theorem discards_runs (volumeSound : before.Sound) (sound : store.Sound before entries)
    {merged : MergedPage} (pages : List Page) (distinct : (pages.map (·.id)).Nodup)
    (gone : ∀ page ∈ pages, page.id ∈ merged.replaced ∧ store.Gone before page) :
    Keeping.Runs (pages.forM discard) store before (Involved store merged) NoFile
      (fun _ last after => last.Sound after entries ∧ store.SameButHandles last)
      fun last after => last.Sound after entries ∧ store.SameButHandles last := by
  induction pages generalizing store before with
  | nil => exact Keeping.Runs.pure ⟨sound, rfl⟩
  | cons page pages ih =>
      rw [List.forall_mem_cons] at gone
      rw [List.map_cons, List.nodup_cons] at distinct
      obtain ⟨⟨involved, first⟩, others⟩ := gone
      have discarded := (discard_runs volumeSound sound first).mono
        (fun _ last after changes held => And.intro changes held) fun last after _ held => held
      have involves (path : Path) (same : At page.path path) : Involved store merged path :=
        ⟨page.id, Or.inr involved, same.trans first.placed⟩
      apply Keeping.Runs.bind (discarded.widen involves fun _ _ none => none)
      rintro _ last after _ ⟨changes, lastSound, same⟩
      have stillGone (other : Page) (mem : other ∈ pages) :
          other.id ∈ merged.replaced ∧ last.Gone after other := by
        obtain ⟨otherInvolved, otherGone⟩ := others other mem
        refine ⟨otherInvolved, ?_⟩
        have different : other.id ≠ page.id := by
          intro equal
          exact distinct.1 (equal ▸ List.mem_map_of_mem mem)
        have elsewhere : ¬At page.path other.path := by
          rw [At, otherGone.placed, first.placed, pagePath_inj]
          exact different
        exact
          { placed := otherGone.placed.trans (same.pagePath _).symm
            absent := same.ids ▸ otherGone.absent
            numbered := same.nextId ▸ otherGone.numbered
            filed := by
              rw [changes.entry_eq _ elsewhere]
              exact otherGone.filed }
      have involvesStill (path : Path) : Involved last merged path → Involved store merged path := by
        rintro ⟨id, isInvolved, rfl⟩
        exact ⟨id, isInvolved, same.pagePath id⟩
      have rest := ih (changes.sound volumeSound) lastSound distinct.2 stillGone
      apply (rest.widen involvesStill fun _ _ none => none).mono
      · exact fun _ _ _ _ ⟨sound, more⟩ => ⟨sound, same.trans more⟩
      · exact fun _ _ _ ⟨sound, more⟩ => ⟨sound, same.trans more⟩

/-- The pages after a merged page was taken in, if all pages it replaces are there. -/
def idsAfter (store : PageStore) (merged : MergedPage) : List PageId :=
  if ∀ id ∈ merged.replaced, id ∈ store.ids then
    (store.ids.filter fun id => !merged.replaced.contains id) ++ [merged.id]
  else
    store.ids

/-- Where all pages are replaced, the merged page is left. -/
theorem idsAfter_all {merged : MergedPage} (all : merged.replaced = store.ids) :
    store.idsAfter merged = [merged.id] := by
  have none : store.ids.filter (fun id => !merged.replaced.contains id) = [] := by
    rw [List.filter_eq_nil_iff, all]
    intro id mem
    simp [mem]
  rw [idsAfter, if_pos (fun _ mem => all ▸ mem), none, List.nil_append]

/-- Apart from its pages and the handles that are open, the store is as it was. -/
def Installed (entries : PageId → List Fingerprint) (store : PageStore) (merged : MergedPage)
    (last : PageStore) (after : Volume) : Prop :=
  last.Sound after entries ∧ last.ids = store.idsAfter merged ∧ last.nextId = store.nextId ∧
    last.directory = store.directory ∧ last.limits = store.limits

theorem total_count {pages : List Page}
    (describes : ∀ page ∈ pages, page.Describes (entries page.id)) :
    total (·.count) pages = ((pages.map (·.id)).flatMap entries).length := by
  rw [length_flatMap, total_map]
  exact total_congr fun page mem => (describes page mem).count

/-- As many pages are found as are to be replaced only if all of them are there. -/
theorem all_found_iff (unique : store.ids.Nodup) {replaced : List PageId}
    (distinct : replaced.Nodup) :
    (store.pages.filter fun page => replaced.contains page.id).length = replaced.length ↔
      ∀ id ∈ replaced, id ∈ store.ids := by
  generalize oldEq : (store.pages.filter fun page => replaced.contains page.id) = old
  have nodup : (old.map (·.id)).Nodup := by
    rw [← oldEq]
    exact (List.filter_sublist.map _).nodup unique
  have subset : ∀ id ∈ old.map (·.id), id ∈ replaced ∧ id ∈ store.ids := by
    intro id mem
    obtain ⟨page, pageMem, rfl⟩ := List.mem_map.mp mem
    rw [← oldEq, List.mem_filter, List.contains_iff_mem] at pageMem
    exact ⟨pageMem.2, List.mem_map_of_mem pageMem.1⟩
  rw [← List.length_map (·.id)]
  constructor
  · intro long id mem
    by_cases found : id ∈ old.map (·.id)
    · exact (subset id found).2
    · have fewer : (old.map (·.id)).length ≤ (replaced.erase id).length := by
        apply nodup.length_le_of_subset
        intro other otherMem
        have different : other ≠ id := fun same => found (same ▸ otherMem)
        exact (List.mem_erase_of_ne different).mpr (subset other otherMem).1
      have some := List.length_pos_of_mem mem
      rw [List.length_erase_of_mem mem] at fewer
      omega
  · intro live
    apply Nat.le_antisymm
    · exact nodup.length_le_of_subset fun id mem => (subset id mem).1
    · apply distinct.length_le_of_subset
      intro id mem
      obtain ⟨page, pageMem, rfl⟩ := List.mem_map.mp (live id mem)
      apply List.mem_map_of_mem
      rw [← oldEq, List.mem_filter, List.contains_iff_mem]
      exact ⟨pageMem, mem⟩

theorem all_live_iff (sound : store.Sound before entries) {replaced : List PageId}
    (distinct : replaced.Nodup) :
    (store.pages.filter fun page => replaced.contains page.id).length = replaced.length ↔
      ∀ id ∈ replaced, id ∈ store.ids :=
  all_found_iff sound.distinct distinct

/-- The pages that a merged page replaces. -/
def replacedBy (store : PageStore) (merged : MergedPage) : List Page :=
  store.pages.filter fun page => merged.replaced.contains page.id

/-- The pages that stay beside a merged page. -/
def keptBy (store : PageStore) (merged : MergedPage) : List Page :=
  store.pages.filter (not ∘ fun page => merged.replaced.contains page.id)

/-- The store that has taken a merged page in. -/
def takenIn (store : PageStore) (merged : MergedPage) : PageStore :=
  store.swapIn merged (store.replacedBy merged) (store.keptBy merged)

section Swapping

variable {merged : MergedPage}

theorem mem_keptBy {page : Page} (mem : page ∈ store.keptBy merged) : page ∈ store.pages :=
  (List.mem_filter.mp mem).1

theorem keptBy_ids : (store.keptBy merged).map (·.id) =
    store.ids.filter fun id => !merged.replaced.contains id := by
  rw [keptBy, ids, List.filter_map]
  rfl

theorem takenIn_ids (live : ∀ id ∈ merged.replaced, id ∈ store.ids) :
    (store.takenIn merged).ids = store.idsAfter merged := by
  rw [idsAfter, if_pos live, ← keptBy_ids, ids, takenIn, swapIn, Page.withinBudget_ids,
    List.map_append]
  rfl

/-- What the replaced pages counted is taken off, and what the merged page holds is put on. -/
theorem takenIn_counted (sound : store.Sound before entries)
    (ready : merged.Ready before entries store) :
    store.entries - total (·.count) (store.replacedBy merged) + merged.written.count =
      (((store.keptBy merged).map (·.id) ++ [merged.id]).flatMap entries).length := by
  have parts : total (·.count) (store.replacedBy merged) + total (·.count) (store.keptBy merged) =
      total (·.count) store.pages :=
    total_partition (·.count) (fun page => merged.replaced.contains page.id) store.pages
  have whole := total_count sound.describes
  have kept := total_count fun page (mem : page ∈ store.keptBy merged) =>
    sound.describes page (mem_keptBy mem)
  rw [kept, whole] at parts
  rw [sound.counted, contents, ids, ← parts, Nat.add_sub_cancel_left, List.flatMap_append,
    List.length_append, List.flatMap_singleton, ready.describes.count]

theorem Sound.takenIn (sound : store.Sound before entries)
    (ready : merged.Ready before entries store) : (store.takenIn merged).Sound before entries := by
  have distinct : ((store.keptBy merged).map (·.id)).Nodup := by
    rw [keptBy_ids]
    exact List.filter_sublist.nodup sound.distinct
  have fresh : merged.id ∉ (store.keptBy merged).map (·.id) := by
    rw [keptBy_ids]
    exact fun mem => ready.absent (List.mem_filter.mp mem).1
  exact sound.repaged (fun _ => mem_keptBy) (nodup_snoc distinct fresh) ready.numbered ready.path
    (Page.ofWritten_describes ready.ascending sound.stride ready.describes) ready.filed
    (takenIn_counted sound ready)

/-- A replaced page is no page of the store any more, but its file is still there. -/
theorem Sound.replaced_gone (sound : store.Sound before entries)
    (ready : merged.Ready before entries store)
    (live : ∀ id ∈ merged.replaced, id ∈ store.ids) {page : Page}
    (mem : page ∈ store.replacedBy merged) :
    page.id ∈ merged.replaced ∧ (store.takenIn merged).Gone before page := by
  rw [replacedBy, List.mem_filter, List.contains_iff_mem] at mem
  obtain ⟨pageMem, isReplaced⟩ := mem
  obtain ⟨file, holds⟩ := sound.filed page pageMem
  refine ⟨isReplaced, sound.placed page pageMem, ?_, sound.numbered page pageMem, file,
    holds.bound⟩
  rw [takenIn_ids live, idsAfter, if_pos live]
  intro found
  rcases List.mem_append.mp found with kept | same
  · simp [isReplaced] at kept
  · rw [List.mem_singleton] at same
    exact ready.absent (same ▸ List.mem_map_of_mem pageMem)

/-- Changing the file of a merged page that is not taken in touches no page. -/
theorem Sound.left_out {after : Volume} (volumeSound : before.Sound)
    (sound : store.Sound before entries) (ready : merged.Ready before entries store)
    (stale : ¬∀ id ∈ merged.replaced, id ∈ store.ids)
    (changes : Changes (At merged.written.path) NoFile before after) :
    Installed entries store merged store after := by
  refine ⟨?_, (if_neg stale).symm, rfl, rfl, rfl⟩
  apply sound.of_changes volumeSound changes fun _ none => none.elim
  · intro same
    rw [ready.path] at same
    exact Path.ne_child _ _ same
  · intro id same
    obtain rfl : id = merged.id := pagePath_inj.mp (same.trans ready.path)
    exact ⟨ready.absent, ready.numbered⟩

end Swapping

/-- A merged page takes the place of the pages it was made from, if these are all there. -/
theorem install_runs (volumeSound : before.Sound) (sound : store.Sound before entries)
    {merged : MergedPage} (ready : merged.Ready before entries store) :
    Keeping.Runs (install merged) store before (Involved store merged) NoFile
      (fun _ last after => Installed entries store merged last after)
      fun last after => Installed entries store merged last after := by
  have allLive := all_live_iff sound ready.distinct
  apply Keeping.Runs.getThen
  rw [List.partition_eq_filter_filter]
  dsimp only
  split
  · rename_i stale
    obtain ⟨file, holds⟩ := ready.filed
    have installed (after : Volume) (changes : Changes (At merged.written.path) NoFile before after) :
        Installed entries store merged store after :=
      sound.left_out volumeSound ready (stale ∘ allLive.mpr) changes
    have removes := (removeIfPresent_runs volumeSound holds.bound).mono
      fun _ after changes _ => installed after changes
    have lifted : Keeping.Runs (liftM (removeIfPresent merged.written.path)) store before
        (At merged.written.path) NoFile
        (fun _ last after => Installed entries store merged last after)
        fun last after => Installed entries store merged last after :=
      Keeping.Runs.lift removes installed
    apply lifted.widen
    · exact fun path same => ⟨merged.id, Or.inl rfl, same.trans ready.path⟩
    · exact fun _ _ none => none
  · rename_i complete
    have live := allLive.mp (Decidable.not_not.mp complete)
    have distinct : ((store.replacedBy merged).map (·.id)).Nodup :=
      (List.filter_sublist.map _).nodup sound.distinct
    have ends (last : PageStore) (after : Volume) (held : last.Sound after entries ∧
        (store.takenIn merged).SameButHandles last) : Installed entries store merged last after :=
      ⟨held.1, held.2.ids.trans (takenIn_ids live), held.2.nextId, held.2.directory, held.2.limits⟩
    apply Keeping.Runs.modifyThen
    apply (discards_runs volumeSound (sound.takenIn ready) (store.replacedBy merged) distinct
      fun _ => sound.replaced_gone ready live).mono
    · exact fun _ last after _ held => ends last after held
    · exact fun last after _ held => ends last after held

/-- Which pages hold the entries changes with an installation, but not the entries held. -/
theorem contents_installed {merged : MergedPage} (ready : merged.Ready before entries store)
    (distinct : (store.contents entries).Nodup) :
    ((store.idsAfter merged).flatMap entries).Perm (store.contents entries) := by
  rw [idsAfter]
  split
  · rename_i live
    have parts := (List.filter_append_perm merged.replaced.contains store.ids).flatMap_right entries
    rw [List.flatMap_append] at parts
    have oldDistinct := (parts.nodup_iff.mpr distinct).sublist (List.sublist_append_left _ _)
    have same : (entries merged.id).Perm
        ((store.ids.filter merged.replaced.contains).flatMap entries) := by
      apply (List.perm_ext_iff_of_nodup ready.ascending.nodup oldDistinct).mpr
      intro fp
      rw [ready.exactly fp, List.mem_flatMap]
      apply exists_congr
      intro id
      rw [List.mem_filter, List.contains_iff_mem]
      exact and_congr_left fun _ => ⟨fun mem => ⟨live id mem, mem⟩, And.right⟩
    rw [List.flatMap_append, List.flatMap_singleton]
    exact ((List.perm_append_comm).trans (same.append_right _)).trans parts
  · exact List.Perm.refl _

/-- Whether or not the pages share entries, an installation neither brings nor loses one. -/
theorem mem_installed {merged : MergedPage} (ready : merged.Ready before entries store)
    (fp : Fingerprint) :
    fp ∈ (store.idsAfter merged).flatMap entries ↔ fp ∈ store.contents entries := by
  rw [idsAfter]
  split
  · rename_i live
    rw [List.flatMap_append, List.flatMap_singleton, List.mem_append, ready.exactly, contents,
      List.mem_flatMap, List.mem_flatMap]
    constructor
    · rintro (⟨id, kept, isEntry⟩ | ⟨id, isReplaced, isEntry⟩)
      · exact ⟨id, (List.mem_filter.mp kept).1, isEntry⟩
      · exact ⟨id, live id isReplaced, isEntry⟩
    · rintro ⟨id, mem, isEntry⟩
      by_cases isReplaced : id ∈ merged.replaced
      · exact Or.inr ⟨id, isReplaced, isEntry⟩
      · exact Or.inl ⟨id, List.mem_filter.mpr ⟨mem, by simpa using isReplaced⟩, isEntry⟩
  · exact Iff.rfl

/-- One page stands in the place of all the pages that were replaced. -/
theorem length_idsAfter (sound : store.Sound before entries) {merged : MergedPage}
    (distinct : merged.replaced.Nodup) (live : ∀ id ∈ merged.replaced, id ∈ store.ids) :
    (store.idsAfter merged).length + merged.replaced.length = store.ids.length + 1 := by
  have replaced : (store.ids.filter merged.replaced.contains).length = merged.replaced.length := by
    rw [← (all_live_iff sound distinct).mpr live, ids, List.filter_map, List.length_map]
    rfl
  have parts := (List.filter_append_perm merged.replaced.contains store.ids).length_eq
  rw [List.length_append] at parts
  rw [idsAfter, if_pos live, List.length_append, List.length_singleton]
  omega

end PageStore

end FingerprintSet
