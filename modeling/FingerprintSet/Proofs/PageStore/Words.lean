import FingerprintSet.Proofs.PageStore.Limits
import FingerprintSet.Proofs.Range
import FingerprintSet.Proofs.Storage.Guarded
import FingerprintSet.Proofs.Total

/-!
# Page stores in words and slices

A store in 64-bit words, step by step as a machine takes them.  What keeps the steps within the words
is that a page is sampled at the multiples of its stride: a sample stands for a place in the page, so a
block begins within the page, and an index that can be thinned belongs to a page longer than its
stride.
-/

namespace FingerprintSet

open Storage Volume SortedFile Wordwise

/-- Pages with fewer entries than this have files whose positions are words. -/
def entryLimit : Nat := Nat.pow 2 60

/-! ## Pages -/

namespace Page

namespace Wordwise

/-- `Page.locate` in words. -/
def locate (page : Page) (fp : Fingerprint) : Option Whereabouts :=
  if page.count = 0 ∨ fp < page.least ∨ page.greatest < fp ∨ page.index.isEmpty then
    some .absent
  else do
    let slot := floorSlot page.index fp 0 page.index.size
    let entry ← page.index[slot]?
    if entry = fp then
      return .present
    else if fp < entry then
      return .absent
    else
      let start ← times slot page.stride
      return .block start (min (← minus page.count start) page.stride)

/-- `Page.entryPosition` in words. -/
def entryPosition (position : Nat) : Option Nat := do
  plus headerLength (← times position entryLength)

/-- `Page.readBlock` in words. -/
def readBlock (handle : Handle) (start length : Nat) : Option (Access Bytes) := do
  let size ← times length entryLength
  let position ← entryPosition start
  return do
    let bytes ← readAt handle position size
    if bytes.size < size then throw .endOfFile else pure bytes

/-- The entry of a block at a position. -/
def entryAt (block : Bytes) (position : Nat) : Option Fingerprint := do
  let start ← times position entryLength
  let _ ← slice block start (← plus start entryLength)
  return Word.ofBytesAt block start

/-- `Page.searchBetween` in words.  The middle is between the two bounds. -/
def searchBetween (block : Bytes) (fp : Fingerprint) (low high : Nat) : Option Bool :=
  if low < high then
    let middle := low + (high - low) / 2
    do
      let entry ← entryAt block middle
      if entry = fp then
        return true
      else if entry < fp then
        searchBetween block fp (middle + 1) high
      else
        searchBetween block fp low middle
  else
    some false
  termination_by high - low
  decreasing_by all_goals omega

/-- `Page.searchBlock` in words. -/
def searchBlock (block : Bytes) (fp : Fingerprint) : Option Bool :=
  searchBetween block fp 0 (block.size / entryLength)

/-- `Page.thin` in words. -/
def thin (page : Page) : Option Page := do
  return { page with
    index := (everyOther page.index.toList).toArray
    stride := ← times page.stride 2 }

/-- `Page.indexEntries` in words. -/
def indexEntries (pages : List Page) : Option Nat :=
  sum (·.index.size) pages

/-- `Page.thinLast` in words. -/
def thinLast (size : Nat) : List Page → Option (List Page)
  | [] => some []
  | page :: rest =>
      if rest.any (·.index.size = size) then do
        return page :: (← thinLast size rest)
      else if page.index.size = size then do
        return (← thin page) :: rest
      else
        some (page :: rest)

/-- `Page.fitIndexes` in words.  The index entries are not counted anew after each thinning. -/
def fitIndexes (budget : Nat) : Nat → Nat → List Page → Option (List Page)
  | 0, _, pages => some pages
  | bound + 1, counted, pages =>
      if counted ≤ budget then
        some pages
      else if largestIndex pages ≤ 1 then
        some pages
      else do
        let size := largestIndex pages
        let thinned ← thinLast size pages
        fitIndexes budget bound (← minus counted (← minus size ((size + 1) / 2))) thinned

/-- `Page.withinBudget` in words. -/
def withinBudget (budget : Nat) (pages : List Page) : Option (List Page) := do
  let counted ← indexEntries pages
  fitIndexes budget counted counted pages

end Wordwise

/-- A page with room for its positions, sampled at the multiples of its stride. -/
structure Roomy (page : Page) : Prop where
  covers : ∀ place, place < page.index.size ↔ place * page.stride < page.count
  few : page.count < entryLimit

variable {page : Page} {pages : List Page} {fps : List Fingerprint}

theorem Describes.roomy (describes : page.Describes fps) (few : fps.length < entryLimit) :
    page.Roomy where
  covers place := by
    rw [describes.count]
    exact describes.sampled.covers place
  few := describes.count ▸ few

/-- Whatever is looked for, it is looked for between the bounds. -/
theorem floorSlot_lt (index : Array Fingerprint) (fp : Fingerprint) (base : Nat) {size : Nat}
    (some : 0 < size) : floorSlot index fp base size < base + size := by
  fun_induction floorSlot index fp base size with
  | case1 base size single => omega
  | case2 base size several half middle ih =>
      have halfEq : half = size / 2 := rfl
      have middleEq : middle = base + half := rfl
      have found := ih (by omega)
      split at found <;> rename_i exceeds
      · rw [if_pos exceeds]
        omega
      · rw [if_neg exceeds]
        omega

namespace Wordwise

theorem locate_eq (roomy : page.Roomy) (fp : Fingerprint) :
    locate page fp = some (page.locate fp) := by
  rw [locate, Page.locate]
  split
  · rfl
  · rename_i inside
    simp only [not_or] at inside
    have sampled : 0 < page.index.size :=
      Nat.pos_of_ne_zero fun none => inside.2.2.2 (Array.isEmpty_iff_size_eq_zero.mpr none)
    have below := floorSlot_lt page.index fp 0 sampled
    generalize floorSlot page.index fp 0 page.index.size = slot at below ⊢
    rw [Nat.zero_add] at below
    have start := (roomy.covers slot).mp below
    have word : slot * page.stride < UInt64.size :=
      Nat.lt_trans (Nat.lt_trans start roomy.few) (by decide)
    have entry : page.index[slot]? = some (page.index.getD slot 0) := by
      rw [Array.getD_eq_getD_getElem?, Array.getElem?_eq_getElem below]
      rfl
    simp only [Option.bind_eq_bind, Option.bind_some, entry, times_eq word,
      minus_eq (Nat.le_of_lt start)]
    generalize page.index.getD slot 0 = entry
    split
    · rfl
    · split <;> rfl

/-- A block that a page tells of is within the page. -/
theorem block_within (roomy : page.Roomy) {fp : Fingerprint} {start length : Nat}
    (told : page.locate fp = .block start length) : start + length ≤ page.count := by
  rw [Page.locate] at told
  split at told
  · contradiction
  · rename_i inside
    simp only [not_or] at inside
    have sampled : 0 < page.index.size :=
      Nat.pos_of_ne_zero fun none => inside.2.2.2 (Array.isEmpty_iff_size_eq_zero.mpr none)
    have below := floorSlot_lt page.index fp 0 sampled
    generalize floorSlot page.index fp 0 page.index.size = slot at below told
    rw [Nat.zero_add] at below
    have begins := (roomy.covers slot).mp below
    dsimp only at told
    generalize page.index.getD slot 0 = entry at told
    split at told
    · contradiction
    · split at told
      · contradiction
      · obtain ⟨rfl, rfl⟩ := Whereabouts.block.inj told
        omega

theorem readBlock_eq {start length : Nat} (within : start + length < entryLimit) (handle : Handle) :
    readBlock handle start length = some (Page.readBlock handle start length) := by
  have limit : headerLength + entryLimit * entryLength < UInt64.size := by decide
  have size : length * entryLength ≤ entryLimit * entryLength :=
    Nat.mul_le_mul_right _ (by omega)
  have position : start * entryLength ≤ entryLimit * entryLength :=
    Nat.mul_le_mul_right _ (by omega)
  have whole : headerLength + start * entryLength < UInt64.size := by omega
  rw [readBlock, times_eq (by omega), entryPosition, times_eq (by omega)]
  simp only [Option.bind_eq_bind, Option.bind_some, plus_eq whole]
  rfl

theorem entryAt_eq {block : Bytes} {position : Nat} (small : block.size < UInt64.size)
    (inside : position < block.size / entryLength) :
    entryAt block position = some (Word.ofBytesAt block (position * entryLength)) := by
  have stop : position * entryLength + entryLength ≤ block.size := by
    rw [entryLength] at inside ⊢
    omega
  rw [entryAt, times_eq (by omega)]
  simp only [Option.bind_eq_bind, Option.bind_some]
  rw [plus_eq (Nat.lt_of_le_of_lt stop small)]
  simp only [Option.bind_some]
  rw [slice_eq (Nat.le_add_right _ _) stop]
  rfl

theorem searchBetween_eq {block : Bytes} (small : block.size < UInt64.size) (fp : Fingerprint)
    {low high : Nat} (inside : high ≤ block.size / entryLength) :
    searchBetween block fp low high = some (Page.searchBetween block fp low high) := by
  fun_induction Page.searchBetween block fp low high with
  | case1 low high some middle entry found =>
      have middleEq : middle = low + (high - low) / 2 := rfl
      rw [searchBetween, if_pos some]
      dsimp only
      rw [← middleEq, entryAt_eq small (by omega)]
      simp only [Option.bind_eq_bind, Option.bind_some]
      rw [if_pos found]
      rfl
  | case2 low high some middle entry different below ih =>
      have middleEq : middle = low + (high - low) / 2 := rfl
      rw [searchBetween, if_pos some]
      dsimp only
      rw [← middleEq, entryAt_eq small (by omega)]
      simp only [Option.bind_eq_bind, Option.bind_some]
      rw [if_neg different, if_pos below]
      exact ih inside
  | case3 low high some middle entry different notBelow ih =>
      have middleEq : middle = low + (high - low) / 2 := rfl
      rw [searchBetween, if_pos some]
      dsimp only
      rw [← middleEq, entryAt_eq small (by omega)]
      simp only [Option.bind_eq_bind, Option.bind_some]
      rw [if_neg different, if_neg notBelow]
      exact ih (by omega)
  | case4 low high empty =>
      rw [searchBetween, if_neg empty]

theorem searchBlock_eq {block : Bytes} (small : block.size < UInt64.size) (fp : Fingerprint) :
    searchBlock block fp = some (Page.searchBlock block fp) :=
  searchBetween_eq small fp (Nat.le_refl _)

/-! ### Thinning -/

/-- A page whose index can be thinned is longer than its stride. -/
theorem stride_lt (roomy : page.Roomy) (several : 1 < page.index.size) :
    page.stride * 2 < UInt64.size := by
  have second := (roomy.covers 1).mp several
  have few := roomy.few
  have limit : entryLimit * 2 < UInt64.size := by decide
  omega

theorem thin_eq (roomy : page.Roomy) (several : 1 < page.index.size) :
    thin page = some page.thin := by
  rw [thin, times_eq (stride_lt roomy several)]
  rfl

theorem thinLast_eq {size : Nat} (several : 1 < size) (roomy : ∀ page ∈ pages, page.Roomy) :
    thinLast size pages = some (Page.thinLast size pages) := by
  fun_induction Page.thinLast size pages with
  | case1 => rfl
  | case2 page rest later ih =>
      rw [List.forall_mem_cons] at roomy
      rw [thinLast, if_pos later, ih roomy.2]
      rfl
  | case3 page rest none here =>
      rw [List.forall_mem_cons] at roomy
      rw [thinLast, if_neg none, if_pos here, thin_eq roomy.1 (here ▸ several)]
      rfl
  | case4 page rest none different => rw [thinLast, if_neg none, if_neg different]

end Wordwise

theorem Roomy.thin (roomy : page.Roomy) : page.thin.Roomy where
  covers place := by
    rw [size_thin]
    have product : place * (page.stride * 2) = 2 * place * page.stride := by
      rw [Nat.mul_comm page.stride, ← Nat.mul_assoc, Nat.mul_comm place]
    show _ ↔ place * (page.stride * 2) < page.count
    rw [product, ← roomy.covers (2 * place)]
    omega
  few := roomy.few

theorem thinLast_roomy (size : Nat) (roomy : ∀ page ∈ pages, page.Roomy) :
    ∀ page ∈ thinLast size pages, page.Roomy := by
  fun_induction thinLast size pages with
  | case1 => exact roomy
  | case2 page rest _ ih =>
      rw [List.forall_mem_cons] at roomy ⊢
      exact ⟨roomy.1, ih roomy.2⟩
  | case3 page rest =>
      rw [List.forall_mem_cons] at roomy ⊢
      exact ⟨roomy.1.thin, roomy.2⟩
  | case4 => exact roomy

/-- An index has no more entries than its page. -/
theorem Roomy.size_le (roomy : page.Roomy) : page.index.size ≤ page.count := by
  cases size : page.index.size with
  | zero => exact Nat.zero_le _
  | succ last =>
      have inside := (roomy.covers last).mp (size ▸ Nat.lt_succ_self last)
      cases stride : page.stride with
      | zero =>
          -- A page that is sampled without end is no page.
          have beyond := (roomy.covers (last + 1)).mpr (by
            rw [stride] at inside ⊢
            exact inside)
          exact absurd (size ▸ beyond) (Nat.lt_irrefl _)
      | succ stride_ =>
          rw [stride] at inside
          exact Nat.lt_of_le_of_lt (Nat.le_mul_of_pos_right last (Nat.succ_pos _)) inside

theorem indexEntries_le (roomy : ∀ page ∈ pages, page.Roomy) :
    indexEntries pages ≤ total (·.count) pages :=
  total_mono fun page mem => (roomy page mem).size_le

namespace Wordwise

theorem fitIndexes_eq {budget bound : Nat} (roomy : ∀ page ∈ pages, page.Roomy) :
    fitIndexes budget bound (Page.indexEntries pages) pages =
      some (Page.fitIndexes budget bound pages) := by
  induction bound generalizing pages with
  | zero => rfl
  | succ bound ih =>
      rw [fitIndexes, Page.fitIndexes]
      split
      · rfl
      · split
        · rfl
        · rename_i several
          have big : 1 < largestIndex pages := Nat.lt_of_not_le several
          have fewer := indexEntries_thinLast (exists_largestIndex (Nat.lt_of_succ_lt big))
          have rest : Page.indexEntries pages -
              (largestIndex pages - (largestIndex pages + 1) / 2) =
                Page.indexEntries (Page.thinLast (largestIndex pages) pages) := by omega
          simp only [thinLast_eq big roomy, Option.bind_eq_bind, Option.bind_some]
          rw [minus_eq (by omega)]
          simp only [Option.bind_some]
          rw [minus_eq (by omega)]
          simp only [Option.bind_some]
          rw [rest]
          exact ih (thinLast_roomy _ roomy)

theorem withinBudget_eq {budget : Nat} (roomy : ∀ page ∈ pages, page.Roomy)
    (small : total (·.count) pages < UInt64.size) :
    withinBudget budget pages = some (Page.withinBudget budget pages) := by
  have fits := Nat.lt_of_le_of_lt (indexEntries_le roomy) small
  have counted : indexEntries pages = some (Page.indexEntries pages) := sum_eq fits
  rw [withinBudget, counted]
  exact fitIndexes_eq roomy

end Wordwise

end Page

/-! ## Stores -/

namespace PageStore

namespace Wordwise

/-- `PageStore.create` in words: room for one block is set aside once the directory is there. -/
def create (directory : Path) (limits : StoreLimits) : GuardedTask PageStore := do
  GuardedTask.plain ((Activity.creatingOverflow directory).run (makeDirectories directory))
  if !HandleCache.isRepresentable limits.openHandles then
    GuardedTask.plain (throw (.outOfRange .openPages))
  else
    let bytes ← GuardedTask.demand (times limits.stride entryLength)
    if maxBlockBytes < bytes then
      GuardedTask.plain (throw (.outOfRange .blockBytes))
    else
      pure
        { directory, limits
          pages := []
          handles := .empty limits.openHandles
          nextId := 0
          entries := 0
          compactions := 0 }

/-- `PageStore.add` in words. -/
def add (store : PageStore) (page : Page) : Option PageStore := do
  return { store with
    entries := ← plus store.entries page.count
    pages := ← Page.Wordwise.withinBudget store.limits.indexEntries (store.pages ++ [page]) }

/-- `PageStore.allocate` in words. -/
def allocate : Guarded PageStore PageId := do
  let id := (← get).nextId
  let next ← Guarded.demand (plus id 1)
  modify fun store => { store with nextId := next }
  pure id

/-- `PageStore.append` in words. -/
def append (fps : List Fingerprint) : Guarded PageStore Unit := do
  if fps.isEmpty then
    pure ()
  else
    let id ← allocate
    let store ← get
    let limits := store.limits
    let written ← Guarded.plain (liftM (m := Task)
      (writeList (store.pagePath id) .page limits.durable limits.stride fps))
    Guarded.update fun store => add store (Page.ofWritten id limits.stride written)

/-- `PageStore.probePage` in words. -/
def probePage (page : Page) (fp : Fingerprint) : Guarded PageStore Bool := do
  match ← Guarded.demand (Page.Wordwise.locate page fp) with
  | .absent => pure false
  | .present => pure true
  | .block start length =>
      let handle ← Guarded.plain (handleOf page)
      let read ← Guarded.demand (Page.Wordwise.readBlock handle start length)
      let block ← Guarded.plain (liftM ((Activity.probingPage page.path).run read))
      Guarded.demand (Page.Wordwise.searchBlock block fp)

/-- `PageStore.probePages` in words. -/
def probePages (fp : Fingerprint) : List Page → Guarded PageStore Bool
  | [] => pure false
  | page :: rest => do
      if ← probePage page fp then pure true else probePages fp rest

/-- `PageStore.probe` in words. -/
def probe (fp : Fingerprint) : Guarded PageStore Bool := do
  probePages fp (← get).pages.reverse

/-- `PageStore.jobFor` in words. -/
def jobFor (replaced : List PageId) : Guarded PageStore (Option CompactionJob) := do
  if replaced.length < 2 then
    pure none
  else
    let chosen := (← get).pages.filter fun page => replaced.contains page.id
    let readers ← Guarded.plain (liftM (openPages chosen))
    let targetId ← allocate
    let store ← get
    pure (some
      { replaced, readers, targetId
        target := store.pagePath targetId
        stride := store.limits.stride
        durable := store.limits.durable })

/-- `PageStore.compactionJob` in words. -/
def compactionJob : Guarded PageStore (Option CompactionJob) := do
  jobFor ((← get).pages.map (·.id))

/-- `PageStore.tieredCompactionJob` in words. -/
def tieredCompactionJob (maxPages : Nat) : Guarded PageStore (Option CompactionJob) := do
  let pages := (← get).pages
  if pages.length ≤ maxPages then
    pure none
  else
    jobFor (tieredChoice pages)

/-- `PageStore.swapIn` in words. -/
def swapIn (store : PageStore) (merged : MergedPage) (old kept : List Page) : Option PageStore := do
  let page := Page.ofWritten merged.id store.limits.stride merged.written
  let replaced ← sum (·.count) old
  return { store with
    entries := ← plus (← minus store.entries replaced) page.count
    compactions := ← plus store.compactions 1
    pages := ← Page.Wordwise.withinBudget store.limits.indexEntries (kept ++ [page]) }

/-- `PageStore.install` in words. -/
def install (merged : MergedPage) : Guarded PageStore Unit := do
  let (old, kept) := (← get).pages.partition fun page => merged.replaced.contains page.id
  if old.length ≠ merged.replaced.length then
    Guarded.plain (liftM (removeIfPresent merged.written.path))
  else do
    Guarded.update fun store => swapIn store merged old kept
    Guarded.plain (old.forM discard)

end Wordwise

variable {store : PageStore} {before : Volume} {entries : PageId → List Fingerprint}

/-- The pages of a sound store have room if there are few entries in all. -/
theorem Sound.pages_roomy (sound : store.Sound before entries)
    (few : (store.contents entries).length < entryLimit) : ∀ page ∈ store.pages, page.Roomy := by
  intro page mem
  have part : (entries page.id).Sublist (store.contents entries) :=
    List.sublist_flatten_of_mem (List.mem_map_of_mem (List.mem_map_of_mem mem))
  exact (sound.describes page mem).roomy (Nat.lt_of_le_of_lt part.length_le few)

theorem Sound.total_count (sound : store.Sound before entries) :
    total (·.count) store.pages = (store.contents entries).length :=
  PageStore.total_count sound.describes

namespace Wordwise

/-- A store is created with a stride whose blocks have a length in bytes. -/
theorem create_agrees {limits : StoreLimits} (short : limits.stride * entryLength < UInt64.size)
    (directory : Path) (before : Volume) :
    (create directory limits).Agrees (PageStore.create directory limits) before := by
  apply (GuardedTask.Agrees.plain _ before).bind
  intro _ made _
  split
  · exact GuardedTask.Agrees.plain _ made
  · rw [times_eq short]
    show GuardedTask.Agrees (if maxBlockBytes < limits.stride * entryLength then _ else _) _ made
    split
    · exact GuardedTask.Agrees.plain _ made
    · exact GuardedTask.Agrees.pure _ made

theorem allocate_agrees (numbers : store.nextId + 1 < UInt64.size) (before : Volume) :
    allocate.Agrees PageStore.allocate store before := by
  have unfolded : allocate store before =
      (do
        let next ← Guarded.demand (plus store.nextId 1)
        modify fun store => { store with nextId := next }
        pure store.nextId : Guarded PageStore PageId) store before := rfl
  rw [Guarded.Agrees, unfolded, plus_eq numbers]
  rfl

theorem add_eq {page : Page} (roomy : ∀ old ∈ store.pages ++ [page], old.Roomy)
    (counted : store.entries = total (·.count) store.pages)
    (few : total (·.count) (store.pages ++ [page]) < UInt64.size) :
    add store page = some (store.add page) := by
  have sum : store.entries + page.count < UInt64.size := by
    rw [total_append] at few
    rw [counted]
    exact few
  rw [add, plus_eq sum, Page.Wordwise.withinBudget_eq roomy few]
  rfl

/-- A page is appended as long as the store stays small with it. -/
theorem append_agrees (volumeSound : before.Sound) (sound : store.Sound before entries)
    {fps : List Fingerprint} (ascending : Ascending fps) (room : store.nextId < numberLimit)
    (few : (store.contents entries).length + fps.length < entryLimit)
    (numbers : store.nextId + 1 < UInt64.size) :
    (append fps).Agrees (PageStore.append fps) store before := by
  rw [append, PageStore.append]
  split
  · exact Guarded.Agrees.pure _ _ _
  apply (allocate_agrees numbers before).bind
  rintro id last after ended
  obtain ⟨⟨⟨⟩, rfl⟩, rfl⟩ := (Prod.mk.inj ended).imp_left Prod.mk.inj
  apply Guarded.Agrees.getThen
  have writes := writeList_runs volumeSound sound.isDir (pageName_fits room)
    (sound.free store.nextId (Nat.le_refl _)) .page store.limits.durable store.limits.stride fps
  apply Guarded.Agrees.plainMeets writes
  rintro written after ⟨-, -, -, wrote⟩
  have describes : (Page.ofWritten store.nextId store.limits.stride written).Describes fps :=
    Page.ofWritten_describes ascending sound.stride wrote
  have added := describes.count
  apply Guarded.Agrees.update
  apply add_eq
  · rw [List.forall_mem_append, List.forall_mem_singleton]
    exact ⟨sound.pages_roomy (by omega), describes.roomy (by omega)⟩
  · exact sound.counted.trans sound.total_count.symm
  · have limit : entryLimit < UInt64.size := by decide
    rw [total_append, total_cons, total_nil, describes.count]
    have whole := sound.total_count
    show total (·.count) store.pages + (fps.length + 0) < UInt64.size
    omega

/-! ### Probing -/

/-- A block that was read is as long as was asked for at most. -/
theorem readBlock_size (handle : Handle) (start length : Nat) (before : Volume) :
    Meets (Page.readBlock handle start length) before
      (fun block _ => block.size ≤ length * entryLength) fun _ _ => True := by
  have reads : Meets (readAt handle (Page.entryPosition start) (length * entryLength)) before
      (fun bytes _ => bytes.size ≤ length * entryLength) fun _ _ => True := by
    rw [readAt, Meets, attempt_apply]
    cases before.faults before.clock with
    | some errno => trivial
    | none =>
        cases handle with
        | directory => trivial
        | file id =>
            dsimp only
            rw [Array.size_extract]
            omega
  apply Meets.bind reads
  intro bytes after short
  split
  · exact Meets.of_error rfl trivial
  · exact Meets.of_ok rfl short

theorem probePage_agrees {page : Page} (roomy : page.Roomy) (fp : Fingerprint) (store : PageStore)
    (before : Volume) : (probePage page fp).Agrees (PageStore.probePage page fp) store before := by
  rw [probePage, PageStore.probePage]
  apply Guarded.Agrees.demandThen (Page.Wordwise.locate_eq roomy fp)
  cases located : page.locate fp with
  | absent => exact Guarded.Agrees.pure _ _ _
  | present => exact Guarded.Agrees.pure _ _ _
  | block start length =>
      have limit : entryLimit * entryLength < UInt64.size := by decide
      have within : start + length < entryLimit :=
        Nat.lt_of_le_of_lt (Page.Wordwise.block_within roomy located) roomy.few
      apply (Guarded.Agrees.plain _ _ _).bind
      intro handle last after _
      apply Guarded.Agrees.demandThen (Page.Wordwise.readBlock_eq within handle)
      have reads : Meets ((Activity.probingPage page.path).run (Page.readBlock handle start length))
          after (fun block _ => block.size ≤ length * entryLength) fun _ _ => True :=
        Meets.adapt (readBlock_size handle start length after)
      apply Guarded.Agrees.plainMeets reads
      intro block read short
      have fits : length * entryLength ≤ entryLimit * entryLength :=
        Nat.mul_le_mul_right _ (by omega)
      exact Guarded.Agrees.demand (Page.Wordwise.searchBlock_eq (by omega) fp) _ _

theorem probe_agrees (roomy : ∀ page ∈ store.pages, page.Roomy) (fp : Fingerprint)
    (before : Volume) : (probe fp).Agrees (PageStore.probe fp) store before := by
  apply Guarded.Agrees.getThen
  have each : ∀ page ∈ store.pages.reverse, page.Roomy := by simpa using roomy
  generalize store.pages.reverse = pages at each
  clear roomy
  induction pages generalizing store before with
  | nil => exact Guarded.Agrees.pure _ _ _
  | cons page pages ih =>
      rw [List.forall_mem_cons] at each
      rw [probePages, PageStore.probePages]
      apply (probePage_agrees each.1 fp store before).bind
      intro found last after _
      cases found with
      | true => exact Guarded.Agrees.pure _ _ _
      | false => exact ih _ each.2

/-! ### Merges -/

theorem jobFor_agrees (numbers : store.nextId + 1 < UInt64.size) (replaced : List PageId)
    (before : Volume) : (jobFor replaced).Agrees (PageStore.jobFor replaced) store before := by
  rw [jobFor, PageStore.jobFor]
  split
  · exact Guarded.Agrees.pure _ _ _
  · apply Guarded.Agrees.getThen
    apply Guarded.Agrees.plainThen
    intro readers after _
    apply (allocate_agrees numbers after).bind
    exact fun _ _ _ _ => Guarded.Agrees.pure _ _ _

theorem compactionJob_agrees (numbers : store.nextId + 1 < UInt64.size) (before : Volume) :
    compactionJob.Agrees PageStore.compactionJob store before :=
  Guarded.Agrees.getThen (jobFor_agrees numbers _ before)

theorem tieredCompactionJob_agrees (numbers : store.nextId + 1 < UInt64.size) (maxPages : Nat)
    (before : Volume) :
    (tieredCompactionJob maxPages).Agrees (PageStore.tieredCompactionJob maxPages) store before := by
  apply Guarded.Agrees.getThen
  dsimp only
  split
  · exact Guarded.Agrees.pure _ _ _
  · exact jobFor_agrees numbers _ before

/-- Where the replaced pages are there, the merged page takes up what they took up. -/
theorem swapIn_eq (sound : store.Sound before entries) {merged : MergedPage}
    (ready : merged.Ready before entries store) (live : ∀ id ∈ merged.replaced, id ∈ store.ids)
    (distinct : (store.contents entries).Nodup)
    (few : (store.contents entries).length < entryLimit)
    (merges : store.compactions + 1 < UInt64.size) :
    swapIn store merged (store.replacedBy merged) (store.keptBy merged) =
      some (store.takenIn merged) := by
  have limit : entryLimit < UInt64.size := by decide
  have describes : (Page.ofWritten merged.id store.limits.stride merged.written).Describes
      (entries merged.id) :=
    Page.ofWritten_describes ready.ascending sound.stride ready.describes
  have parts : total (·.count) (store.replacedBy merged) + total (·.count) (store.keptBy merged) =
      total (·.count) store.pages :=
    total_partition (·.count) (fun page => merged.replaced.contains page.id) store.pages
  rw [sound.total_count] at parts
  have counted := takenIn_counted sound ready
  have same := (contents_installed ready distinct).length_eq
  rw [idsAfter, if_pos live, ← keptBy_ids] at same
  rw [same] at counted
  have part : (entries merged.id).length ≤
      (((store.keptBy merged).map (·.id) ++ [merged.id]).flatMap entries).length := by
    rw [List.flatMap_append, List.flatMap_singleton, List.length_append]
    exact Nat.le_add_left _ _
  have roomy : ∀ page ∈ store.keptBy merged ++
      [Page.ofWritten merged.id store.limits.stride merged.written], page.Roomy := by
    rw [List.forall_mem_append, List.forall_mem_singleton]
    exact ⟨fun page mem => sound.pages_roomy few page (mem_keptBy mem), describes.roomy (by omega)⟩
  have entriesEq := sound.counted
  rw [swapIn, sum_eq (by omega)]
  simp only [Option.bind_eq_bind, Option.bind_some]
  rw [minus_eq (by omega)]
  simp only [Option.bind_some]
  rw [plus_eq (by exact Nat.lt_trans (Nat.lt_of_le_of_lt (Nat.le_of_eq counted) few) limit),
    plus_eq merges]
  simp only [Option.bind_some]
  rw [Page.Wordwise.withinBudget_eq roomy]
  · rfl
  · rw [total_append, total_cons, total_nil]
    show total (·.count) (store.keptBy merged) + (merged.written.count + 0) < UInt64.size
    omega

theorem install_agrees (sound : store.Sound before entries) {merged : MergedPage}
    (ready : merged.Ready before entries store) (distinct : (store.contents entries).Nodup)
    (few : (store.contents entries).length < entryLimit)
    (merges : store.compactions + 1 < UInt64.size) :
    (install merged).Agrees (PageStore.install merged) store before := by
  apply Guarded.Agrees.getThen
  rw [List.partition_eq_filter_filter]
  dsimp only
  split
  · exact Guarded.Agrees.plain _ _ _
  · rename_i found
    have live := (all_live_iff sound ready.distinct).mp (not_not.mp found)
    apply Guarded.Agrees.updateThen
    · exact swapIn_eq sound ready live distinct few merges
    · exact Guarded.Agrees.plain _ _ _

end Wordwise

end PageStore

end FingerprintSet
