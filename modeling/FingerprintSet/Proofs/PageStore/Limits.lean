import FingerprintSet.Proofs.PageStore.Numbers

/-!
# The limits of a store

What the pages of a store take up in memory.  Indexes are thinned until they fit their budget, or
until every page is down to one entry, so there are never more entries than the larger of the
budget and the number of pages.  Open files never number more than the store may have.  None of this
depends on the volume.
-/

namespace FingerprintSet

open Storage

/-! ## Thinning to a budget -/

namespace Page

theorem length_everyOther {α : Type} (items : List α) :
    (everyOther items).length = (items.length + 1) / 2 := by
  fun_induction everyOther items with
  | case1 => simp
  | case2 => simp
  | case3 a b rest ih =>
      simp only [List.length_cons, ih]
      omega

theorem size_thin (page : Page) : page.thin.index.size = (page.index.size + 1) / 2 := by
  rw [thin, List.size_toArray, length_everyOther, Array.length_toList]

theorem length_thinLast (size : Nat) (pages : List Page) :
    (thinLast size pages).length = pages.length := by
  simpa using congrArg List.length (thinLast_face size pages)

theorem length_withinBudget (budget : Nat) (pages : List Page) :
    (withinBudget budget pages).length = pages.length := by
  simpa using congrArg List.length (withinBudget_face budget pages)

theorem indexEntries_cons (page : Page) (rest : List Page) :
    indexEntries (page :: rest) = page.index.size + indexEntries rest :=
  total_cons _ page rest

/-- Thinning an index takes every other entry away. -/
theorem indexEntries_thinLast {size : Nat} {pages : List Page}
    (there : ∃ page ∈ pages, page.index.size = size) :
    indexEntries (thinLast size pages) + (size - (size + 1) / 2) = indexEntries pages := by
  fun_induction thinLast size pages with
  | case1 => simp at there
  | case2 page rest later ih =>
      have remains : ∃ page ∈ rest, page.index.size = size := by simpa using later
      rw [indexEntries_cons, indexEntries_cons, Nat.add_assoc, ih remains]
  | case3 page rest _ here =>
      rw [indexEntries_cons, indexEntries_cons, size_thin]
      omega
  | case4 page rest none different =>
      obtain ⟨other, mem, same⟩ := there
      rcases List.mem_cons.mp mem with rfl | later
      · exact absurd same different
      · exact absurd (List.any_eq_true.mpr ⟨other, later, decide_eq_true same⟩) none

theorem le_largestIndex {page : Page} {pages : List Page} (mem : page ∈ pages) :
    page.index.size ≤ largestIndex pages := by
  induction pages with
  | nil => exact absurd mem List.not_mem_nil
  | cons first rest ih =>
      have unfolded : largestIndex (first :: rest) = max first.index.size (largestIndex rest) := rfl
      rw [unfolded]
      rcases List.mem_cons.mp mem with rfl | later
      · exact Nat.le_max_left _ _
      · exact Nat.le_trans (ih later) (Nat.le_max_right _ _)

theorem exists_largestIndex {pages : List Page} (some : 0 < largestIndex pages) :
    ∃ page ∈ pages, page.index.size = largestIndex pages := by
  induction pages with
  | nil => exact absurd some (Nat.lt_irrefl _)
  | cons first rest ih =>
      have unfolded : largestIndex (first :: rest) = max first.index.size (largestIndex rest) := rfl
      rw [unfolded] at some ⊢
      rcases Nat.le_total (largestIndex rest) first.index.size with first_le | rest_le
      · exact ⟨first, List.mem_cons_self, (Nat.max_eq_left first_le).symm⟩
      · rw [Nat.max_eq_right rest_le] at some ⊢
        obtain ⟨page, mem, same⟩ := ih some
        exact ⟨page, List.mem_cons_of_mem _ mem, same⟩

/-- Indexes of one entry each have as many entries as there are pages. -/
theorem indexEntries_le_length {pages : List Page} (single : largestIndex pages ≤ 1) :
    indexEntries pages ≤ pages.length := by
  have each (page : Page) (mem : page ∈ pages) : page.index.size ≤ 1 :=
    Nat.le_trans (le_largestIndex mem) single
  clear single
  induction pages with
  | nil => exact Nat.le_refl _
  | cons first rest ih =>
      rw [List.forall_mem_cons] at each
      rw [indexEntries_cons, List.length_cons, Nat.add_comm]
      exact Nat.add_le_add (ih each.2) each.1

/-- Indexes are thinned until they fit the budget, or have one entry each. -/
theorem indexEntries_withinBudget_le (budget : Nat) (pages : List Page) :
    indexEntries (withinBudget budget pages) ≤ max budget pages.length := by
  rw [withinBudget]
  suffices rounds : ∀ bound, indexEntries pages ≤ bound →
      indexEntries (fitIndexes budget bound pages) ≤ max budget pages.length from
    rounds _ (Nat.le_refl _)
  intro bound enough
  fun_induction fitIndexes budget bound pages with
  | case1 => exact Nat.le_trans enough (Nat.zero_le _)
  | case2 bound pages fits => exact Nat.le_trans fits (Nat.le_max_left _ _)
  | case3 bound pages _ single =>
      exact Nat.le_trans (indexEntries_le_length single) (Nat.le_max_right _ _)
  | case4 bound pages _ several ih =>
      have big : 1 < largestIndex pages := Nat.lt_of_not_le several
      have smaller := indexEntries_thinLast (exists_largestIndex (Nat.lt_of_succ_lt big))
      rw [length_thinLast] at ih
      exact ih (by omega)

end Page

namespace PageStore

/-- A store with at most `most` pages that keeps to its limits.  A page always keeps one index entry,
so the pages may have as many entries as there are of them. -/
structure Limited (limits : StoreLimits) (most : Nat) (store : PageStore) : Prop where
  same : store.limits = limits
  capacity : store.handles.capacity = limits.openHandles
  opened : store.openHandles ≤ limits.openHandles
  indexed : store.indexEntries ≤ max limits.indexEntries store.pageCount
  few : store.pageCount ≤ most

variable {store last : PageStore} {limits : StoreLimits} {most more : Nat}

theorem Limited.mono (limited : store.Limited limits most) (below : most ≤ more) :
    store.Limited limits more :=
  { limited with few := Nat.le_trans limited.few below }

/-- The limits say nothing of page numbers. -/
theorem Limited.numberUsed (limited : store.Limited limits most) :
    store.numberUsed.Limited limits most :=
  { limited with }

theorem Limited.rehandled (limited : store.Limited limits most) (rehandled : store.Rehandled last) :
    last.Limited limits most where
  same := rehandled.same.limits.trans limited.same
  capacity := rehandled.capacity.trans limited.capacity
  opened := by
    have few := rehandled.few
    rw [limited.capacity, Nat.max_eq_right limited.opened] at few
    exact few
  indexed := by
    rw [indexEntries, pageCount, rehandled.same.pages]
    exact limited.indexed
  few := by
    rw [pageCount, rehandled.same.pages]
    exact limited.few

theorem Limited.add (limited : store.Limited limits most) (page : Page) :
    (store.add page).Limited limits (most + 1) := by
  have length : (store.add page).pageCount = store.pageCount + 1 := by
    rw [pageCount, PageStore.add, Page.length_withinBudget, List.length_append]
    rfl
  refine ⟨limited.same, limited.capacity, limited.opened, ?_, ?_⟩
  · rw [length, ← limited.same]
    have fits := Page.indexEntries_withinBudget_le store.limits.indexEntries (store.pages ++ [page])
    rw [List.length_append] at fits
    exact fits
  · rw [length]
    exact Nat.succ_le_succ limited.few

theorem Limited.appending (limited : store.Limited limits most) {fps : List Fingerprint}
    {result : Except Error Unit} (appending : store.Appending fps result last) :
    last.Limited limits (most + 1) := by
  have still : store.Limited limits (most + 1) := limited.mono (Nat.le_succ most)
  cases appending with
  | nothing => exact still
  | added => exact limited.numberUsed.add _
  | refused => exact still.numberUsed

/-! ## Merges -/

/-- What preparing a merge leaves: a merge takes in two pages at least. -/
def Several (result : Except Error (Option CompactionJob)) : Prop :=
  ∀ job, result = .ok (some job) → 2 ≤ job.replaced.length

theorem Limited.preparing (limited : store.Limited limits most) {replaced : List PageId}
    {result : Except Error (Option CompactionJob)} (preparing : store.Preparing replaced result last) :
    last.Limited limits most ∧ Several result := by
  cases preparing with
  | few => exact ⟨limited, by simp [Several]⟩
  | prepared several pages =>
      refine ⟨limited.numberUsed, ?_⟩
      rintro _ ⟨⟩
      exact pages ▸ several
  | refused => exact ⟨limited, by simp [Several]⟩

/-- Where there are two pages, at least two are chosen. -/
theorem two_le_length_tieredChoice {pages : List Page} (several : 2 ≤ pages.length) :
    2 ≤ (tieredChoice pages).length := by
  rw [tieredChoice]
  split
  · rename_i tier smallest
    have mem := List.min?_mem smallest
    rw [List.length_map]
    simpa using (List.mem_filter.mp mem).2
  · rw [List.length_map, List.length_take, List.length_mergeSort]
    omega

/-- Where there are too many pages, a merge is prepared unless a step is refused. -/
theorem Limited.tiering (limited : store.Limited limits most) {maxPages : Nat} (two : 2 ≤ maxPages)
    {result : Except Error (Option CompactionJob)} (tiering : store.Tiering maxPages result last) :
    last.Limited limits most ∧ Several result ∧
      (result = .ok none → last.pageCount ≤ maxPages) := by
  cases tiering with
  | fits fits => exact ⟨limited, by simp [Several], fun _ => fits⟩
  | chosen tooMany preparing =>
      obtain ⟨still, several⟩ := limited.preparing preparing
      refine ⟨still, several, ?_⟩
      rintro rfl
      have chosen := @two_le_length_tieredChoice store.pages (Nat.le_trans two (Nat.le_of_lt tooMany))
      exact absurd preparing.few_of_none (Nat.not_lt.mpr chosen)

/-- A merged page takes the place of at least two, so there is one page less at least. -/
theorem Limited.takenIn (limited : store.Limited limits most) {merged : MergedPage}
    (all : (store.replacedBy merged).length = merged.replaced.length)
    (several : 2 ≤ merged.replaced.length) :
    (store.takenIn merged).Limited limits most ∧ (store.takenIn merged).pageCount < most := by
  have length : (store.takenIn merged).pageCount = (store.keptBy merged).length + 1 := by
    rw [pageCount, PageStore.takenIn, swapIn, Page.length_withinBudget, List.length_append]
    rfl
  have parts : store.pageCount =
      (store.replacedBy merged).length + (store.keptBy merged).length :=
    List.length_eq_length_filter_add fun page : Page => merged.replaced.contains page.id
  have before := limited.few
  refine ⟨⟨limited.same, limited.capacity, limited.opened, ?_, by omega⟩, by omega⟩
  rw [length, ← limited.same]
  have fits := Page.indexEntries_withinBudget_le store.limits.indexEntries
    (store.keptBy merged ++ [Page.ofWritten merged.id store.limits.stride merged.written])
  rw [List.length_append] at fits
  exact fits

theorem Limited.installing (limited : store.Limited limits most) (numbered : store.Numbered)
    {merged : MergedPage} (replaceable : store.Replaceable merged.replaced merged.id)
    (several : 2 ≤ merged.replaced.length) (installing : store.Installing merged last) :
    last.Limited limits most ∧ last.pageCount < most := by
  have all := (all_found_iff numbered.distinct replaceable.distinct).mpr replaceable.live
  obtain ⟨taken, fewer⟩ := limited.takenIn all several
  have rehandled := installing.rehandled numbered replaceable
  refine ⟨taken.rehandled rehandled, ?_⟩
  rw [pageCount, rehandled.same.pages]
  exact fewer

end PageStore

end FingerprintSet
