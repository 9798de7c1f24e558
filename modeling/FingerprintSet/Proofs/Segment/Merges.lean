import FingerprintSet.Proofs.Segment.Limits

/-!
# The merges that operations trigger

A put writes one page at most and then merges two pages at least into one, or none.  Merging all
pages leaves one, or none where there was none.  All this is a matter of page numbers: it holds on
any volume, as long as the operation is answered.
-/

namespace FingerprintSet

open Storage

namespace PageStore

variable {store last : PageStore}

/-- What becomes of the pages while none is merged: one more may come. -/
def Grows (store last : PageStore) (added : List PageId) : Prop :=
  added.length ≤ 1 ∧ last.ids = store.ids ++ added ∧ last.compactions = store.compactions

/-- Some pages, two at least, have given place to one. -/
structure Swaps (store last : PageStore) (replaced : List PageId) (target : PageId) : Prop where
  several : 2 ≤ replaced.length
  distinct : replaced.Nodup
  live : ∀ id ∈ replaced, id ∈ store.ids
  fresh : target ∉ store.ids
  ids : last.ids = (store.ids.filter fun id => !replaced.contains id) ++ [target]
  counted : last.compactions = store.compactions + 1

/-- What an answered put does to the pages: one comes at most, and then none is merged, or two at least
give place to one. -/
def Takes (store last : PageStore) : Prop :=
  ∃ added, store.Grows last added ∨ ∃ middle replaced target,
    store.Grows middle added ∧ middle.Swaps last replaced target

theorem pageCount_eq (store : PageStore) : store.pageCount = store.ids.length :=
  (List.length_map _).symm

theorem Grows.refl (store : PageStore) : store.Grows store [] :=
  ⟨Nat.zero_le 1, (List.append_nil _).symm, rfl⟩

theorem Grows.of_same {middle : PageStore} {added : List PageId} (grows : store.Grows middle added)
    (ids : last.ids = middle.ids) (compactions : last.compactions = middle.compactions) :
    store.Grows last added :=
  ⟨grows.1, ids.trans grows.2.1, compactions.trans grows.2.2⟩

/-- For the pages that were replaced there is one. -/
theorem Swaps.pageCount {replaced : List PageId} {target : PageId}
    (swaps : store.Swaps last replaced target) (unique : store.ids.Nodup) :
    last.pageCount + replaced.length = store.pageCount + 1 := by
  have found : (store.ids.filter fun id => replaced.contains id).length = replaced.length := by
    rw [← (all_found_iff unique swaps.distinct).mpr swaps.live, PageStore.ids, List.filter_map,
      List.length_map]
    rfl
  have parts : store.ids.length = (store.ids.filter fun id => replaced.contains id).length +
      (store.ids.filter fun id => !replaced.contains id).length :=
    List.length_eq_length_filter_add fun id => replaced.contains id
  rw [pageCount_eq, pageCount_eq, swaps.ids, List.length_append, List.length_singleton]
  omega

/-- Writing a page brings one page at most. -/
theorem Appending.grows {fps : List Fingerprint} {result : Except Error Unit}
    (appending : store.Appending fps result last) : ∃ added, store.Grows last added := by
  cases appending with
  | nothing | refused => exact ⟨[], .refl store⟩
  | added =>
      refine ⟨[store.nextId], Nat.le_refl 1, ?_, rfl⟩
      rw [ids, add, Page.withinBudget_ids, List.map_append]
      rfl

/-- Preparing a merge of given pages changes none. -/
theorem Preparing.keeps {replaced : List PageId} {result : Except Error (Option CompactionJob)}
    (preparing : store.Preparing replaced result last) :
    last.ids = store.ids ∧ last.compactions = store.compactions := by
  cases preparing with
  | few | prepared | refused => exact ⟨rfl, rfl⟩

theorem Tiering.keeps {maxPages : Nat} {result : Except Error (Option CompactionJob)}
    (tiering : store.Tiering maxPages result last) :
    last.ids = store.ids ∧ last.compactions = store.compactions := by
  cases tiering with
  | fits => exact ⟨rfl, rfl⟩
  | chosen tooMany preparing => exact preparing.keeps

/-- Where the replaced pages are there, the merged page has taken their place. -/
theorem Installing.swaps {merged : MergedPage} (installing : store.Installing merged last)
    (numbered : store.Numbered) (replaceable : store.Replaceable merged.replaced merged.id)
    (several : 2 ≤ merged.replaced.length) : store.Swaps last merged.replaced merged.id := by
  have same := (installing.rehandled numbered replaceable).same
  have ids := same.ids.trans (takenIn_ids replaceable.live)
  rw [idsAfter, if_pos replaceable.live] at ids
  exact
    { several, ids
      distinct := replaceable.distinct
      live := replaceable.live
      fresh := replaceable.absent
      counted := same.compactions }

end PageStore

namespace Segment

variable {plan : Plan} {storage : StorageSettings} {waiting most : Nat} {segment : Segment}

/-- A merge that is run and settled puts its page in the place of those it was prepared for. -/
theorem runCompaction_swaps {job : CompactionJob} (numbered : segment.store.Numbered)
    (readies : Readies (.ok (some job)) segment) :
    Keeping.Leaves (runCompaction job) segment fun result last => result = .ok () →
      segment.store.Swaps last.store job.replaced job.targetId := by
  obtain ⟨-, several, replaceable⟩ := readies
  refine (runCompaction_outcome job).mono ?_
  rintro result last ⟨outcome, numbers, settling⟩ done
  cases settling with
  | failed => nomatch done
  | installed merges installing =>
      obtain ⟨replaced, id⟩ := numbers _ merges
      rw [← replaced] at several
      rw [← replaced, ← id] at replaceable ⊢
      exact installing.swaps numbered replaceable several

/-! ## Puts -/

theorem Flushing.grows {result : Except Error (Option CompactionJob)} {last : Segment}
    (flushing : segment.Flushing result last) :
    ∃ added, segment.store.Grows last.store added := by
  cases flushing with
  | refused appending => exact appending.grows
  | busy _ appending => exact appending.grows
  | idle _ appending tiering =>
      obtain ⟨added, grows⟩ := appending.grows
      obtain ⟨ids, compactions⟩ := tiering.keeps
      exact ⟨added, grows.of_same ids compactions⟩

theorem PutBeginning.grows {bucket : Nat} {fp : Fingerprint} {result : Except Error PutStep}
    {last : Segment} (beginning : segment.PutBeginning bucket fp result last) :
    ∃ added, segment.store.Grows last.store added := by
  have looked {store : PageStore} (rehandled : segment.store.Rehandled store) :
      segment.store.Grows store [] :=
    (PageStore.Grows.refl _).of_same rehandled.same.ids rehandled.same.compactions
  cases beginning with
  | failed error rehandled => exact ⟨[], looked rehandled⟩
  | known rehandled => exact ⟨[], looked rehandled⟩
  | absorbed rehandled => exact ⟨[], looked rehandled⟩
  | flushed rehandled full flushing =>
      -- What is written now joins the pages that the lookup left as they were.
      obtain ⟨added, few, ids, compactions⟩ := flushing.grows
      exact ⟨added, few, ids.trans (congrArg (· ++ added) rehandled.same.ids),
        compactions.trans rehandled.same.compactions⟩

theorem Tidy.put_takes (tidy : segment.Tidy plan storage) (buffered : 0 < plan.pendingCapacity)
    (two : 2 ≤ storage.maxPagesPerSegment.toNat) {bucket : Nat}
    (inside : bucket < plan.bucketsPerSegment) (fp : Fingerprint) :
    Keeping.Leaves (put bucket fp) segment fun result last => ∀ known, result = .ok known →
      segment.store.Takes last.store := by
  have begins := (tidy.beginPut_leaves buffered two inside fp).and (beginPut_outcome bucket fp)
  refine Keeping.Leaves.bind _ begins ?_ fun _ _ _ => by simp
  rintro step last ⟨leaves, beginning⟩
  obtain ⟨added, grows⟩ := beginning.grows
  have left := leaves step rfl
  cases step with
  | known => exact Keeping.Leaves.pure fun _ _ => ⟨added, Or.inl grows⟩
  | added job =>
      cases job with
      | none => exact Keeping.Leaves.pure fun _ _ => ⟨added, Or.inl grows⟩
      | some job =>
          obtain ⟨within, readies⟩ := left
          refine Keeping.Leaves.bind _ (runCompaction_swaps within.numbered readies) ?_
            fun _ _ _ => by simp
          intro _ settled swaps
          exact Keeping.Leaves.pure fun _ _ =>
            ⟨added, Or.inr ⟨last.store, _, _, grows, swaps rfl⟩⟩

/-! ## Merges of all pages -/

/-- A merge of all pages is prepared if there are two. -/
theorem Tidy.beginCompact_keeps (tidy : segment.Tidy plan storage) :
    Keeping.Leaves beginCompact segment fun result last => last.store.ids = segment.store.ids ∧
      (∀ job, result = .ok (some job) → job.replaced = segment.store.ids) ∧
      (result = .ok none → segment.store.pageCount < 2) := by
  refine beginCompact_outcome.mono fun result last compacting => ?_
  cases compacting with
  | busy busy => exact absurd tidy.readers (Nat.ne_of_gt busy)
  | idle idle preparing =>
      refine ⟨preparing.keeps.1, ?_, ?_⟩
      · rintro job rfl
        exact preparing.replaced_eq
      · rintro rfl
        rw [PageStore.pageCount_eq]
        exact preparing.few_of_none

/-- Merging all pages leaves one at most, if it does not fail. -/
theorem Tidy.compact_single (tidy : segment.Tidy plan storage) :
    Keeping.Leaves compact segment fun result last => result = .ok () →
      last.store.pageCount ≤ 1 := by
  refine Keeping.Leaves.bind _ (tidy.beginCompact_within.and tidy.beginCompact_keeps) ?_
    fun _ _ _ => by simp
  rintro job last ⟨⟨within, readies⟩, ids, replaced, few⟩
  cases job with
  | none =>
      refine Keeping.Leaves.pure fun _ => ?_
      rw [PageStore.pageCount_eq, ids, ← PageStore.pageCount_eq]
      exact Nat.le_of_lt_succ (few rfl)
  | some job =>
      refine (runCompaction_swaps within.numbered readies).mono fun _ settled swaps done => ?_
      have count := (swaps done).pageCount within.numbered.distinct
      rw [replaced job rfl, ← ids, PageStore.pageCount_eq last.store] at count
      omega

end Segment

end FingerprintSet
