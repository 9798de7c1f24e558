import FingerprintSet.Proofs.PageStore.Outcomes

/-!
# Page numbers

No page number is given out twice, whatever the volume refuses: a number is used up before the
file for it is created.  So the pages that a merge takes in stay known by their numbers, and the
number of the merged page is not the number of another one.
-/

namespace FingerprintSet

open Storage

namespace PageStore

variable {store last : PageStore}

/-- The pages have numbers of their own, all of them given out. -/
structure Numbered (store : PageStore) : Prop where
  distinct : store.ids.Nodup
  below : ∀ id ∈ store.ids, id < store.nextId

/-- A merge may put page `target` in the place of the pages `replaced`. -/
structure Replaceable (store : PageStore) (replaced : List PageId) (target : PageId) : Prop where
  distinct : replaced.Nodup
  live : ∀ id ∈ replaced, id ∈ store.ids
  below : target < store.nextId
  absent : target ∉ store.ids

/-- Pages were only added, and only with numbers that were not given out before. -/
structure Adds (store last : PageStore) : Prop where
  numbered : store.Numbered → last.Numbered
  keeps : ∀ id ∈ store.ids, id ∈ last.ids
  fresh : ∀ id ∈ last.ids, id < store.nextId → id ∈ store.ids
  later : store.nextId ≤ last.nextId

theorem Adds.of_same (ids : last.ids = store.ids) (later : store.nextId ≤ last.nextId) :
    store.Adds last where
  numbered numbered :=
    { distinct := ids ▸ numbered.distinct
      below := fun id mem => Nat.lt_of_lt_of_le (numbered.below id (ids ▸ mem)) later }
  keeps _ mem := ids ▸ mem
  fresh _ mem _ := ids ▸ mem
  later := later

theorem SameButHandles.adds (same : store.SameButHandles last) : store.Adds last :=
  .of_same same.ids (Nat.le_of_eq same.nextId.symm)

theorem Adds.refl (store : PageStore) : store.Adds store :=
  .of_same rfl (Nat.le_refl _)

theorem Adds.trans {final : PageStore} (first : store.Adds last) (second : last.Adds final) :
    store.Adds final where
  numbered numbered := second.numbered (first.numbered numbered)
  keeps id mem := second.keeps id (first.keeps id mem)
  fresh id mem below :=
    first.fresh id (second.fresh id mem (Nat.lt_of_lt_of_le below first.later)) below
  later := Nat.le_trans first.later second.later

theorem Replaceable.of_adds {replaced : List PageId} {target : PageId}
    (replaceable : store.Replaceable replaced target) (adds : store.Adds last) :
    last.Replaceable replaced target where
  distinct := replaceable.distinct
  live id mem := adds.keeps id (replaceable.live id mem)
  below := Nat.lt_of_lt_of_le replaceable.below adds.later
  absent mem := replaceable.absent (adds.fresh target mem replaceable.below)

theorem adds_numberUsed (store : PageStore) : store.Adds store.numberUsed :=
  .of_same rfl (Nat.le_succ _)

theorem adds_add (store : PageStore) (page : Page) (number : page.id = store.nextId) :
    store.Adds (store.numberUsed.add page) := by
  have ids : (store.numberUsed.add page).ids = store.ids ++ [store.nextId] := by
    rw [PageStore.ids, add, Page.withinBudget_ids, List.map_append, List.map_singleton, number]
    rfl
  refine ⟨fun numbered => ⟨?_, ?_⟩, ?_, ?_, Nat.le_succ _⟩
  · rw [ids]
    exact nodup_snoc numbered.distinct fun mem => Nat.lt_irrefl _ (numbered.below _ mem)
  · intro id mem
    rw [ids] at mem
    rcases List.mem_append.mp mem with old | new
    · exact Nat.lt_succ_of_lt (numbered.below id old)
    · rw [List.mem_singleton.mp new]
      exact Nat.lt_succ_self _
  · intro id mem
    rw [ids]
    exact List.mem_append_left _ mem
  · intro id mem below
    rw [ids] at mem
    rcases List.mem_append.mp mem with old | new
    · exact old
    · rw [List.mem_singleton.mp new] at below
      exact absurd below (Nat.lt_irrefl _)

theorem Appending.adds {fps : List Fingerprint} {result : Except Error Unit}
    (appending : store.Appending fps result last) : store.Adds last := by
  cases appending with
  | nothing => exact .refl store
  | added written => exact adds_add store _ rfl
  | refused => exact adds_numberUsed store

/-! ## Merges -/

/-- What a step that may prepare a merge leaves. -/
def Prepared (store : PageStore) (result : Except Error (Option CompactionJob))
    (last : PageStore) : Prop :=
  store.Adds last ∧ ∀ job, result = .ok (some job) → last.Replaceable job.replaced job.targetId

theorem Preparing.leaves {replaced : List PageId} {result : Except Error (Option CompactionJob)}
    (preparing : store.Preparing replaced result last) (numbered : store.Numbered)
    (distinct : replaced.Nodup) (live : ∀ id ∈ replaced, id ∈ store.ids) :
    store.Prepared result last := by
  cases preparing with
  | few => exact ⟨.refl store, by simp⟩
  | prepared several pages target =>
      refine ⟨adds_numberUsed store, ?_⟩
      rintro _ ⟨⟩
      rw [pages, target]
      exact ⟨distinct, live, Nat.lt_succ_self _, fun mem => Nat.lt_irrefl _ (numbered.below _ mem)⟩
  | refused => exact ⟨.refl store, by simp⟩

theorem Preparing.all_leaves {result : Except Error (Option CompactionJob)}
    (preparing : store.Preparing store.ids result last) (numbered : store.Numbered) :
    store.Prepared result last :=
  preparing.leaves numbered numbered.distinct fun _ mem => mem

theorem Tiering.leaves {maxPages : Nat} {result : Except Error (Option CompactionJob)}
    (tiering : store.Tiering maxPages result last) (numbered : store.Numbered) :
    store.Prepared result last := by
  cases tiering with
  | fits => exact ⟨.refl store, by simp⟩
  | chosen tooMany preparing =>
      exact preparing.leaves numbered (tieredChoice_nodup numbered.distinct)
        (tieredChoice_sublist store.pages)

theorem takenIn_numbered (numbered : store.Numbered) {merged : MergedPage}
    (replaceable : store.Replaceable merged.replaced merged.id) :
    (store.takenIn merged).Numbered := by
  have ids := takenIn_ids replaceable.live
  rw [idsAfter, if_pos replaceable.live] at ids
  refine ⟨?_, fun id mem => ?_⟩
  · rw [ids]
    exact nodup_snoc (numbered.distinct.filter _) fun mem =>
      replaceable.absent (List.mem_filter.mp mem).1
  · rw [ids] at mem
    rcases List.mem_append.mp mem with old | new
    · exact numbered.below id (List.mem_filter.mp old).1
    · rw [List.mem_singleton.mp new]
      exact replaceable.below

/-- Where the replaced pages are there, the merged page is taken in. -/
theorem Installing.rehandled {merged : MergedPage} (installing : store.Installing merged last)
    (numbered : store.Numbered) (replaceable : store.Replaceable merged.replaced merged.id) :
    (store.takenIn merged).Rehandled last := by
  have all := (all_found_iff numbered.distinct replaceable.distinct).mpr replaceable.live
  cases installing with
  | stale some => exact absurd all some
  | takenIn _ rehandled => exact rehandled

theorem Installing.numbered {merged : MergedPage} (installing : store.Installing merged last)
    (numbered : store.Numbered) (replaceable : store.Replaceable merged.replaced merged.id) :
    last.Numbered :=
  (installing.rehandled numbered replaceable).same.adds.numbered
    (takenIn_numbered numbered replaceable)

end PageStore

end FingerprintSet
