import FingerprintSet.Proofs.PageStore.Compaction
import FingerprintSet.Proofs.Storage.Leaving

/-!
# What operations on a store come to

All that an operation can leave of a store, whatever the volume is like and whatever it refuses.
There are few cases for each, and what an operation keeps is read off them: an operation is taken
apart here and nowhere else.
-/

namespace FingerprintSet

open Storage

/-! ## Open files -/

namespace HandleCache

variable {cache : HandleCache} {id : PageId} {handle : Handle}

theorem size_insert_le : (cache.insert id handle).size ≤ cache.capacity :=
  List.length_take_le _ _

theorem size_erase_le : (cache.erase id).size ≤ cache.size :=
  List.length_filter_le _ _

/-- An open file that is used again is no other one. -/
theorem size_touch_le (found : cache.find? id = some handle) :
    (cache.touch id handle).size ≤ cache.size := by
  have there : ∃ entry ∈ cache.entries, ¬(entry.1 != id) = true :=
    ⟨(id, handle), PageStore.mem_of_lookup found, by simp⟩
  have unfolded : (cache.touch id handle).size = (cache.erase id).size + 1 := rfl
  rw [unfolded]
  exact List.length_filter_lt_length_iff_exists.mpr there

end HandleCache

namespace PageStore

variable {store last : PageStore}

/-- Nothing but the open files has changed, and there are no more of them than before or than there
is room for. -/
structure Rehandled (store last : PageStore) : Prop where
  same : store.SameButHandles last
  capacity : last.handles.capacity = store.handles.capacity
  few : last.openHandles ≤ max store.openHandles store.handles.capacity

theorem Rehandled.refl (store : PageStore) : store.Rehandled store :=
  ⟨rfl, rfl, Nat.le_max_left _ _⟩

theorem Rehandled.trans {final : PageStore} (first : store.Rehandled last)
    (second : last.Rehandled final) : store.Rehandled final where
  same := first.same.trans second.same
  capacity := second.capacity.trans first.capacity
  few := by
    have more := second.few
    rw [first.capacity] at more
    exact Nat.le_trans more (Nat.max_le.mpr ⟨first.few, Nat.le_max_right _ _⟩)

theorem handleOf_outcome (page : Page) :
    Keeping.Leaves (handleOf page) store fun _ last => store.Rehandled last := by
  apply Keeping.Leaves.getThen
  split
  · rename_i handle found
    refine Keeping.Leaves.modifyThen (Keeping.Leaves.pure ⟨rfl, rfl, ?_⟩)
    exact Nat.le_trans (HandleCache.size_touch_le found) (Nat.le_max_left _ _)
  · refine Keeping.Leaves.bind (fun _ last => last = store)
      (Keeping.Leaves.lift fun _ => rfl) ?_ ?_
    · rintro handle _ rfl
      refine Keeping.Leaves.modifyThen (Keeping.Leaves.pure ⟨rfl, rfl, ?_⟩)
      exact Nat.le_trans HandleCache.size_insert_le (Nat.le_max_right _ _)
    · rintro _ _ rfl
      exact .refl _

theorem probePage_outcome (page : Page) (fp : Fingerprint) :
    Keeping.Leaves (probePage page fp) store fun _ last => store.Rehandled last := by
  rw [probePage]
  split
  · exact Keeping.Leaves.pure (.refl store)
  · exact Keeping.Leaves.pure (.refl store)
  · refine Keeping.Leaves.bind _ (handleOf_outcome page) ?_ fun _ _ rehandled => rehandled
    intro handle last rehandled
    refine Keeping.Leaves.bind (fun _ last => store.Rehandled last)
      (Keeping.Leaves.lift fun _ => rehandled) ?_ fun _ _ rehandled => rehandled
    exact fun _ _ rehandled => Keeping.Leaves.pure rehandled

theorem probePages_outcome (fp : Fingerprint) (pages : List Page) :
    Keeping.Leaves (probePages fp pages) store fun _ last => store.Rehandled last := by
  induction pages generalizing store with
  | nil => exact Keeping.Leaves.pure (.refl store)
  | cons page rest ih =>
      rw [probePages]
      refine Keeping.Leaves.bind _ (probePage_outcome page fp) ?_ fun _ _ rehandled => rehandled
      intro found middle rehandled
      split
      · exact Keeping.Leaves.pure rehandled
      · exact ih.mono fun _ _ more => rehandled.trans more

/-- Probing only opens and closes files. -/
theorem probe_outcome (fp : Fingerprint) :
    Keeping.Leaves (probe fp) store fun _ last => store.Rehandled last :=
  Keeping.Leaves.getThen (probePages_outcome fp _)

/-- Discarding pages closes their files. -/
theorem discards_outcome (pages : List Page) :
    Keeping.Leaves (pages.forM discard) store fun _ last => store.Rehandled last := by
  induction pages generalizing store with
  | nil => exact Keeping.Leaves.pure (.refl store)
  | cons page pages ih =>
      refine Keeping.Leaves.bind (fun _ last => store.Rehandled last) ?_ ?_
        fun _ _ rehandled => rehandled
      · refine Keeping.Leaves.modifyThen (Keeping.Leaves.lift fun _ => ⟨rfl, rfl, ?_⟩)
        exact Nat.le_trans HandleCache.size_erase_le (Nat.le_max_left _ _)
      · exact fun _ _ rehandled => ih.mono fun _ _ more => rehandled.trans more

/-! ## Appending -/

/-- The store that has given out its next number. -/
def numberUsed (store : PageStore) : PageStore :=
  { store with nextId := store.nextId + 1 }

/-- What appending comes to. -/
inductive Appending (store : PageStore) (fps : List Fingerprint) :
    Except Error Unit → PageStore → Prop
  | nothing (empty : fps = []) : Appending store fps (.ok ()) store
  | added (written : SortedFile.Written) :
      Appending store fps (.ok ())
        (store.numberUsed.add (Page.ofWritten store.nextId store.limits.stride written))
  /-- The number is used up, and nothing comes of it. -/
  | refused (error : Error) : Appending store fps (.error error) store.numberUsed

theorem append_outcome (fps : List Fingerprint) :
    Keeping.Leaves (append fps) store (store.Appending fps) := by
  rw [append]
  split
  · rename_i empty
    exact Keeping.Leaves.pure (.nothing (List.isEmpty_iff.mp empty))
  · refine Keeping.Leaves.bind (fun result last =>
      result = .ok store.nextId ∧ last = store.numberUsed) (fun _ => ⟨rfl, rfl⟩) ?_ ?_
    · rintro id _ ⟨same, rfl⟩
      obtain rfl := Except.ok.inj same
      apply Keeping.Leaves.getThen
      refine Keeping.Leaves.bind (fun _ last => last = store.numberUsed)
        (Keeping.Leaves.lift fun _ => rfl) ?_ ?_
      · rintro written _ rfl
        exact Keeping.Leaves.modifying (.added written)
      · rintro error _ rfl
        exact .refused error
    · rintro _ _ ⟨impossible, -⟩
      contradiction

/-! ## Merges -/

/-- What preparing a merge of some pages comes to. -/
inductive Preparing (store : PageStore) (replaced : List PageId) :
    Except Error (Option CompactionJob) → PageStore → Prop
  | few (few : replaced.length < 2) : Preparing store replaced (.ok none) store
  | prepared {job : CompactionJob} (several : 2 ≤ replaced.length) (pages : job.replaced = replaced)
      (target : job.targetId = store.nextId) :
      Preparing store replaced (.ok (some job)) store.numberUsed
  | refused (error : Error) : Preparing store replaced (.error error) store

theorem Preparing.replaced_eq {replaced : List PageId} {job : CompactionJob}
    (preparing : store.Preparing replaced (.ok (some job)) last) : job.replaced = replaced := by
  cases preparing with
  | prepared several pages => exact pages

theorem Preparing.few_of_none {replaced : List PageId}
    (preparing : store.Preparing replaced (.ok none) last) : replaced.length < 2 := by
  cases preparing with
  | few few => exact few

theorem jobFor_outcome (replaced : List PageId) :
    Keeping.Leaves (jobFor replaced) store (store.Preparing replaced) := by
  rw [jobFor]
  split
  · rename_i few
    exact Keeping.Leaves.pure (.few few)
  · rename_i several
    apply Keeping.Leaves.getThen
    refine Keeping.Leaves.bind (fun _ last => last = store)
      (Keeping.Leaves.lift fun _ => rfl) ?_ ?_
    · rintro readers store rfl
      refine Keeping.Leaves.bind (fun result last =>
        result = .ok store.nextId ∧ last = store.numberUsed) (fun _ => ⟨rfl, rfl⟩) ?_ ?_
      · rintro id _ ⟨same, rfl⟩
        obtain rfl := Except.ok.inj same
        apply Keeping.Leaves.getThen
        exact Keeping.Leaves.pure (.prepared (Nat.le_of_not_lt several) rfl rfl)
      · rintro _ _ ⟨impossible, -⟩
        contradiction
    · rintro error _ rfl
      exact .refused error

theorem compactionJob_outcome :
    Keeping.Leaves compactionJob store (store.Preparing store.ids) :=
  Keeping.Leaves.getThen (jobFor_outcome _)

/-- What preparing a tiered merge comes to. -/
inductive Tiering (store : PageStore) (maxPages : Nat) :
    Except Error (Option CompactionJob) → PageStore → Prop
  | fits (fits : store.pageCount ≤ maxPages) : Tiering store maxPages (.ok none) store
  | chosen {result : Except Error (Option CompactionJob)} {last : PageStore}
      (tooMany : maxPages < store.pageCount)
      (preparing : store.Preparing (tieredChoice store.pages) result last) :
      Tiering store maxPages result last

theorem tieredCompactionJob_outcome (maxPages : Nat) :
    Keeping.Leaves (tieredCompactionJob maxPages) store (store.Tiering maxPages) := by
  apply Keeping.Leaves.getThen
  dsimp only
  split
  · rename_i fits
    exact Keeping.Leaves.pure (.fits fits)
  · rename_i tooMany
    exact (jobFor_outcome _).mono fun _ _ => .chosen (Nat.lt_of_not_le tooMany)

/-- A merge that was run is for the pages it was prepared for. -/
theorem run_numbers {job : CompactionJob} {merged : MergedPage} {before : Storage.Volume}
    (ran : (job.run before).1 = .ok merged) :
    merged.replaced = job.replaced ∧ merged.id = job.targetId := by
  rw [CompactionJob.run, Storage.bind_apply] at ran
  split at ran
  · obtain rfl := Except.ok.inj ran
    exact ⟨rfl, rfl⟩
  · contradiction

/-- What installing a merged page comes to. -/
inductive Installing (store : PageStore) (merged : MergedPage) : PageStore → Prop
  /-- Pages that were to be replaced are gone. -/
  | stale (some : (store.replacedBy merged).length ≠ merged.replaced.length) :
      Installing store merged store
  | takenIn {last : PageStore} (all : (store.replacedBy merged).length = merged.replaced.length)
      (rehandled : (store.takenIn merged).Rehandled last) : Installing store merged last

theorem install_outcome (merged : MergedPage) :
    Keeping.Leaves (install merged) store fun _ last => store.Installing merged last := by
  apply Keeping.Leaves.getThen
  rw [List.partition_eq_filter_filter]
  dsimp only
  split
  · rename_i some
    exact Keeping.Leaves.lift fun _ => .stale some
  · rename_i all
    exact Keeping.Leaves.modifyThen ((discards_outcome _).mono fun _ _ =>
      .takenIn (Decidable.not_not.mp all))

end PageStore

end FingerprintSet
