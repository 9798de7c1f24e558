import FingerprintSet.Proofs.PageStore.Outcomes
import FingerprintSet.Segment.Basic

/-!
# What operations on a segment come to

All that a step can leave of a segment, whatever the volume is like and whatever it refuses, told by
what operations on its store come to.  What a step keeps, which numbers it uses up and which pages it
brings are read off this, case by case.
-/

namespace FingerprintSet

open Storage

namespace Segment

variable {segment last : Segment}

/-- Work on the store leaves the rest of the segment as it is. -/
theorem onStore_leaves {α : Type} {work : Keeping PageStore α}
    {holds : Except Error α → PageStore → Prop} (leaves : Keeping.Leaves work segment.store holds) :
    Keeping.Leaves (onStore work) segment fun result last =>
      ∃ store, holds result store ∧ last = { segment with store } :=
  Keeping.Leaves.onPart (leaves.mono fun _ store there => ⟨store, there, rfl⟩)

/-- A test opens and closes files and does nothing else. -/
theorem contains_outcome (bucket : Nat) (fp : Fingerprint) :
    Keeping.Leaves (contains bucket fp) segment fun _ last =>
      ∃ store, segment.store.Rehandled store ∧ last = { segment with store } := by
  apply Keeping.Leaves.getThen
  split
  · exact Keeping.Leaves.pure ⟨segment.store, .refl _, rfl⟩
  · exact onStore_leaves (PageStore.probe_outcome fp)

/-! ## Preparing merges -/

/-- What a result leaves to run. -/
def offered {α : Type} (job : α → Option CompactionJob) : Except Error α → Option CompactionJob
  | .ok a => job a
  | .error _ => .none

/-- A merge that was prepared counts as a reader. -/
def registered (segment : Segment) (result : Except Error (Option CompactionJob))
    (store : PageStore) : Segment :=
  { segment with
    store
    activeReaders := segment.activeReaders + if (offered id result).isSome then 1 else 0 }

theorem register_outcome {work : Keeping PageStore (Option CompactionJob)}
    {holds : Except Error (Option CompactionJob) → PageStore → Prop}
    (leaves : Keeping.Leaves work segment.store holds) :
    Keeping.Leaves (do let job ← onStore work; registerJob job; pure job) segment
      fun result last => ∃ store, holds result store ∧ last = segment.registered result store := by
  refine Keeping.Leaves.bind _ (onStore_leaves leaves) ?_ ?_
  · rintro job _ ⟨store, there, rfl⟩
    rw [registerJob]
    cases job with
    | none => exact Keeping.Leaves.pure ⟨store, there, rfl⟩
    | some job => exact Keeping.Leaves.modifyThen (Keeping.Leaves.pure ⟨store, there, rfl⟩)
  · rintro error _ ⟨store, there, rfl⟩
    exact ⟨store, there, rfl⟩

/-- What preparing a merge of all pages comes to. -/
inductive Compacting (segment : Segment) : Except Error (Option CompactionJob) → Segment → Prop
  /-- While something reads the pages they are not merged. -/
  | busy (busy : 0 < segment.activeReaders) : Compacting segment (.ok none) segment
  | idle {result : Except Error (Option CompactionJob)} {store : PageStore}
      (idle : segment.activeReaders = 0)
      (preparing : segment.store.Preparing segment.store.ids result store) :
      Compacting segment result (segment.registered result store)

theorem beginCompact_outcome : Keeping.Leaves beginCompact segment segment.Compacting := by
  apply Keeping.Leaves.getThen
  split
  · rename_i busy
    exact Keeping.Leaves.pure (.busy busy)
  · rename_i idle
    refine (register_outcome PageStore.compactionJob_outcome).mono ?_
    rintro result _ ⟨store, preparing, rfl⟩
    exact .idle (Nat.eq_zero_of_not_pos idle) preparing

/-- What writing the pending fingerprints comes to. -/
inductive Flushing (segment : Segment) : Except Error (Option CompactionJob) → Segment → Prop
  | refused {error : Error} {store : PageStore}
      (appending : segment.store.Appending segment.pending.toList (.error error) store) :
      Flushing segment (.error error) { segment with store }
  /-- While something reads the pages they are not merged. -/
  | busy {store : PageStore} (busy : 0 < segment.activeReaders)
      (appending : segment.store.Appending segment.pending.toList (.ok ()) store) :
      Flushing segment (.ok none) { segment with store, pending := ∅ }
  | idle {written store : PageStore} {result : Except Error (Option CompactionJob)}
      (idle : segment.activeReaders = 0)
      (appending : segment.store.Appending segment.pending.toList (.ok ()) written)
      (tiering : written.Tiering segment.maxPages result store) :
      Flushing segment result
        (registered { segment with store := written, pending := ∅ } result store)

theorem flushPending_outcome : Keeping.Leaves flushPending segment segment.Flushing := by
  apply Keeping.Leaves.getThen
  refine Keeping.Leaves.bind _ (onStore_leaves (PageStore.append_outcome _)) ?_ ?_
  · rintro _ _ ⟨written, appending, rfl⟩
    apply Keeping.Leaves.modifyThen
    apply Keeping.Leaves.getThen
    split
    · rename_i busy
      exact Keeping.Leaves.pure (.busy busy appending)
    · rename_i idle
      apply Keeping.Leaves.getThen
      refine (register_outcome (PageStore.tieredCompactionJob_outcome _)).mono ?_
      rintro result _ ⟨store, tiering, rfl⟩
      exact .idle (Nat.eq_zero_of_not_pos idle) appending tiering
  · rintro error _ ⟨store, appending, rfl⟩
    exact .refused appending

/-! ## Putting -/

/-- What the step of a put that has the segment to itself comes to. -/
inductive PutBeginning (segment : Segment) (bucket : Nat) (fp : Fingerprint) :
    Except Error PutStep → Segment → Prop
  | failed {store : PageStore} (error : Error) (rehandled : segment.store.Rehandled store) :
      PutBeginning segment bucket fp (.error error) { segment with store }
  | known {store : PageStore} (rehandled : segment.store.Rehandled store) :
      PutBeginning segment bucket fp (.ok .known) { segment with store }
  | absorbed {store : PageStore} (rehandled : segment.store.Rehandled store)
      (room : ¬(absorb { segment with store } bucket fp).isPendingFull) :
      PutBeginning segment bucket fp (.ok (.added none)) (absorb { segment with store } bucket fp)
  | flushed {store : PageStore} {result : Except Error (Option CompactionJob)} {last : Segment}
      (rehandled : segment.store.Rehandled store)
      (full : (absorb { segment with store } bucket fp).isPendingFull)
      (flushing : (absorb { segment with store } bucket fp).Flushing result last) :
      PutBeginning segment bucket fp (result.map .added) last

theorem beginPut_outcome (bucket : Nat) (fp : Fingerprint) :
    Keeping.Leaves (beginPut bucket fp) segment (segment.PutBeginning bucket fp) := by
  refine Keeping.Leaves.bind _ (contains_outcome bucket fp) ?_ ?_
  · rintro known _ ⟨store, rehandled, rfl⟩
    split
    · exact Keeping.Leaves.pure (.known rehandled)
    · apply Keeping.Leaves.modifyThen
      apply Keeping.Leaves.getThen
      split
      · rename_i full
        refine Keeping.Leaves.bind _ flushPending_outcome ?_ ?_
        · exact fun job last flushing => Keeping.Leaves.pure (.flushed rehandled full flushing)
        · exact fun error last flushing => .flushed rehandled full flushing
      · rename_i room
        exact Keeping.Leaves.pure (.absorbed rehandled room)
  · rintro error _ ⟨store, rehandled, rfl⟩
    exact .failed error rehandled

/-! ## Settling merges -/

/-- What settling a merge comes to.  However the merge came out, it is a reader no more. -/
inductive Settling (segment : Segment) (outcome : Except Error MergedPage) :
    Except Error Unit → Segment → Prop
  | failed {error : Error} (failed : outcome = .error error) :
      Settling segment outcome (.error error) segment.dropReader
  | installed {merged : MergedPage} {result : Except Error Unit} {store : PageStore}
      (merges : outcome = .ok merged) (installing : segment.store.Installing merged store) :
      Settling segment outcome result { segment.dropReader with store }

theorem settle_outcome (outcome : Except Error MergedPage) :
    Keeping.Leaves (settle outcome) segment (segment.Settling outcome) := by
  apply Keeping.Leaves.modifyThen
  refine Keeping.Leaves.bind (fun result last => result = outcome ∧ last = segment.dropReader)
    (Keeping.Leaves.ofExcept ⟨rfl, rfl⟩) ?_ ?_
  · rintro merged _ ⟨merges, rfl⟩
    refine (onStore_leaves (PageStore.install_outcome merged)).mono ?_
    rintro result _ ⟨store, installing, rfl⟩
    exact .installed merges.symm installing
  · rintro error _ ⟨failed, rfl⟩
    exact .failed failed.symm

/-- A merge that is run at once is for the pages it was prepared for. -/
theorem runCompaction_outcome (job : CompactionJob) :
    Keeping.Leaves (runCompaction job) segment fun result last => ∃ outcome,
      (∀ merged, outcome = .ok merged →
        merged.replaced = job.replaced ∧ merged.id = job.targetId) ∧
      segment.Settling outcome result last := by
  intro before
  exact ⟨(job.run before).1, fun merged ran => PageStore.run_numbers ran,
    settle_outcome (job.run before).1 (job.run before).2⟩

end Segment

end FingerprintSet
