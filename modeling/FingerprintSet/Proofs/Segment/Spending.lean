import FingerprintSet.Proofs.PageStore.Numbers
import FingerprintSet.Proofs.Segment.Outcomes
import FingerprintSet.Proofs.Segment.Whole

/-!
# What operations use up

A page number is used up whether or not a page comes of it, so a segment whose operations fail again
and again runs through the numbers without getting any pages.  A put takes in one fingerprint at most
and uses up two numbers at most, one for the page that it writes and one for the merge that it
prepares.  A merge of all pages uses up one number.  The table keeps its slots.
-/

namespace FingerprintSet

open Storage

namespace PageStore

variable {store last : PageStore}

/-- At most so many numbers are given out, and at most so many merges are taken in. -/
structure Spends (numbers merges : Nat) (store last : PageStore) : Prop where
  numbers : last.nextId ≤ store.nextId + numbers
  merges : last.compactions ≤ store.compactions + merges

theorem SameButHandles.spends (same : store.SameButHandles last) : store.Spends 0 0 last where
  numbers := Nat.le_of_eq same.nextId
  merges := Nat.le_of_eq same.compactions

theorem Spends.refl (store : PageStore) : store.Spends 0 0 store :=
  ⟨Nat.le_refl _, Nat.le_refl _⟩

theorem Spends.mono {few many merges more : Nat} (spends : store.Spends few merges last)
    (below : few ≤ many) (fewer : merges ≤ more) : store.Spends many more last where
  numbers := Nat.le_trans spends.numbers (Nat.add_le_add_left below _)
  merges := Nat.le_trans spends.merges (Nat.add_le_add_left fewer _)

theorem Spends.trans {first second merges more : Nat} {middle : PageStore}
    (one : store.Spends first merges middle) (other : middle.Spends second more last) :
    store.Spends (first + second) (merges + more) last where
  numbers := by
    rw [← Nat.add_assoc]
    exact Nat.le_trans other.numbers (Nat.add_le_add_right one.numbers second)
  merges := by
    rw [← Nat.add_assoc]
    exact Nat.le_trans other.merges (Nat.add_le_add_right one.merges more)

theorem spends_numberUsed (store : PageStore) : store.Spends 1 0 store.numberUsed :=
  ⟨Nat.le_refl _, Nat.le_refl _⟩

theorem spends_nothing (store : PageStore) : store.Spends 1 0 store :=
  (Spends.refl store).mono (Nat.zero_le _) (Nat.zero_le _)

theorem Appending.spends {fps : List Fingerprint} {result : Except Error Unit}
    (appending : store.Appending fps result last) : store.Spends 1 0 last := by
  cases appending with
  | nothing => exact spends_nothing store
  | added => exact ⟨Nat.le_refl _, Nat.le_refl _⟩
  | refused => exact spends_numberUsed store

theorem append_spends (fps : List Fingerprint) :
    Keeping.Leaves (append fps) store fun _ last => store.Spends 1 0 last :=
  (append_outcome fps).mono fun _ _ => Appending.spends

theorem Preparing.spends {replaced : List PageId} {result : Except Error (Option CompactionJob)}
    (preparing : store.Preparing replaced result last) : store.Spends 1 0 last := by
  cases preparing with
  | few | refused => exact spends_nothing store
  | prepared => exact spends_numberUsed store

theorem Tiering.spends {maxPages : Nat} {result : Except Error (Option CompactionJob)}
    (tiering : store.Tiering maxPages result last) : store.Spends 1 0 last := by
  cases tiering with
  | fits => exact spends_nothing store
  | chosen tooMany preparing => exact preparing.spends

/-- Taking in a merged page uses up no number: its own was given out before. -/
theorem Installing.spends {merged : MergedPage} (installing : store.Installing merged last) :
    store.Spends 0 1 last := by
  cases installing with
  | stale => exact ⟨Nat.le_refl _, Nat.le_succ _⟩
  | takenIn all rehandled =>
      exact ⟨Nat.le_of_eq rehandled.same.nextId, Nat.le_of_eq rehandled.same.compactions⟩

end PageStore

namespace Segment

variable {segment last : Segment}

/-- At most so many fingerprints are taken in, and the store uses up so much at most. -/
structure Spends (taken numbers merges : Nat) (segment last : Segment) : Prop where
  slots : last.table.slots.size = segment.table.slots.size
  size : last.size ≤ segment.size + taken
  store : segment.store.Spends numbers merges last.store

theorem Spends.mono {taken few many merges more most : Nat}
    (spends : segment.Spends taken few merges last) (low : taken ≤ most) (below : few ≤ many)
    (fewer : merges ≤ more) : segment.Spends most many more last where
  slots := spends.slots
  size := Nat.le_trans spends.size (Nat.add_le_add_left low _)
  store := spends.store.mono below fewer

theorem Spends.trans {taken first merges more second others : Nat} {middle : Segment}
    (one : segment.Spends taken first merges middle)
    (other : middle.Spends more second others last) :
    segment.Spends (taken + more) (first + second) (merges + others) last where
  slots := other.slots.trans one.slots
  size := by
    rw [← Nat.add_assoc]
    exact Nat.le_trans other.size (Nat.add_le_add_right one.size more)
  store := one.store.trans other.store

/-- What a segment uses up in the course of some work. -/
def SpendsIn {α : Type} (taken numbers merges : Nat) (work : Keeping Segment α)
    (segment : Segment) : Prop :=
  Keeping.Leaves work segment fun _ last => segment.Spends taken numbers merges last

/-- A step that leaves all but the store, the pending set and the readers as they are uses up what
the store does. -/
theorem Spends.ofStore {numbers merges : Nat} {store : PageStore}
    (spends : segment.store.Spends numbers merges store) (readers : Nat)
    (pending : Std.TreeSet Fingerprint) :
    segment.Spends 0 numbers merges { segment with store, activeReaders := readers, pending } where
  slots := rfl
  size := Nat.le_refl _
  store := spends

theorem onStore_spends {α : Type} {work : Keeping PageStore α} {numbers merges : Nat}
    (spends : Keeping.Leaves work segment.store fun _ last =>
      segment.store.Spends numbers merges last) : SpendsIn 0 numbers merges (onStore work) segment :=
  Keeping.Leaves.onPart (spends.mono fun _ _ store => .ofStore store _ _)

theorem contains_spends (bucket : Nat) (fp : Fingerprint) :
    SpendsIn 0 0 0 (contains bucket fp) segment := by
  refine (contains_outcome bucket fp).mono ?_
  rintro _ _ ⟨store, rehandled, rfl⟩
  exact .ofStore rehandled.same.spends _ _

theorem absorb_spends (segment : Segment) (bucket : Nat) (fp : Fingerprint) :
    segment.Spends 1 0 0 (segment.absorb bucket fp) where
  slots := by
    have table : (segment.absorb bucket fp).table = segment.table.insert bucket fp := rfl
    rw [table, BucketTable.insert_slots, Array.size_setIfInBounds]
    split
    · rfl
    · exact BucketTable.size_moveDown ..
  size := Nat.le_refl _
  store := PageStore.Spends.refl _

/-- A page and a merge take a number each. -/
theorem Flushing.spends {result : Except Error (Option CompactionJob)}
    (flushing : segment.Flushing result last) : segment.Spends 0 2 0 last := by
  cases flushing with
  | refused appending =>
      exact .ofStore (appending.spends.mono (Nat.le_succ 1) (Nat.le_refl 0)) _ _
  | busy _ appending =>
      exact .ofStore (appending.spends.mono (Nat.le_succ 1) (Nat.le_refl 0)) _ _
  | idle _ appending tiering => exact .ofStore (appending.spends.trans tiering.spends) _ _

theorem beginPut_spends (bucket : Nat) (fp : Fingerprint) :
    SpendsIn 1 2 0 (beginPut bucket fp) segment := by
  refine (beginPut_outcome bucket fp).mono fun _ last beginning => ?_
  have looked {store : PageStore} (rehandled : segment.store.Rehandled store) :
      segment.Spends 0 0 0 { segment with store } :=
    .ofStore rehandled.same.spends _ _
  have least {last : Segment} (spends : segment.Spends 0 0 0 last) : segment.Spends 1 2 0 last :=
    spends.mono (Nat.zero_le 1) (Nat.zero_le 2) (Nat.le_refl 0)
  cases beginning with
  | failed error rehandled => exact least (looked rehandled)
  | known rehandled => exact least (looked rehandled)
  | absorbed rehandled =>
      have absorbed := (looked rehandled).trans (absorb_spends _ bucket fp)
      exact absorbed.mono (Nat.le_refl 1) (Nat.zero_le 2) (Nat.le_refl 0)
  | flushed rehandled full flushing =>
      exact ((looked rehandled).trans (absorb_spends _ bucket fp)).trans flushing.spends

theorem runCompaction_spends (job : CompactionJob) :
    SpendsIn 0 0 1 (runCompaction job) segment := by
  refine (runCompaction_outcome job).mono ?_
  rintro _ last ⟨outcome, -, settling⟩
  cases settling with
  | failed =>
      exact .ofStore ((PageStore.Spends.refl _).mono (Nat.le_refl 0) (Nat.zero_le 1)) _ _
  | installed _ installing => exact .ofStore installing.spends _ _

theorem put_spends (bucket : Nat) (fp : Fingerprint) : SpendsIn 1 2 1 (put bucket fp) segment := by
  have less {last : Segment} (spends : segment.Spends 1 2 0 last) : segment.Spends 1 2 1 last :=
    spends.mono (Nat.le_refl 1) (Nat.le_refl 2) (Nat.zero_le 1)
  refine Keeping.Leaves.bind _ (beginPut_spends bucket fp) ?_ fun _ _ spends => less spends
  intro step last spends
  cases step with
  | known => exact Keeping.Leaves.pure (less spends)
  | added job =>
      cases job with
      | none => exact Keeping.Leaves.pure (less spends)
      | some job =>
          refine Keeping.Leaves.bind _ (runCompaction_spends job) ?_ fun _ _ more => spends.trans more
          exact fun _ _ more => Keeping.Leaves.pure (spends.trans more)

theorem beginCompact_spends : SpendsIn 0 1 0 beginCompact segment := by
  refine beginCompact_outcome.mono fun _ last compacting => ?_
  cases compacting with
  | busy => exact .ofStore (PageStore.spends_nothing _) _ _
  | idle _ preparing => exact .ofStore preparing.spends _ _

theorem compact_spends : SpendsIn 0 1 1 compact segment := by
  have less {last : Segment} (spends : segment.Spends 0 1 0 last) : segment.Spends 0 1 1 last :=
    spends.mono (Nat.le_refl 0) (Nat.le_refl 1) (Nat.zero_le 1)
  refine Keeping.Leaves.bind _ beginCompact_spends ?_ fun _ _ spends => less spends
  intro job last spends
  cases job with
  | none => exact Keeping.Leaves.pure (less spends)
  | some job => exact (runCompaction_spends job).mono fun _ _ more => spends.trans more

end Segment

end FingerprintSet
