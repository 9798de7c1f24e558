import FingerprintSet.Proofs.BoundedSet.Checkpoint
import FingerprintSet.Proofs.Distance

/-!
# The least distance in a bounded set

Segments cover the fingerprints in order, so going through them one after the other goes through
all fingerprints of the set in ascending order.
-/

namespace FingerprintSet

open Storage Volume

namespace BoundedSet

variable {set : BoundedSet} {homes : Homes} {before : Volume}
  {entries : Nat → PageId → List Fingerprint}

/-- The fingerprints of the first segments, in ascending order. -/
def firstOnes (entries : Nat → PageId → List Fingerprint) (set : BoundedSet) (count : Nat) :
    List Fingerprint :=
  (List.range count).flatMap fun index => sorted ((set.segmentAt index).all (entries index))

theorem firstOnes_succ (entries : Nat → PageId → List Fingerprint) (set : BoundedSet)
    (count : Nat) :
    set.firstOnes entries (count + 1) =
      set.firstOnes entries count ++ sorted ((set.segmentAt count).all (entries count)) := by
  rw [firstOnes, List.range_succ, List.flatMap_append, List.flatMap_singleton]
  rfl

theorem Arranged.firstOnes_ascending (arranged : set.Arranged homes entries) {count : Nat}
    (within : count ≤ set.segments.size) : Ascending (set.firstOnes entries count) := by
  apply List.pairwise_flatMap.mpr
  refine ⟨fun index _ => sorted_ascending _, ?_⟩
  apply List.Pairwise.imp_of_mem _ List.pairwise_lt_range
  intro first second firstIn secondIn ordered fp mem other otherMem
  rw [List.mem_range] at firstIn secondIn
  rw [mem_sorted] at mem otherMem
  have here := arranged.routed first (Nat.lt_of_lt_of_le firstIn within) fp mem
  have there := arranged.routed second (Nat.lt_of_lt_of_le secondIn within) other otherMem
  apply Decidable.byContradiction
  intro above
  have back := @Router.segment_mono set.router _ _ (UInt64.not_lt.mp above)
  rw [here, there] at back
  exact Nat.not_lt.mpr back ordered

/-- All segments together give everything, in ascending order. -/
theorem Sound.firstOnes_all (sound : set.Sound homes before entries) :
    set.firstOnes entries set.segments.size = sorted (set.contents entries) := by
  apply (sound.toArranged.firstOnes_ascending (Nat.le_refl _)).ext (sorted_ascending _)
  intro fp
  rw [mem_sorted, firstOnes, contents, List.mem_flatMap, List.mem_flatMap]
  simp only [mem_sorted]

/-- What was taken in so far, whatever became of the volume. -/
def Observed (distance : LeastDistance) (done : List Fingerprint) (_ : Volume) : Prop :=
  LeastDistance.observeAll done = .ok distance

/-- The first segments were taken in and the set is as it was. -/
def Passed (entries : Nat → PageId → List Fingerprint) (set : BoundedSet) (count : Nat)
    (distance : LeastDistance) (last : BoundedSet) (volume : Volume) : Prop :=
  last = set ∧ Observed distance (set.firstOnes entries count) volume

/-- One more segment is taken in. -/
theorem observeSegment_runs (volumeSound : before.Sound) (arranged : set.Arranged homes entries)
    {index : Nat} (inside : index < set.segments.size)
    (sound : (set.segmentAt index).Sound homes before (entries index)) {distance : LeastDistance}
    (observed : Observed distance (set.firstOnes entries index) before) :
    Keeping.Runs (observeSegment distance index) set before Nowhere NoFile
      (set.Passed entries (index + 1)) fun _ _ => True := by
  have ascending := arranged.firstOnes_ascending (Nat.succ_le_of_lt inside)
  have steady (state : LeastDistance) (done : List Fingerprint) (before after : Volume)
      (_ : before.Sound) (_ : Changes Nowhere NoFile before after)
      (taken : Observed state done before) : Observed state done after := taken
  have sinks (state : LeastDistance) (done : List Fingerprint) (fp : Fingerprint)
      (rest : List Fingerprint) (volume : Volume) (_ : volume.Sound)
      (split : done ++ fp :: rest = set.firstOnes entries (index + 1))
      (taken : Observed state done volume) :
      Runs (Task.ofExcept (state.observe fp)) volume Nowhere NoFile fun state after =>
        Observed state (done ++ [fp]) after := by
    obtain ⟨next, observes⟩ := LeastDistance.observe_next (split ▸ ascending) taken
    rw [observes]
    exact Runs.pure ((LeastDistance.observeAll_snoc taken).trans observes)
  have nothing (volume : Volume) :
      Runs (pure () : Task Unit) volume Nowhere NoFile fun _ _ => True := Runs.pure trivial
  apply scanSegment_runs volumeSound sound
  · intro snapshot middle changes streams
    exact Merge.fold_runs (fun _ _ none => none) steady sinks (fun _ _ volume _ _ => nothing volume)
      (changes.sound volumeSound) (firstOnes_succ entries set index).symm streams observed
  · exact fun volume _ => nothing volume

/-- Going through all segments changes nothing and takes in all their fingerprints. -/
theorem observeAll_runs (volumeSound : before.Sound) (arranged : set.Arranged homes entries)
    (sound : ∀ index < set.segments.size,
      (set.segmentAt index).Sound homes before (entries index)) :
    Keeping.Runs ((List.range set.segments.size).foldlM observeSegment {}) set before Nowhere NoFile
      (set.Passed entries set.segments.size) fun _ _ => True := by
  have none : set.Passed entries 0 {} set before := ⟨rfl, rfl⟩
  apply Keeping.Runs.foldRange (set.Passed entries) none
  rintro index inside distance _ after changes ⟨rfl, observed⟩
  have soundStill := (sound index inside).of_changes volumeSound changes fun _ _ nowhere => nowhere
  exact observeSegment_runs (changes.sound volumeSound) arranged inside soundStill observed

/-- Going through a set changes nothing and takes in all its fingerprints. -/
theorem leastDistance_runs {held : List Fingerprint} (volumeSound : before.Sound)
    (holds : set.Holds before held) :
    Keeping.Runs leastDistance set before Nowhere NoFile
      (fun answer last _ => last = set ∧
        ∃ distance, LeastDistance.observeAll (sorted held) = .ok distance ∧ answer = distance.result)
      fun _ _ => True := by
  obtain ⟨homes, entries, sound, perm⟩ := holds
  have all : set.firstOnes entries set.segments.size = sorted held := by
    rw [sound.firstOnes_all]
    exact sorted_congr fun _ => perm.mem_iff
  apply Keeping.Runs.getThen
  apply Keeping.Runs.bind (observeAll_runs volumeSound sound.toArranged
    fun index inside => (sound.rests index inside).sound)
  rintro distance last after - ⟨same, observed⟩
  exact Keeping.Runs.pure ⟨same, distance, all ▸ observed, rfl⟩

end BoundedSet

end FingerprintSet
