import FingerprintSet.ResidentSet
import FingerprintSet.Proofs.Checkpoint.Around
import FingerprintSet.Proofs.Checkpoint.Canonical
import FingerprintSet.Proofs.Distance

/-!
# Resident sets

A resident set holds what is in its tree, whatever happens to any volume.  Its checkpoint is
one file with everything in ascending order.
-/

namespace FingerprintSet

open Storage Volume SortedFile Checkpoint

namespace ResidentSet

variable {before : Volume} {dir : Path} {name : String} {set : ResidentSet}
  {held : List Fingerprint} {latest staged : Option Generation}

/-- A resident set as a holder of fingerprints. -/
def holder (dir : Path) (name : String) : Holder dir name ResidentSet where
  keeper set := set.checkpoints
  seat checkpoints set := { set with checkpoints }
  Holds _ held set := set.held.toList.Perm held
  keeper_seat _ _ := rfl
  seat_seat _ _ _ := rfl
  seat_keeper _ := rfl
  holds_perm same perm := perm.trans same
  holds_seat _ perm := perm
  steady _ _ perm := perm

/-! ## Operations -/

theorem insert_perm (tree : Std.TreeSet Fingerprint) (fp : Fingerprint) :
    (tree.insert fp).toList.Perm
      (if tree.contains fp then tree.toList else fp :: tree.toList) := by
  have distinct : (if tree.contains fp then tree.toList else fp :: tree.toList).Nodup := by
    split
    · exact (ascending_toList tree).nodup
    · rename_i new
      rw [List.nodup_cons, Std.TreeSet.mem_toList, Std.TreeSet.mem_iff_contains]
      exact ⟨new, (ascending_toList tree).nodup⟩
  apply (List.perm_ext_iff_of_nodup (ascending_toList _).nodup distinct).mpr
  intro other
  rw [Std.TreeSet.mem_toList, Std.TreeSet.mem_insert, Std.compare_eq_iff_eq]
  split
  · rename_i known
    rw [Std.TreeSet.mem_toList]
    constructor
    · rintro (rfl | mem)
      · exact Std.TreeSet.mem_iff_contains.mpr known
      · exact mem
    · exact Or.inr
  · rw [List.mem_cons, Std.TreeSet.mem_toList, eq_comm]

theorem contains_iff (perm : set.held.toList.Perm held) (fp : Fingerprint) :
    set.contains fp = true ↔ fp ∈ held := by
  rw [contains, ← Std.TreeSet.mem_iff_contains, ← Std.TreeSet.mem_toList, perm.mem_iff]

theorem size_eq (perm : set.held.toList.Perm held) : set.size = held.length := by
  rw [size, ← Std.TreeSet.length_toList, perm.length_eq]

/-- Putting takes a fingerprint in and touches no file. -/
theorem puts (dir : Path) (name : String) : (holder dir name).Puts Nowhere put := by
  intro set held fp before _ perm
  refine Keeping.Runs.of_ok rfl (.refl before) ⟨contains_iff perm fp, rfl, ?_⟩
  apply (insert_perm set.held fp).trans
  split
  · exact perm
  · exact perm.cons fp

theorem held_eq (perm : set.held.toList.Perm held) : set.held.toList = sorted held := by
  apply (ascending_toList _).ext (sorted_ascending _)
  intro fp
  rw [mem_sorted, perm.mem_iff]

theorem leastDistance_eq (perm : set.held.toList.Perm held) :
    ∃ distance, LeastDistance.observeAll (sorted held) = .ok distance ∧
      set.leastDistance = .ok distance.result := by
  obtain ⟨distance, observed⟩ := LeastDistance.observeAll_ok (sorted_ascending held)
  refine ⟨distance, observed, ?_⟩
  rw [LeastDistance.observeAll] at observed
  rw [leastDistance, held_eq perm, observed]
  rfl

/-! ## Checkpoints -/

/-- Write everything that the set holds. -/
def fill (writer : Writer) : Keeping ResidentSet Writer := do
  let fps := (← get).held.toList
  writer.pushAll fps

theorem fill_runs {writer : Writer} (volumeSound : before.Sound) (taken : writer.Sound before []) :
    Keeping.Runs (fill writer) set before Nowhere (Only writer.file)
      (fun filled last final => last = set ∧ filled.Sound final set.held.toList ∧
        filled.target = writer.target) fun _ _ => True := by
  apply Keeping.Runs.getThen
  have pushes := Writer.pushAll_runs set.held.toList volumeSound taken
  rw [List.nil_append] at pushes
  exact Keeping.Runs.lift (pushes.mono fun _ _ _ holds => ⟨rfl, holds⟩) fun _ _ => trivial

/-- The one file holds what the set holds. -/
theorem filled_fills {staging : Staging} {start : Generation} {keeper : CheckpointKeeper}
    (volumeSound : before.Sound) (perm : set.held.toList.Perm held)
    (same : set.checkpoints = keeper) (blank : start.parts = [])
    (writes : Writes dir name before staging start []) :
    Keeping.Runs (staging.fileSegment fill 0) set before (Within (dir.child (stagingName name))) NoFile
      ((holder dir name).Fills held keeper start (sharesOf 0 held)) fun _ _ => True := by
  have first : 0 < UInt64.size := by decide
  have files := fileSegment_runs writes volumeSound List.not_mem_nil first
    (ascending_toList set.held) fun writer after afterSound _ taken _ => fill_runs afterSound taken
  apply (files.widen (fun _ here => here ▸ Path.within_child _ _) fun _ _ none => none).mono
  · rintro filled _ after - ⟨rfl, written⟩
    rw [Generation.add, blank, held_eq perm, List.nil_append, ← sharesOf_zero held] at written
    exact ⟨same, perm, _, written⟩
  · exact fun _ _ _ _ => trivial

theorem beginCheckpoint_eq (dir : Path) (name : String) :
    beginCheckpoint = (do
      let set ← get
      (holder dir name).begin set.seed 0 fun staging => staging.fileSegment fill 0) := by
  simp only [beginCheckpoint, Holder.begin, Staging.fileSegment, fill, bind_assoc, pure_bind]
  rfl

/-- Beginning a checkpoint writes what the set holds, or there is a reason not to. -/
theorem beginCheckpoint_ends (quiet : before.Quiet) (volumeSound : before.Sound)
    (keeps : (holder dir name).Keeps latest staged held before set) :
    Keeping.Ends beginCheckpoint set before fun result final after =>
      Changes (Within (dir.child (stagingName name))) NoFile before after ∧
        (holder dir name).Wrote set.seed 0 (sharesOf 0 held) latest staged held result final after := by
  rw [beginCheckpoint_eq dir name]
  apply Keeping.Ends.getThen
  apply Holder.begin_ends quiet volumeSound keeps (by decide) (spares_staging dir name) fun _ => id
  intro staging after start afterSound perm blank writes
  exact filled_fills afterSound perm rfl blank writes

/-- Committing publishes what was written, or there is a reason not to. -/
theorem commitCheckpoint_ends (quiet : before.Quiet) (volumeSound : before.Sound)
    (keeps : (holder dir name).Keeps latest staged held before set) :
    Keeping.Ends commitCheckpoint set before fun result final after =>
      Changes (Owned dir name) NoFile before after ∧
        (holder dir name).Committed latest staged held result final after :=
  Holder.commit_ends quiet volumeSound keeps

/-! ## Opening -/

variable {settings : Settings} {seed : UInt64}

/-- What is left to do once the keeper has taken charge. -/
theorem openAt_eq (settings : Settings) (seed : UInt64) (dir : Path) (name : String) :
    openAt settings seed dir name = (do
      let checkpoints ← CheckpointKeeper.openAt dir name settings.storage.syncWrites
      (holder dir name).restored put size { seed, held := ∅, checkpoints }) :=
  rfl

/-- A set that is opened holds what the last checkpoint holds. -/
theorem openAt_runs (quiet : before.Quiet) (volumeSound : before.Sound)
    (kept : Kept dir name latest before) (usable : isUsableName name = true)
    (room : ∀ last, latest = some last → last.number + 1 < generationLimit)
    (counted : ∀ last, latest = some last → last.Counted)
    (distinct : (Holder.published latest).Nodup) :
    Runs (openAt settings seed dir name) before (Owned dir name) NoFile fun set after =>
      (holder dir name).Keeps latest none (Holder.published latest) after set := by
  rw [openAt_eq]
  have takes := (CheckpointKeeper.openAt_runs volumeSound kept usable settings.storage.syncWrites
    room).mono fun _ _ changes holds => And.intro changes holds.1
  apply Runs.bind takes.ofNothing
  rintro keeper taken - ⟨taking, sound⟩
  have empty : (holder dir name).Keeps latest none [] taken { seed, held := ∅, checkpoints := keeper } :=
    ⟨List.Perm.refl _, sound⟩
  have restores := Holder.restored_runs (puts dir name) (fun _ _ _ perm => size_eq perm)
    (apart_nowhere dir name) (taking.quiet quiet) counted distinct (taking.sound volumeSound) empty
  exact restores.widen (fun _ own => own.resolve_right fun nowhere => nowhere) fun _ _ none => none

/-- Only a set with a usable name can be opened. -/
theorem usable_of_openAt (opened : (openAt settings seed dir name before).1.isOk = true) :
    isUsableName name = true := by
  refine Decidable.byContradiction fun unusable => ?_
  rw [openAt, CheckpointKeeper.openAt, (Bool.not_eq_true _).mp unusable] at opened
  contradiction

end ResidentSet

end FingerprintSet
