import FingerprintSet.Proofs.BoundedSet.Turns
import FingerprintSet.Proofs.OpenSet.Basic

/-!
# A set of either kind turn by turn

What putting, beginning and committing leave of a set of either kind when any step of them may be
refused, and what is known of a set as it was opened.
-/

namespace FingerprintSet

open Storage Volume SortedFile Checkpoint

/-! ## Resident sets -/

namespace ResidentSet

variable {before : Volume} {dir : Path} {name : String} {most few many : Nat} {set : ResidentSet}

/-- Nothing that fails has a part in what a resident set is. -/
def temper (dir : Path) (name : String) : (holder dir name).Temper where
  Calm _ _ _ := True
  mono _ _ := trivial
  seat _ _ := trivial
  steady _ _ _ := trivial
  reschedule _ _ := trivial

theorem keepsCalm (dir : Path) (name : String) (limit : Nat) :
    Holder.KeepsCalm (temper dir name) Nowhere limit put :=
  fun _ _ _ before _ _ _ => Keeping.Runs.of_ok rfl (.refl before) ⟨rfl, trivial⟩

/-- Writing fingerprints out leaves the set as it was. -/
theorem fill_leaves (writer : Writer) : Keeping.Leaves (fill writer) set fun _ last => last = set :=
  Keeping.Leaves.getThen (Keeping.Leaves.lift fun _ => rfl)

/-- The one file is written, or it cannot be. -/
theorem file_fills {staging : Staging} {start : Generation} (volumeSound : before.Sound)
    (writes : Writes dir name before staging start []) :
    Keeping.Runs (staging.fileSegment fill 0) set before
      (fun path => Below (dir.child (stagingName name)) path ∨ Nowhere path) NoFile
      (fun filled last after =>
        (holder dir name).FillLeaves (temper dir name) many set.checkpoints last after ∧
        ∃ generation tried, Writes dir name after filled generation tried ∧
          generation.number = start.number)
      fun last after =>
        (holder dir name).FillLeaves (temper dir name) many set.checkpoints last after := by
  have first : 0 < UInt64.size := by decide
  have files := fileSegment_runs writes volumeSound List.not_mem_nil first
    (ascending_toList set.held) fun writer after afterSound _ taken _ => fill_runs afterSound taken
  have inStaging (path : Path)
      (same : At ((dir.child (stagingName name)).child (segmentFile 0)) path) :
      Below (dir.child (stagingName name)) path ∨ Nowhere path :=
    Or.inl (below_iff.mpr ⟨segmentFile 0, [], same⟩)
  have both := files.leaving (fileSegment_leaves fill_leaves 0 staging)
  apply (both.widen inStaging fun _ _ none => none).mono
  · rintro filled _ after - ⟨⟨-, written⟩, rfl⟩
    exact ⟨⟨rfl, trivial⟩, _, _, written, rfl⟩
  · rintro _ after - ⟨-, rfl⟩
    exact ⟨rfl, trivial⟩

theorem fill_timely (writer : Writer) : Keeping.Timely (fill writer) :=
  Keeping.Timely.getThen fun set => .lift (Writer.pushAll_timely writer set.held.toList)

theorem beginCheckpoint_apply (dir : Path) (name : String) (set : ResidentSet) (before : Volume) :
    beginCheckpoint set before =
      (holder dir name).begin set.seed 0 (fun staging => staging.fileSegment fill 0) set before := by
  rw [beginCheckpoint_eq dir name, Keeping.getThen_apply]

/-- Beginning a checkpoint while none waits. -/
theorem beginCheckpoint_turned
    (orderly : (holder dir name).Orderly (temper dir name) most few before set)
    (idle : set.checkpoints.staged = none) (room : most + 1 < generationLimit) (more : few ≤ many) :
    Keeping.Ends beginCheckpoint set before fun result final after =>
      Changes (fun path => Within (dir.child (stagingName name)) path ∨ Nowhere path) NoFile
        before after ∧
        (holder dir name).Turned (temper dir name) most many set before result final after := by
  apply Keeping.Ends.comesTo (beginCheckpoint_apply dir name set before)
  apply Holder.begin_turned orderly idle room more (apart_nowhere dir name)
  exact fun staging keeper middle number sound _ writes => file_fills sound writes

theorem beginCheckpoint_busy (busy : set.checkpoints.staged ≠ none) (before : Volume) :
    beginCheckpoint set before = ((.error (.protocol .alreadyStaged), set), before) := by
  rw [beginCheckpoint_apply [] ""]
  exact Holder.begin_busy busy before

theorem beginCheckpoint_timely (idle : set.checkpoints.staged = none) (before : Volume) :
    Timely (beginCheckpoint set before).1.1 := by
  rw [beginCheckpoint_apply [] ""]
  exact Holder.begin_timely idle (fileSegment_timely fill_timely 0) before

variable {settings : Settings} {seed : UInt64}

/-- A set that is opened can be used from then on, whatever it was opened on. -/
theorem openAt_orderly (admits : Admits dir name most before) (room : most + 1 < generationLimit) :
    Meets (openAt settings seed dir name) before
      (fun set after => (holder dir name).Orderly (temper dir name) most few after set ∧
        set.checkpoints.staged = none)
      fun _ _ => True := by
  rw [openAt_eq]
  apply Meets.bind (CheckpointKeeper.openAt_takes admits room _)
  rintro keeper taken ⟨takenSound, standing, fresh, -⟩
  apply Meets.mono
  · have room : 0 + 2 * UInt64.size < numberLimit := by decide
    exact Holder.restored_orderly (keepsCalm dir name numberLimit) (apart_nowhere dir name) room
      takenSound standing fresh trivial
  · exact fun set after ⟨orderly, idle⟩ => ⟨⟨orderly.tree, orderly.charge, trivial⟩, idle⟩
  · exact fun _ _ _ => trivial

end ResidentSet

/-! ## Sets of either kind -/

namespace OpenSet

variable {before : Volume} {dir : Path} {name : String} {most spent : Nat} {set : OpenSet}

/-- What a set of either kind keeps of itself. -/
def temper (dir : Path) (name : String) : (holder dir name).Temper where
  Calm spent volume
    | bounded set => set.Calm dir name spent volume
    | resident _ => True
  mono {_ _ _ set} below calm := by
    cases set with
    | bounded set => exact (BoundedSet.temper dir name).mono below calm
    | resident set => trivial
  seat {_ _ set} other calm := by
    cases set with
    | bounded set => exact (BoundedSet.temper dir name).seat other calm
    | resident set => trivial
  steady {_ _ _ set} sound changes calm := by
    cases set with
    | bounded set => exact (BoundedSet.temper dir name).steady sound changes calm
    | resident set => trivial
  reschedule {_ _ set} faults calm := by
    cases set with
    | bounded set => exact (BoundedSet.temper dir name).reschedule faults calm
    | resident set => trivial

/-- A set that any operation may come to next. -/
def Orderly (dir : Path) (name : String) (most spent : Nat) (volume : Volume) (set : OpenSet) : Prop :=
  (holder dir name).Orderly (temper dir name) most spent volume set

theorem orderly_bounded {set : BoundedSet} :
    (bounded set).Orderly dir name most spent before ↔
      (BoundedSet.holder dir name).Orderly (BoundedSet.temper dir name) most spent before set :=
  ⟨fun orderly => ⟨orderly.tree, orderly.charge, orderly.calm⟩,
    fun orderly => ⟨orderly.tree, orderly.charge, orderly.calm⟩⟩

theorem orderly_resident {set : ResidentSet} :
    (resident set).Orderly dir name most spent before ↔
      (ResidentSet.holder dir name).Orderly (ResidentSet.temper dir name) most spent before set :=
  ⟨fun orderly => ⟨orderly.tree, orderly.charge, trivial⟩,
    fun orderly => ⟨orderly.tree, orderly.charge, trivial⟩⟩

/-- A put leaves a set orderly, whether or not it fails, and the keeper as it was. -/
theorem put_orderly (orderly : set.Orderly dir name most spent before)
    (few : spent + 2 < numberLimit) (fp : Fingerprint) :
    Keeping.Ends (put fp) set before fun _ last after =>
      Changes (Within (BoundedSet.overflowDirectory dir name)) NoFile before after ∧
        last.Orderly dir name most (spent + 2) after ∧ last.keeper = set.keeper := by
  cases set with
  | bounded set =>
      apply byKind_bounded (Holder.put_orderly (BoundedSet.keepsCalm dir name)
        (BoundedSet.apart_overflow dir name) (orderly_bounded.mp orderly) few fp)
      rintro _ last after ⟨changes, own, same⟩
      exact ⟨changes, orderly_bounded.mpr own, same⟩
  | resident set =>
      apply byKind_resident (Holder.put_orderly (ResidentSet.keepsCalm dir name numberLimit)
        (apart_nowhere dir name) (orderly_resident.mp orderly) few fp)
      rintro _ last after ⟨changes, own, same⟩
      exact ⟨changes.ofNothing, orderly_resident.mpr own, same⟩

theorem beginCheckpoint_busy (busy : set.keeper.staged ≠ none) (before : Volume) :
    beginCheckpoint set before = ((.error (.protocol .alreadyStaged), set), before) := by
  cases set with
  | bounded set =>
      rw [beginCheckpoint, byKind_bounded_apply, BoundedSet.beginCheckpoint_busy busy]
  | resident set =>
      rw [beginCheckpoint, byKind_resident_apply, ResidentSet.beginCheckpoint_busy busy]

/-- While nothing waits, beginning comes at the right time. -/
theorem beginCheckpoint_timely (idle : set.keeper.staged = none) (before : Volume) :
    Timely (beginCheckpoint set before).1.1 := by
  cases set with
  | bounded set => exact BoundedSet.beginCheckpoint_timely idle before
  | resident set => exact ResidentSet.beginCheckpoint_timely idle before

/-- Beginning a checkpoint while none waits. -/
theorem beginCheckpoint_turned (orderly : set.Orderly dir name most spent before)
    (idle : set.keeper.staged = none) (room : most + 1 < generationLimit)
    (few : spent + BoundedSet.segmentLimit < numberLimit) :
    Keeping.Ends beginCheckpoint set before fun result final after =>
      Changes (BoundedSet.Touches dir name) NoFile before after ∧
        (holder dir name).Turned (temper dir name) most (spent + BoundedSet.segmentLimit) set before
          result final after := by
  cases set with
  | bounded set =>
      apply byKind_bounded
        (BoundedSet.beginCheckpoint_turned (orderly_bounded.mp orderly) idle room few)
      rintro result last after ⟨changes, own, rest⟩
      exact ⟨changes, orderly_bounded.mpr own, rest⟩
  | resident set =>
      apply byKind_resident (ResidentSet.beginCheckpoint_turned (orderly_resident.mp orderly) idle
        room (Nat.le_add_right spent BoundedSet.segmentLimit))
      rintro result last after ⟨changes, own, rest⟩
      refine ⟨changes.mono ?_ fun _ _ none => none, orderly_resident.mpr own, rest⟩
      exact fun path inside => Or.inl (inside.resolve_right fun nowhere => nowhere)

/-- Committing is a matter of the keeper alone. -/
theorem commitCheckpoint_apply (dir : Path) (name : String) (set : OpenSet) (before : Volume) :
    commitCheckpoint set before = (holder dir name).commit set before := by
  rw [Holder.commit_apply]
  cases set with
  | bounded set =>
      have commits : BoundedSet.commitCheckpoint set before = _ :=
        (BoundedSet.holder dir name).commit_apply set before
      rw [commitCheckpoint, byKind_bounded_apply, commits]
      rfl
  | resident set =>
      have commits : ResidentSet.commitCheckpoint set before = _ :=
        (ResidentSet.holder dir name).commit_apply set before
      rw [commitCheckpoint, byKind_resident_apply, commits]
      rfl

variable {settings : Settings} {seed : UInt64}

/-- A set that is opened can be used from then on, whatever it was opened on. -/
theorem openAt_orderly (admits : Admits dir name most before) (room : most + 1 < generationLimit) :
    Meets (openAt settings seed dir name) before
      (fun set after => set.Orderly dir name most BoundedSet.openingCost after ∧
        set.keeper.staged = none)
      fun _ _ => True := by
  cases kind : settings.kind with
  | memory =>
      have unfolded := @openAt_memory before dir name settings seed kind
      rcases (ResidentSet.openAt_orderly admits room).cases with
        ⟨set, after, result, own, idle⟩ | ⟨error, after, result, -⟩ <;> rw [result] at unfolded
      · exact Meets.of_ok unfolded ⟨orderly_resident.mpr own, idle⟩
      · exact Meets.of_error unfolded trivial
  | disk =>
      have unfolded := @openAt_disk before dir name settings seed kind
      rcases (BoundedSet.openAt_orderly admits room).cases with
        ⟨set, after, result, own, idle⟩ | ⟨error, after, result, -⟩ <;> rw [result] at unfolded
      · exact Meets.of_ok unfolded ⟨orderly_bounded.mpr own, idle⟩
      · exact Meets.of_error unfolded trivial

end OpenSet

end FingerprintSet
