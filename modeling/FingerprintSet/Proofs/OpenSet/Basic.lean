import FingerprintSet.OpenSet
import FingerprintSet.Proofs.BoundedSet.Distance
import FingerprintSet.Proofs.BoundedSet.Opening
import FingerprintSet.Proofs.ResidentSet

/-!
# Sets of either kind

What holds of an operation on a set does not depend on its kind.  A set is sound while it holds
its fingerprints and its keeper is in charge of the checkpoints; every operation keeps it so,
and its answer is a matter of the fingerprints held.
-/

namespace FingerprintSet

open Storage Volume SortedFile Checkpoint

namespace OpenSet

variable {before : Volume} {dir : Path} {name : String} {set : OpenSet} {held : List Fingerprint}
  {latest staged : Option Generation}

/-! ## Both kinds as one holder -/

/-- The keeper of the checkpoints. -/
def keeper : OpenSet → CheckpointKeeper
  | bounded set => set.checkpoints
  | resident set => set.checkpoints

/-- The set with another keeper. -/
def seat (checkpoints : CheckpointKeeper) : OpenSet → OpenSet
  | bounded set => bounded { set with checkpoints }
  | resident set => resident { set with checkpoints }

/-- No file is in the way of a directory for pages. -/
def Clear (dir : Path) (name : String) (volume : Volume) : Prop :=
  ∀ id, volume.binding? (BoundedSet.overflowDirectory dir name) ≠ some (.file id)

theorem Clear.of_changes {after : Volume} (clear : Clear dir name before)
    (changes : Changes (Owned dir name) NoFile before after) : Clear dir name after := by
  intro id
  rw [changes.entry_eq _ fun owned =>
    (BoundedSet.apart_overflow dir name).owned _ owned (Path.within_self _)]
  exact clear id

/-- A set of either kind holds given fingerprints, each of them once. -/
def Holds (dir : Path) (name : String) (volume : Volume) (held : List Fingerprint) : OpenSet → Prop
  | bounded set => BoundedSet.HoldsUnder dir name volume held set
  | resident set => set.held.toList.Perm held ∧ Clear dir name volume

/-- A set of either kind has given fingerprints, each of them once, wherever its pages are. -/
def Has (volume : Volume) (held : List Fingerprint) : OpenSet → Prop
  | bounded set => set.Holds volume held
  | resident set => set.held.toList.Perm held

theorem Holds.has (holds : Holds dir name before held set) : set.Has before held := by
  cases set with
  | bounded set => exact holds.1
  | resident set => exact holds.1

/-- A set of either kind as a holder of fingerprints. -/
def holder (dir : Path) (name : String) : Holder dir name OpenSet where
  keeper := keeper
  seat := seat
  Holds := Holds dir name
  keeper_seat other set := by cases set <;> rfl
  seat_seat first second set := by cases set <;> rfl
  seat_keeper set := by cases set <;> rfl
  holds_perm := by
    intro volume held other set same holds
    cases set with
    | bounded set => exact (BoundedSet.holder dir name).holds_perm same holds
    | resident set => exact ⟨holds.1.trans same, holds.2⟩
  holds_seat := by
    intro volume held set other holds
    cases set with
    | bounded set => exact (BoundedSet.holder dir name).holds_seat other holds
    | resident set => exact holds
  steady := by
    intro before after held set volumeSound changes holds
    cases set with
    | bounded set => exact (BoundedSet.holder dir name).steady volumeSound changes holds
    | resident set => exact ⟨holds.1, holds.2.of_changes changes⟩

theorem keeps_bounded {set : BoundedSet} :
    (holder dir name).Keeps latest staged held before (bounded set) ↔
      (BoundedSet.holder dir name).Keeps latest staged held before set :=
  ⟨fun keeps => ⟨keeps.holds, keeps.keeper⟩, fun keeps => ⟨keeps.holds, keeps.keeper⟩⟩

theorem keeps_resident {set : ResidentSet} :
    (holder dir name).Keeps latest staged held before (resident set) ↔
      (ResidentSet.holder dir name).Keeps latest staged held before set ∧ Clear dir name before :=
  ⟨fun keeps => ⟨⟨keeps.holds.1, keeps.keeper⟩, keeps.holds.2⟩,
    fun ⟨keeps, clear⟩ => ⟨⟨keeps.holds, clear⟩, keeps.keeper⟩⟩

/-- A sound set, on a volume that refuses nothing. -/
structure Sound (dir : Path) (name : String) (latest staged : Option Generation)
    (held : List Fingerprint) (volume : Volume) (set : OpenSet) : Prop where
  tree : volume.Sound
  quiet : volume.Quiet
  keeps : (holder dir name).Keeps latest staged held volume set

theorem Sound.after {after : Volume} {last : OpenSet} {others : List Fingerprint}
    {first second : Option Generation} (sound : set.Sound dir name latest staged held before)
    {paths : Path → Prop} (changes : Changes paths NoFile before after)
    (keeps : (holder dir name).Keeps first second others after last) :
    last.Sound dir name first second others after :=
  ⟨changes.sound sound.tree, changes.quiet sound.quiet, keeps⟩

/-- No file is in the way of a directory for pages while the set is there. -/
theorem Sound.clear (sound : set.Sound dir name latest staged held before) :
    Clear dir name before := by
  cases set with
  | bounded set =>
      intro id
      rw [BoundedSet.overflow_isDirectory sound.tree sound.keeps.holds]
      exact fun other => nomatch other
  | resident set => exact sound.keeps.holds.2

/-! ## Operations -/

section Kinds

variable {α : Type} {onBounded : Keeping BoundedSet α} {onResident : Keeping ResidentSet α}
  {more : Except Error α → OpenSet → Volume → Prop}

theorem byKind_bounded_apply (set : BoundedSet) (before : Volume) :
    byKind onBounded onResident (bounded set) before =
      (((onBounded set before).1.1, bounded (onBounded set before).1.2), (onBounded set before).2) :=
  rfl

theorem byKind_resident_apply (set : ResidentSet) (before : Volume) :
    byKind onBounded onResident (resident set) before =
      (((onResident set before).1.1, resident (onResident set before).1.2),
        (onResident set before).2) :=
  rfl

theorem byKind_bounded {set : BoundedSet} {holds : Except Error α → BoundedSet → Volume → Prop}
    (ends : Keeping.Ends onBounded set before holds)
    (sub : ∀ result last after, holds result last after → more result (bounded last) after) :
    Keeping.Ends (byKind onBounded onResident) (bounded set) before more := by
  rw [Keeping.Ends] at ends
  exact Keeping.Ends.of_eq (byKind_bounded_apply set before) (sub _ _ _ ends)

theorem byKind_resident {set : ResidentSet} {holds : Except Error α → ResidentSet → Volume → Prop}
    (ends : Keeping.Ends onResident set before holds)
    (sub : ∀ result last after, holds result last after → more result (resident last) after) :
    Keeping.Ends (byKind onBounded onResident) (resident set) before more := by
  rw [Keeping.Ends] at ends
  exact Keeping.Ends.of_eq (byKind_resident_apply set before) (sub _ _ _ ends)

end Kinds

/-- A put answers whether the fingerprint was held, and then it is held. -/
theorem put_ends (sound : set.Sound dir name latest staged held before) (fp : Fingerprint) :
    Keeping.Ends (put fp) set before fun result last after => result = .ok (decide (fp ∈ held)) ∧
      last.Sound dir name latest staged (if fp ∈ held then held else fp :: held) after := by
  cases set with
  | bounded set =>
      apply byKind_bounded (Holder.put_ends (BoundedSet.puts dir name)
        (BoundedSet.apart_overflow dir name) sound.quiet sound.tree (keeps_bounded.mp sound.keeps) fp)
      rintro result last after ⟨changes, answer, keeps⟩
      exact ⟨answer, sound.after changes (keeps_bounded.mpr keeps)⟩
  | resident set =>
      obtain ⟨own, clear⟩ := keeps_resident.mp sound.keeps
      apply byKind_resident (Holder.put_ends (ResidentSet.puts dir name) (apart_nowhere dir name)
        sound.quiet sound.tree own fp)
      rintro result last after ⟨changes, answer, keeps⟩
      exact ⟨answer, sound.after changes
        (keeps_resident.mpr ⟨keeps, clear.of_changes changes.ofNothing⟩)⟩

/-- A membership test answers whether the fingerprint is held. -/
theorem contains_ends (sound : set.Sound dir name latest staged held before) (fp : Fingerprint) :
    Keeping.Ends (contains fp) set before fun result last after =>
      result = .ok (decide (fp ∈ held)) ∧ last.Sound dir name latest staged held after := by
  cases set with
  | bounded set =>
      have keeps := keeps_bounded.mp sound.keeps
      apply byKind_bounded (BoundedSet.contains_ends sound.quiet sound.tree keeps fp)
      rintro result last after ⟨changes, answer, keeps⟩
      exact ⟨answer, sound.after changes (keeps_bounded.mpr keeps)⟩
  | resident set =>
      have decides := ResidentSet.contains_iff sound.keeps.holds.1 fp
      apply Keeping.Ends.of_eq rfl
      refine ⟨congrArg Except.ok ?_, sound⟩
      rw [Bool.eq_iff_iff, decides, decide_eq_true_iff]

/-- The size of a set counts what it holds. -/
theorem size_eq (sound : set.Sound dir name latest staged held before) : set.size = held.length := by
  cases set with
  | bounded set => exact sound.keeps.holds.1.size_eq
  | resident set => exact ResidentSet.size_eq sound.keeps.holds.1

/-- The least distance is that of the fingerprints held in ascending order. -/
theorem leastDistance_ends (sound : set.Sound dir name latest staged held before) :
    Keeping.Ends leastDistance set before fun result last after =>
      (∃ distance, LeastDistance.observeAll (sorted held) = .ok distance ∧
        result = .ok distance.result) ∧ last.Sound dir name latest staged held after := by
  cases set with
  | bounded set =>
      have looks : Keeping.Ends BoundedSet.leastDistance set before fun result last after =>
          Changes Nowhere NoFile before after ∧ last = set ∧
            ∃ distance, LeastDistance.observeAll (sorted held) = .ok distance ∧
              result = .ok distance.result := by
        apply Keeping.Ends.of_runs (BoundedSet.leastDistance_runs sound.tree sound.keeps.holds.1)
        · rintro answer last after changes ⟨same, distance, observed, rfl⟩
          exact ⟨changes, same, distance, observed, rfl⟩
        · exact fun _ _ _ _ _ refused => absurd sound.quiet refused
      apply byKind_bounded looks
      rintro result last after ⟨changes, rfl, answer⟩
      have keeps := sound.keeps.of_changes sound.tree changes (apart_nowhere dir name) rfl
        ((holder dir name).steady sound.tree changes.ofNothing sound.keeps.holds)
      exact ⟨answer, sound.after changes keeps⟩
  | resident set =>
      obtain ⟨distance, observed, answer⟩ := ResidentSet.leastDistance_eq sound.keeps.holds.1
      apply Keeping.Ends.of_eq rfl
      exact ⟨⟨distance, observed, answer⟩, sound⟩

/-! ## Checkpoints -/

/-- The seed a set was opened with. -/
def seed : OpenSet → UInt64
  | bounded set => set.seed
  | resident set => set.seed

/-- How many top bits of a fingerprint name the segment it is in. -/
def segmentBits : OpenSet → Nat
  | bounded set => set.plan.segmentBits
  | resident _ => 0

/-- Beginning a checkpoint writes the files of all segments, or there is a reason not to. -/
theorem beginCheckpoint_writes (sound : set.Sound dir name latest staged held before) :
    Keeping.Ends beginCheckpoint set before fun result last after =>
      after.Sound ∧ after.Quiet ∧ (holder dir name).Wrote set.seed set.segmentBits
        (sharesOf set.segmentBits held) latest staged held result last after := by
  cases set with
  | bounded set =>
      apply byKind_bounded (BoundedSet.beginCheckpoint_ends sound.quiet sound.tree
        (keeps_bounded.mp sound.keeps))
      rintro result last after ⟨changes, wrote⟩
      exact ⟨changes.sound sound.tree, changes.quiet sound.quiet,
        wrote.wrapped fun keeps => keeps_bounded.mpr keeps⟩
  | resident set =>
      obtain ⟨own, clear⟩ := keeps_resident.mp sound.keeps
      apply byKind_resident (ResidentSet.beginCheckpoint_ends sound.quiet sound.tree own)
      rintro result last after ⟨changes, wrote⟩
      have clearStill := clear.of_changes (changes.mono (fun _ => owned_staging) fun _ _ none => none)
      exact ⟨changes.sound sound.tree, changes.quiet sound.quiet,
        wrote.wrapped fun keeps => keeps_resident.mpr ⟨keeps, clearStill⟩⟩

/-- No fingerprint is held twice. -/
theorem Sound.nodup (sound : set.Sound dir name latest staged held before) : held.Nodup := by
  cases set with
  | bounded set =>
      obtain ⟨homes, entries, inside, perm⟩ := sound.keeps.holds.1
      exact perm.nodup_iff.mp inside.nodup_contents
  | resident set => exact sound.keeps.holds.1.nodup_iff.mp (ascending_toList set.held).nodup

/-- Beginning a checkpoint writes what the set holds, or there is a reason not to. -/
theorem beginCheckpoint_ends (sound : set.Sound dir name latest staged held before) :
    Keeping.Ends beginCheckpoint set before fun result last after =>
      after.Sound ∧ after.Quiet ∧ (holder dir name).Begun latest staged held result last after := by
  apply (beginCheckpoint_writes sound).mono
  rintro result last after ⟨tree, quiet, wrote⟩
  exact ⟨tree, quiet, wrote.begun ((sharesOf_perm _ held).trans (sorted_perm sound.nodup))⟩

/-- Committing publishes what was written, or there is a reason not to. -/
theorem commitCheckpoint_ends (sound : set.Sound dir name latest staged held before) :
    Keeping.Ends commitCheckpoint set before fun result last after =>
      after.Sound ∧ after.Quiet ∧ (holder dir name).Committed latest staged held result last after := by
  cases set with
  | bounded set =>
      apply byKind_bounded (BoundedSet.commitCheckpoint_ends sound.quiet sound.tree
        (keeps_bounded.mp sound.keeps))
      rintro result last after ⟨changes, committed⟩
      exact ⟨changes.sound sound.tree, changes.quiet sound.quiet,
        committed.wrapped fun keeps => keeps_bounded.mpr keeps⟩
  | resident set =>
      obtain ⟨own, clear⟩ := keeps_resident.mp sound.keeps
      apply byKind_resident (ResidentSet.commitCheckpoint_ends sound.quiet sound.tree own)
      rintro result last after ⟨changes, committed⟩
      exact ⟨changes.sound sound.tree, changes.quiet sound.quiet,
        committed.wrapped fun keeps => keeps_resident.mpr ⟨keeps, clear.of_changes changes⟩⟩

/-! ## Opening and closing -/

/-- Settings and a name with which a set can be opened. -/
def Opens (settings : Settings) (name : String) : Prop :=
  match settings.kind with
  | .memory => isUsableName name = true
  | .disk => ∃ plan, BoundedSet.Opens settings name plan

/-- What is in a directory between the sets that were opened in it. -/
structure Rests (dir : Path) (name : String) (latest : Option Generation) (volume : Volume) :
    Prop where
  tree : volume.Sound
  quiet : volume.Quiet
  kept : Kept dir name latest volume
  clear : Clear dir name volume
  room : ∀ last, latest = some last → last.number + 1 < generationLimit

variable {settings : Settings} {seed : UInt64}

theorem openAt_memory (kind : settings.kind = .memory) :
    openAt settings seed dir name before =
      ((ResidentSet.openAt settings seed dir name before).1.map resident,
        (ResidentSet.openAt settings seed dir name before).2) := by
  rw [openAt, kind]
  exact map_apply _ _ before

theorem openAt_disk (kind : settings.kind = .disk) :
    openAt settings seed dir name before =
      ((BoundedSet.openAt settings seed dir name before).1.map bounded,
        (BoundedSet.openAt settings seed dir name before).2) := by
  rw [openAt, kind]
  exact map_apply _ _ before

/-- A set that is opened holds what the last checkpoint holds. -/
theorem openAt_ok (rests : Rests dir name latest before) (opens : Opens settings name)
    (counted : ∀ last, latest = some last → last.Counted)
    (distinct : (Holder.published latest).Nodup) :
    ∃ set after, openAt settings seed dir name before = (.ok set, after) ∧
      set.Sound dir name latest none (Holder.published latest) after := by
  cases kind : settings.kind with
  | memory =>
      rw [Opens, kind] at opens
      obtain ⟨set, after, opened, changes, keeps⟩ := (ResidentSet.openAt_runs rests.quiet rests.tree
        rests.kept opens rests.room counted distinct).of_quiet rests.quiet
      rw [openAt_memory kind, opened]
      refine ⟨resident set, after, rfl, changes.sound rests.tree, changes.quiet rests.quiet, ?_⟩
      exact keeps_resident.mpr ⟨keeps, rests.clear.of_changes changes⟩
  | disk =>
      rw [Opens, kind] at opens
      obtain ⟨plan, opens⟩ := opens
      obtain ⟨set, after, opened, changes, keeps⟩ := (BoundedSet.openAt_runs rests.quiet rests.tree
        rests.kept opens rests.clear rests.room counted distinct).of_quiet rests.quiet
      rw [openAt_disk kind, opened]
      refine ⟨bounded set, after, rfl, changes.sound rests.tree, changes.quiet rests.quiet, ?_⟩
      exact keeps_bounded.mpr keeps

theorem isOk_of_map {ε α β : Type} {f : α → β} {result : Except ε α}
    (mapped : (result.map f).isOk = true) : result.isOk = true := by
  cases result <;> trivial

/-- Only such a set can be opened. -/
theorem opens_of_openAt (rests : Rests dir name latest before)
    (opened : (openAt settings seed dir name before).1.isOk = true) : Opens settings name := by
  cases kind : settings.kind with
  | memory =>
      rw [openAt_memory kind] at opened
      rw [Opens, kind]
      exact ResidentSet.usable_of_openAt (isOk_of_map opened)
  | disk =>
      rw [openAt_disk kind] at opened
      rw [Opens, kind]
      rcases (BoundedSet.openAt_needs rests.tree rests.kept rests.room).cases with
        ⟨set, after, _, plan, opens⟩ | ⟨error, after, result, -⟩
      · exact ⟨plan, opens⟩
      · rw [result] at opened
        contradiction

/-- Closing a set leaves the checkpoints. -/
theorem close_rests (sound : set.Sound dir name latest staged held before)
    (room : ∀ last, latest = some last → last.number + 1 < generationLimit) :
    Rests dir name latest (close set before).2 := by
  cases set with
  | bounded set =>
      obtain ⟨_, after, closed, changes, free⟩ :=
        (BoundedSet.close_runs sound.tree sound.keeps.holds).of_quiet sound.quiet
      have unfolded : close (bounded set) before = set.close before := rfl
      rw [unfolded, closed]
      refine ⟨changes.sound sound.tree, changes.quiet sound.quiet, ?_, ?_, room⟩
      · exact (sound.keeps.keeper.of_changes sound.tree changes (BoundedSet.apart_overflow dir name)).kept
      · intro id
        rw [free _ (Path.within_self _)]
        exact fun none => nomatch none
  | resident set => exact ⟨sound.tree, sound.quiet, sound.keeps.keeper.kept, sound.clear, room⟩

end OpenSet

end FingerprintSet
