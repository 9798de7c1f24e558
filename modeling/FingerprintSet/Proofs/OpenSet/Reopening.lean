import FingerprintSet.Proofs.Checkpoint.Recovery
import FingerprintSet.Proofs.OpenSet.Lives

/-!
# Opening a directory of any contents

A new set is filled from the latest generation that can be loaded.  That no fingerprint is in the
files of two segments is seen only when the set has been filled, and then no other generation is
tried: a directory whose latest consistent generation is not the latest that can be loaded cannot
be opened.
-/

namespace FingerprintSet

open Storage Volume SortedFile Checkpoint

variable {before : Volume} {dir : Path} {name : String} {checkpoint : Checkpoint}

/-- The fingerprints in the files of a checkpoint, file by file. -/
def Checkpoint.contents (volume : Volume) (checkpoint : Checkpoint) : List Fingerprint :=
  listed volume checkpoint.directory checkpoint.manifest.segments

/-- A generation can be loaded, and no fingerprint is in the files of two of its segments. -/
structure Consistent (volume : Volume) (dir : Path) (name : String) (number : Nat)
    (checkpoint : Checkpoint) : Prop where
  stands : Stands volume dir name (number, checkpoint.directory)
  valid : Checkpoint.Valid volume checkpoint.directory number checkpoint.manifest
  apart : checkpoint.manifest.segments.Pairwise fun first second =>
    (first.held volume checkpoint.directory).Disjoint (second.held volume checkpoint.directory)

/-- A checkpoint is the latest of the consistent generations in a directory. -/
def LatestConsistent (volume : Volume) (dir : Path) (name : String) (checkpoint : Checkpoint) :
    Prop :=
  ∃ number, Consistent volume dir name number checkpoint ∧
    ∀ otherNumber other, Consistent volume dir name otherNumber other → otherNumber ≤ number

/-- A valid generation repeats a fingerprint exactly if two of its files share it. -/
theorem nodup_contents_iff {number : Nat}
    (valid : Checkpoint.Valid before checkpoint.directory number checkpoint.manifest) :
    (checkpoint.contents before).Nodup ↔
      checkpoint.manifest.segments.Pairwise fun first second =>
        (first.held before checkpoint.directory).Disjoint (second.held before checkpoint.directory) := by
  have each : ∀ entry ∈ checkpoint.manifest.segments, (entry.held before checkpoint.directory).Nodup :=
    fun entry mem => (valid.segments entry mem).ascending.nodup
  rw [Checkpoint.contents, listed, List.nodup_flatMap]
  exact and_iff_right each

/-- The error for a checkpoint that records more fingerprints than it fills a set with. -/
def Checkpoint.mismatch (checkpoint : Checkpoint) (fps : List Fingerprint) : Error :=
  .corrupt (checkpoint.directory.child manifestFile)
    (.restoredMismatch (sorted fps).length checkpoint.manifest.generation checkpoint.manifest.count)

/-! ## Directories -/

/-- A directory in which nothing but its generations can keep a set from being opened. -/
structure Ready (dir : Path) (name : String) (volume : Volume) : Prop where
  tree : volume.Sound
  quiet : volume.Quiet
  isDir : volume.IsDir dir
  staging : ∀ id, volume.binding? (dir.child (stagingName name)) ≠ some (.file id)
  numbered : Numbered volume dir name
  room : ∀ item, Stands volume dir name item → item.1 + 1 < generationLimit

theorem Ready.of_changes {paths : Path → Prop} {after : Volume} (ready : Ready dir name before)
    (changes : Changes paths NoFile before after) (apart : Apart dir name paths) :
    Ready dir name after where
  tree := changes.sound ready.tree
  quiet := changes.quiet ready.quiet
  isDir := changes.isDir apart.directory ready.isDir
  staging := by
    intro id
    rw [changes.entry_eq _ (apart.owned _ (owned_staging (Path.within_self _)))]
    exact ready.staging id
  numbered := by
    intro first second stands other
    exact ready.numbered first second ((stands_congr changes apart.spares).mp stands)
      ((stands_congr changes apart.spares).mp other)
  room item stands := ready.room item ((stands_congr changes apart.spares).mp stands)

/-- Where some generation is valid, there is a latest valid one. -/
theorem Ready.exists_latest (ready : Ready dir name before) {item : Nat × Path} {manifest : Manifest}
    (stands : Stands before dir name item)
    (valid : Checkpoint.Valid before item.2 item.1 manifest) :
    ∃ latest, Latest before dir name latest := by
  let keeper : CheckpointKeeper :=
    { directory := dir, name, durable := false, nextGeneration := 1, staged := none }
  obtain ⟨_, _, -, -, -, ⟨latest, -, isLatest⟩ | ⟨-, none⟩ | ⟨_, -, -, invalid⟩⟩ :=
    @CheckpointKeeper.recover_finds before keeper ready.tree ready.quiet ready.isDir ready.staging
  · exact ⟨latest, isLatest⟩
  · exact absurd stands (none item)
  · exact absurd valid (invalid item manifest stands)

theorem contents_congr {paths : Path → Prop} {after : Volume} {number : Nat}
    (stands : Stands before dir name (number, checkpoint.directory)) (sound : before.Sound)
    (changes : Changes paths NoFile before after) (spares : Spares dir name paths) :
    checkpoint.contents after = checkpoint.contents before :=
  listed_congr (stands.bytes?_eq sound changes spares)

/-- The latest consistent generation is the latest valid one, or that one repeats something. -/
theorem LatestConsistent.cases (consistent : LatestConsistent before dir name checkpoint)
    (ready : Ready dir name before) :
    (Latest before dir name checkpoint ∧ (checkpoint.contents before).Nodup) ∨
      ¬Latest before dir name checkpoint ∧
        ∃ newer, Latest before dir name newer ∧ ¬(newer.contents before).Nodup := by
  obtain ⟨number, ⟨stands, valid, apart⟩, highest⟩ := consistent
  obtain ⟨newer, newest⟩ := ready.exists_latest stands valid
  obtain ⟨newerNumber, newerStands, newerValid, above⟩ := id newest
  by_cases distinct : (newer.contents before).Nodup
  · -- The latest valid one is consistent as well, so the two have the same number.
    have below := highest newerNumber newer
      ⟨newerStands, newerValid, (nodup_contents_iff newerValid).mp distinct⟩
    have latest : Latest before dir name checkpoint :=
      ⟨number, stands, valid, fun item manifest other otherValid =>
        Nat.le_trans (above item manifest other otherValid) below⟩
    exact Or.inl ⟨latest, (nodup_contents_iff valid).mpr apart⟩
  · refine Or.inr ⟨fun latest => distinct ?_, newer, newest, distinct⟩
    rw [← latest.unique ready.numbered newest]
    exact (nodup_contents_iff valid).mpr apart

/-! ## Filling a new set -/

/-- Some fingerprints are not fit to fill a set with, because they repeat themselves. -/
def Checkpoint.Repeats (checkpoint : Checkpoint) (fps : List Fingerprint) (error : Error)
    (_ : Volume) : Prop :=
  ¬fps.Nodup ∧ error = checkpoint.mismatch fps

namespace Holder

variable {σ : Type} {holder : Holder dir name σ} {state : σ}

/-- A set was filled with fingerprints that do not repeat themselves. -/
def Filled (holder : Holder dir name σ) (fps : List Fingerprint) (state : σ) (volume : Volume) :
    Prop :=
  volume.Sound ∧ volume.Quiet ∧ fps.Nodup ∧ holder.Holds volume (sorted fps) state

/-- An empty set is filled with what the latest valid generation holds, and that fails exactly if
a fingerprint is in it twice. -/
theorem restored_meets {put : Fingerprint → Keeping σ Bool} {size : σ → Nat} {paths : Path → Prop}
    (puts : holder.Puts paths put)
    (sizes : ∀ volume held state, holder.Holds volume held state → size state = held.length)
    (ready : Ready dir name before) (path : (holder.keeper state).directory = dir)
    (named : (holder.keeper state).name = name) (empty : holder.Holds before [] state)
    (latest : Latest before dir name checkpoint) :
    Meets (holder.restored put size state) before
      (holder.Filled (checkpoint.contents before))
      (checkpoint.Repeats (checkpoint.contents before)) := by
  have finds := @CheckpointKeeper.recover_finds before (holder.keeper state) ready.tree ready.quiet
  rw [CheckpointKeeper.stagingDirectory, path, named] at finds
  obtain ⟨result, recovered, recovers, changes, -, ends⟩ := finds ready.isDir ready.staging
  obtain ⟨number, stands, valid, -⟩ := id latest
  have spares := spares_staging dir name
  have found : result = .ok (some checkpoint) := by
    rcases ends with ⟨other, rfl, isLatest⟩ | ⟨-, none⟩ | ⟨_, -, -, invalid⟩
    · rw [isLatest.unique ready.numbered latest]
    · exact absurd stands (none _)
    · exact absurd valid (invalid _ _ stands)
  subst found
  have owned := changes.mono (fun _ => owned_staging) fun _ _ none => none
  have recoveredSound := changes.sound ready.tree
  have still := (valid_congr stands ready.tree changes spares).mpr valid
  have restores := restore_meets puts sizes recoveredSound still
    (holder.steady ready.tree owned empty)
  have same : listed recovered checkpoint.directory checkpoint.manifest.segments =
      checkpoint.contents before := contents_congr stands ready.tree changes spares
  simp only [same] at restores
  have goesOn : holder.restored put size state before =
      Keeping.build state (checkpoint.restore put size) recovered := by
    rw [restored, Storage.bind_apply, recovers]
  apply Meets.comesTo goesOn
  apply Meets.mono restores
  · rintro set after ⟨more, distinct, -, holds⟩
    exact ⟨more.sound recoveredSound, more.quiet (changes.quiet ready.quiet), distinct, holds⟩
  · rintro error after ⟨-, repeated⟩
    exact repeated (changes.quiet ready.quiet)

end Holder

/-! ## Opening -/

variable {settings : Settings} {seed : UInt64}

/-- A resident set is filled with what the latest valid generation holds. -/
theorem ResidentSet.openAt_meets (ready : Ready dir name before) (usable : isUsableName name = true)
    (latest : Latest before dir name checkpoint) :
    Meets (openAt settings seed dir name) before
      ((holder dir name).Filled (checkpoint.contents before))
      (checkpoint.Repeats (checkpoint.contents before)) := by
  obtain ⟨number, stands, -⟩ := id latest
  rw [openAt_eq]
  apply (CheckpointKeeper.openAt_counts ready.tree ready.isDir usable settings.storage.syncWrites
    ready.room).quietly ready.quiet
  rintro _ counted changes ⟨next, -, rfl⟩
  have apart := apart_nowhere dir name
  rw [← contents_congr stands ready.tree changes apart.spares]
  exact Holder.restored_meets (puts dir name) (fun _ _ _ perm => size_eq perm)
    (ready.of_changes changes apart) rfl rfl (List.Perm.refl _)
    ((latest_congr ready.tree changes apart.spares).mpr latest)

/-- A bounded set is filled with what the latest valid generation holds. -/
theorem BoundedSet.openAt_meets {plan : Plan} (ready : Ready dir name before)
    (opens : Opens settings name plan) (clear : OpenSet.Clear dir name before)
    (latest : Latest before dir name checkpoint) :
    Meets (openAt settings seed dir name) before
      ((holder dir name).Filled (checkpoint.contents before))
      (checkpoint.Repeats (checkpoint.contents before)) := by
  obtain ⟨number, stands, -⟩ := id latest
  have shaped := Plan.compute_shaped opens.planned
  rw [openAt_eq opens.accepted opens.planned]
  apply (CheckpointKeeper.openAt_counts ready.tree ready.isDir opens.usable
    settings.storage.syncWrites ready.room).quietly ready.quiet
  rintro _ counted counting ⟨next, -, rfl⟩
  have readyCounted := ready.of_changes counting (apart_nowhere dir name)
  have buckets : ((routerFor plan seed).homes shaped.buckets).buckets = plan.bucketsPerSegment := rfl
  apply (layOut_runs readyCounted.tree readyCounted.isDir opens
    (clear.of_changes counting.ofNothing) buckets).quietly readyCounted.quiet
  rintro segments laid laying blank
  have apart := apart_overflow dir name
  have changes := counting.ofNothing.trans laying
  rw [← contents_congr stands ready.tree changes apart.spares]
  exact Holder.restored_meets (puts dir name) (fun _ _ _ holds => holds.1.size_eq)
    (readyCounted.of_changes laying apart) rfl rfl ⟨blank.holds shaped rfl rfl, rfl, rfl⟩
    ((latest_congr ready.tree changes apart.spares).mpr latest)

namespace OpenSet

/-- A new set answers for what the latest valid generation holds, unless that repeats something. -/
theorem openAt_meets (ready : Ready dir name before) (opens : Opens settings name)
    (clear : settings.kind = .disk → Clear dir name before)
    (latest : Latest before dir name checkpoint) :
    Meets (openAt settings seed dir name) before
      (fun set after => (checkpoint.contents before).Nodup ∧
        Answers (checkpoint.contents before) set after)
      (checkpoint.Repeats (checkpoint.contents before)) := by
  cases kind : settings.kind with
  | memory =>
      rw [Opens, kind] at opens
      have unfolded := @openAt_memory before dir name settings seed kind
      rcases (ResidentSet.openAt_meets ready opens latest).cases with
        ⟨set, after, opened, tree, quiet, distinct, holds⟩ | ⟨error, after, failed, repeats⟩
      · rw [opened] at unfolded
        have has : (resident set).Has after (sorted (checkpoint.contents before)) := holds
        exact Meets.of_ok unfolded ⟨distinct, has.answers tree quiet⟩
      · rw [failed] at unfolded
        exact Meets.of_error unfolded repeats
  | disk =>
      rw [Opens, kind] at opens
      obtain ⟨plan, opens⟩ := opens
      have unfolded := @openAt_disk before dir name settings seed kind
      rcases (BoundedSet.openAt_meets ready opens (clear kind) latest).cases with
        ⟨set, after, opened, tree, quiet, distinct, holds⟩ | ⟨error, after, failed, repeats⟩
      · rw [opened] at unfolded
        have has : (bounded set).Has after (sorted (checkpoint.contents before)) := holds.1
        exact Meets.of_ok unfolded ⟨distinct, has.answers tree quiet⟩
      · rw [failed] at unfolded
        exact Meets.of_error unfolded repeats

/-- In a directory of any contents a set can be opened if the latest consistent generation is the
latest that can be loaded at all, and then it answers for what that generation holds.  A later
generation that can be loaded makes opening fail. -/
theorem opens_latest_consistent (ready : Ready dir name before) (opens : Opens settings name)
    (clear : settings.kind = .disk → Clear dir name before)
    (consistent : LatestConsistent before dir name checkpoint) :
    (Latest before dir name checkpoint →
      ∃ set after, openAt settings seed dir name before = (.ok set, after) ∧
        Answers (checkpoint.contents before) set after) ∧
    (¬Latest before dir name checkpoint →
      ∃ newer, Latest before dir name newer ∧ ¬(newer.contents before).Nodup ∧
        (openAt settings seed dir name before).1 =
          .error (newer.mismatch (newer.contents before))) := by
  rcases consistent.cases ready with ⟨latest, distinct⟩ | ⟨stale, newer, latest, repeated⟩
  · refine ⟨fun _ => ?_, fun stale => absurd latest stale⟩
    rcases (openAt_meets ready opens clear latest).cases with
      ⟨set, after, opened, -, answers⟩ | ⟨error, after, -, repeats, -⟩
    · exact ⟨set, after, opened, answers⟩
    · exact absurd distinct repeats
  · refine ⟨fun latest => absurd latest stale, fun _ => ⟨newer, latest, repeated, ?_⟩⟩
    rcases (openAt_meets ready opens clear latest).cases with
      ⟨set, after, -, distinct, -⟩ | ⟨error, after, failed, -, rfl⟩
    · exact absurd distinct repeated
    · rw [failed]

/-! ## A generation behind one that was begun -/

theorem interrupted_ready : Ready [] "fps" interrupted where
  tree := interrupted_between.sound
  quiet _ _ := rfl
  isDir := interrupted_between.kept.isDir
  staging := interrupted_between.kept.staging
  numbered := interrupted_numbered
  room item stands := by
    rw [(interrupted_stands_iff item).mp stands]
    decide

theorem interrupted_consistent : LatestConsistent interrupted [] "fps" interruptedCheckpoint := by
  refine ⟨1, ⟨(interrupted_stands_iff _).mpr rfl, interrupted_valid, ?_⟩, ?_⟩
  · apply (nodup_contents_iff interrupted_valid).mp
    rw [Checkpoint.contents, interrupted_listed]
    decide
  · intro number other also
    exact Nat.le_of_eq (congrArg Prod.fst ((interrupted_stands_iff _).mp also.stands))

/-- The published generation is what a bounded set is opened with. -/
theorem opens_latest_consistent_interrupted :
    Ready [] "fps" interrupted ∧ Opens tightSettings "fps" ∧ Clear [] "fps" interrupted ∧
      LatestConsistent interrupted [] "fps" interruptedCheckpoint ∧
      Latest interrupted [] "fps" interruptedCheckpoint ∧
      ∃ set after, openAt tightSettings 1 [] "fps" interrupted = (.ok set, after) ∧
        Answers [3, 5, 9] set after := by
  have clear : Clear [] "fps" interrupted := by
    have free : interrupted.binding? ["fps.overflow"] = none := by decide +kernel
    intro id bound
    exact Option.some_ne_none _ (bound.symm.trans free)
  obtain ⟨set, after, opened, answers⟩ := (opens_latest_consistent interrupted_ready
    tightSettings_opens (fun _ => clear) interrupted_consistent).1 interrupted_latest
  rw [Checkpoint.contents, interrupted_listed] at answers
  exact ⟨interrupted_ready, tightSettings_opens, clear, interrupted_consistent, interrupted_latest,
    set, after, opened, answers⟩

/-! ## A generation behind one that repeats a fingerprint -/

/-- A process that publishes a generation. -/
def publishingLife : FingerprintSet.Life where
  faults := fun _ => none
  durable := false
  recovers := false
  commands := [.begin 7 0, .segment 0 [8], .stage, .commit]

/-- A process that publishes a generation with a fingerprint in two of its files, and is stopped
before it removes any older one. -/
def repeatingLife : FingerprintSet.Life where
  faults := fun tick => if tick < 22 then none else some .inputOutput
  durable := false
  recovers := false
  commands := [.begin 7 1, .segment 0 [8], .segment 1 [8], .stage, .commit]

/-- What the first of them leaves behind. -/
def single : Volume :=
  (history [] "fps" [publishingLife] {}).2

/-- What both of them leave behind. -/
def repeating : Volume :=
  (history [] "fps" [publishingLife, repeatingLife] {}).2.reschedule fun _ => none

/-- The generation that the first one published. -/
def singleGeneration : Generation where
  number := 1
  seed := 7
  segmentBits := 0
  parts := [{ index := 0, held := [8] }]

/-- The generation that the second one published. -/
def repeatingGeneration : Generation where
  number := 2
  seed := 7
  segmentBits := 1
  parts := [{ index := 0, held := [8] }, { index := 1, held := [8] }]

/-- What the two histories come to. -/
theorem histories_publish :
    (history [] "fps" [publishingLife] {}).1 = some singleGeneration ∧
      (history [] "fps" [publishingLife, repeatingLife] {}).1 = some repeatingGeneration := by
  decide +kernel

theorem lives_lawful : ∀ life ∈ [publishingLife, repeatingLife], Lawful [] 0 life.commands := by
  simp [publishingLife, repeatingLife, Lawful, Ascending]
  decide

theorem single_between : FingerprintSet.Between [] "fps" 1 (some singleGeneration) single := by
  have lawful (life : FingerprintSet.Life) (mem : life ∈ [publishingLife]) :
      Lawful [] 0 life.commands := lives_lawful life (List.mem_append_left [repeatingLife] mem)
  exact history_between (untouched_empty (by decide)) lawful (by decide)
    (Prod.ext histories_publish.1 rfl)

theorem repeating_between :
    FingerprintSet.Between [] "fps" 2 (some repeatingGeneration) repeating := by
  exact (history_between (untouched_empty (by decide)) lives_lawful (by decide)
    (Prod.ext histories_publish.2 rfl)).reschedule _

/-- What the first generation is found as. -/
def singleCheckpoint : Checkpoint :=
  singleGeneration.checkpoint [] "fps"

/-- What the second generation is found as. -/
def repeatingCheckpoint : Checkpoint :=
  repeatingGeneration.checkpoint [] "fps"

/-- What there is in the volume: the directories of both generations, with the files of the first as
they were, and none for pages. -/
theorem repeating_entries :
    repeating.children [] = ["fps.chkpt.00000001", "fps.chkpt.00000002"] ∧
      repeating.binding? singleCheckpoint.directory = some .directory ∧
      repeating.binding? repeatingCheckpoint.directory = some .directory ∧
      repeating.binding? ["fps.overflow"] = none ∧
      singleCheckpoint.contents repeating = [8] ∧
      ∀ file ∈ [manifestFile, segmentFile 0],
        (repeating.bytes? (singleCheckpoint.directory.child file)).map Array.toList =
          (single.bytes? (singleCheckpoint.directory.child file)).map Array.toList := by
  decide +kernel

theorem repeating_stands_iff (item : Nat × Path) : Stands repeating [] "fps" item ↔
    item = (1, singleCheckpoint.directory) ∨ item = (2, repeatingCheckpoint.directory) := by
  obtain ⟨children, first, second, -⟩ := repeating_entries
  have names : singleCheckpoint.directory = ["fps.chkpt.00000001"] ∧
      repeatingCheckpoint.directory = ["fps.chkpt.00000002"] := by decide +kernel
  rw [names.1] at first ⊢
  rw [names.2] at second ⊢
  rw [stands_iff, children]
  constructor
  · rintro ⟨entry, mem, number, path, -⟩
    rcases List.mem_pair.mp mem with rfl | rfl
    · exact Or.inl (Prod.ext (Option.some.inj number.symm) path)
    · exact Or.inr (Prod.ext (Option.some.inj number.symm) path)
  · rintro (rfl | rfl)
    · exact ⟨_, List.mem_pair.mpr (Or.inl rfl), by decide, rfl, first⟩
    · exact ⟨_, List.mem_pair.mpr (Or.inr rfl), by decide, rfl, second⟩

/-- The files of the first generation are as they were. -/
theorem repeating_single (file : String) (mem : file ∈ [manifestFile, segmentFile 0]) :
    repeating.bytes? (singleCheckpoint.directory.child file) =
      single.bytes? (singleCheckpoint.directory.child file) := by
  have injective : Function.Injective (Array.toList : Bytes → List UInt8) :=
    fun _ _ same => Array.toList_inj.mp same
  exact Option.map_injective injective (repeating_entries.2.2.2.2.2 file mem)

theorem single_valid : Checkpoint.Valid repeating singleCheckpoint.directory 1
    singleCheckpoint.manifest := by
  have kept := single_between.kept
  have there : Checkpoint.Valid single singleCheckpoint.directory 1 singleCheckpoint.manifest :=
    valid_of_complete (kept.complete _ rfl) (kept.sound _ rfl) (single_between.counted _ rfl)
  apply there.of_files (repeating_single _ List.mem_cons_self)
  intro entry mem
  rw [List.mem_singleton.mp mem]
  exact repeating_single _ (List.mem_pair.mpr (Or.inr rfl))

theorem single_contents : singleCheckpoint.contents repeating = [8] :=
  repeating_entries.2.2.2.2.1

theorem repeating_valid : Checkpoint.Valid repeating repeatingCheckpoint.directory 2
    repeatingCheckpoint.manifest :=
  have kept := repeating_between.kept
  valid_of_complete (kept.complete _ rfl) (kept.sound _ rfl) (repeating_between.counted _ rfl)

theorem repeating_contents : repeatingCheckpoint.contents repeating = [8, 8] :=
  listed_of_complete (repeating_between.kept.complete _ rfl)

theorem repeating_ready : Ready [] "fps" repeating where
  tree := repeating_between.sound
  quiet _ _ := rfl
  isDir := repeating_between.kept.isDir
  staging := repeating_between.kept.staging
  numbered := by
    intro first second stands other same
    rcases (repeating_stands_iff first).mp stands with rfl | rfl <;>
      rcases (repeating_stands_iff second).mp other with rfl | rfl
    · rfl
    · exact absurd same (by decide)
    · exact absurd same (by decide)
    · rfl
  room := by
    intro item stands
    rcases (repeating_stands_iff item).mp stands with rfl | rfl <;> decide

theorem repeating_latest : Latest repeating [] "fps" repeatingCheckpoint := by
  refine ⟨2, (repeating_stands_iff _).mpr (Or.inr rfl), repeating_valid, ?_⟩
  intro item manifest other _
  rcases (repeating_stands_iff item).mp other with rfl | rfl <;> decide

theorem single_consistent : LatestConsistent repeating [] "fps" singleCheckpoint := by
  refine ⟨1, ⟨(repeating_stands_iff _).mpr (Or.inl rfl), single_valid, ?_⟩, ?_⟩
  · apply (nodup_contents_iff single_valid).mp
    rw [single_contents]
    decide
  · intro number other also
    rcases (repeating_stands_iff _).mp also.stands with same | same
    · exact Nat.le_of_eq (congrArg Prod.fst same)
    · obtain ⟨rfl, directory⟩ := Prod.mk.inj same
      have distinct := (nodup_contents_iff also.valid).mpr also.apart
      have manifest := repeating_valid.unique (directory ▸ also.valid)
      have contents : other.contents repeating = [8, 8] := by
        rw [Checkpoint.contents, directory, ← manifest]
        exact repeating_contents
      rw [contents] at distinct
      exact absurd distinct (by decide)

/-- A set of neither kind can be opened, although the first generation is consistent. -/
theorem openAt_repeating_fails :
    LatestConsistent repeating [] "fps" singleCheckpoint ∧
      singleCheckpoint.contents repeating = [8] ∧
      (openAt residentSettings 1 [] "fps" repeating).1 =
        .error (repeatingCheckpoint.mismatch [8, 8]) ∧
      (openAt tightSettings 1 [] "fps" repeating).1 =
        .error (repeatingCheckpoint.mismatch [8, 8]) := by
  have clear : Clear [] "fps" repeating := by
    intro id bound
    exact Option.some_ne_none _ (bound.symm.trans repeating_entries.2.2.2.1)
  have fails {settings : Settings} (opens : Opens settings "fps") :
      (openAt settings 1 [] "fps" repeating).1 = .error (repeatingCheckpoint.mismatch [8, 8]) := by
    rcases (openAt_meets repeating_ready opens (fun _ => clear) repeating_latest).cases with
      ⟨set, after, -, distinct, -⟩ | ⟨error, after, failed, -, rfl⟩
    · rw [repeating_contents] at distinct
      exact absurd distinct (by decide)
    · rw [failed, repeating_contents]
  exact ⟨single_consistent, single_contents, fails residentSettings_opens,
    fails tightSettings_opens⟩

end OpenSet

end FingerprintSet
