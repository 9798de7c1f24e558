import FingerprintSet.Proofs.BoundedSet.Amid
import FingerprintSet.Proofs.OpenSet.Reopening

/-!
# Checkpoints of a set in use

A checkpoint is begun, written and committed while other threads put fingerprints into the set.  It
holds all whose puts came before it was begun and none whose puts came after it was written.  What
it holds is fixed from then on: its commit publishes just that, and just that is restored.
-/

namespace FingerprintSet

open Storage Volume SortedFile Checkpoint BoundedSet

namespace OpenSet

variable {dir : Path} {name : String} {latest staged : Option Generation}
  {held fps : List Fingerprint} {set : BoundedSet} {before : Volume} {generation : Generation}

/-- A checkpoint that waits to be committed. -/
def written (dir : Path) (name : String) (manifest : Manifest) : Checkpoint where
  directory := dir.child (stagingName name)
  manifest := manifest

/-- The same checkpoint once it is committed. -/
def published (dir : Path) (name : String) (manifest : Manifest) : Checkpoint where
  directory := dir.child (generationName name manifest.generation)
  manifest := manifest

/-- A committed checkpoint is loaded, and every set that is opened answers for what it holds. -/
structure Restores (dir : Path) (name : String) (manifest : Manifest) (fps : List Fingerprint)
    (volume : Volume) : Prop where
  loads : (load (published dir name manifest).directory manifest.generation volume).1 =
    .ok (published dir name manifest)
  contents : (published dir name manifest).contents volume = fps
  opens : ∀ settings seed, Opens settings name → ∃ set after,
    openAt settings seed dir name volume = (.ok set, after) ∧ Answers fps set after

/-- A commit publishes a checkpoint, unless its directory cannot be named or there is no number for
the next one. -/
structure Publishes (dir : Path) (name : String) (manifest : Manifest) (fps : List Fingerprint)
    (set : BoundedSet) (volume : Volume) : Prop where
  commits : (commitCheckpoint (bounded set) volume).1.1.isOk = true ↔
    FitsDirectory (generationName name manifest.generation) ∧
      manifest.generation + 1 < generationLimit
  restores : (commitCheckpoint (bounded set) volume).1.1.isOk = true →
    Restores dir name manifest fps (commitCheckpoint (bounded set) volume).2

/-- What is kept of a published generation restores it. -/
theorem restores_of_kept (rests : Rests dir name (some generation) before)
    (counted : generation.Counted) (distinct : generation.held.Nodup) :
    Restores dir name generation.manifest generation.held before where
  loads := by
    have complete := rests.kept.complete generation rfl
    obtain ⟨_, after, loaded, -, rfl⟩ := (load_runs rests.tree (rests.kept.sound generation rfl)
      counted complete).of_quiet rests.quiet
    exact congrArg Prod.fst loaded
  contents := listed_of_complete (rests.kept.complete generation rfl)
  opens settings seed opens := by
    obtain ⟨set, after, opened, sound⟩ := @openAt_ok before dir name (some generation) settings seed
      rests opens (fun _ same => Option.some.inj same ▸ counted) distinct
    have has := (holder dir name).holds_perm (sorted_perm distinct).symm sound.keeps.holds
    exact ⟨set, after, opened, (Holds.has has).answers sound.tree sound.quiet⟩

/-- What is there once a commit has been made. -/
theorem rests_of_keeps (tree : before.Sound) (quiet : before.Quiet)
    (keeps : (inUse dir name).Keeps (some generation) none held before set)
    (room : generation.number + 1 < generationLimit) : Rests dir name (some generation) before where
  tree := tree
  quiet := quiet
  kept := keeps.keeper.kept
  clear id := by
    rw [inUse_isDirectory keeps.holds]
    exact fun other => nomatch other
  room _ same := Option.some.inj same ▸ room

/-- What a set in use has staged is published by a commit. -/
theorem publishes_of_keeps (tree : before.Sound) (quiet : before.Quiet)
    (keeps : (inUse dir name).Keeps latest (some generation) held before set)
    (counted : generation.Counted) (distinct : generation.held.Nodup) :
    Publishes dir name generation.manifest generation.held set before := by
  have ends := Holder.commit_ends quiet tree keeps
  rw [Keeping.Ends] at ends
  obtain ⟨changes, committed⟩ := ends
  rcases result : (inUse dir name).commit set before with ⟨⟨error | _, last⟩, after⟩ <;>
    rw [result] at changes committed
  · have failed :
        commitCheckpoint (bounded set) before = ((.error error, bounded last), after) := by
      rw [commitCheckpoint, byKind_bounded_apply, BoundedSet.commitCheckpoint_eq dir name, result]
    have failure : (commitCheckpoint (bounded set) before).1.1.isOk ≠ true := by
      rw [failed]
      exact Bool.false_ne_true
    refine ⟨⟨fun isOk => absurd isOk failure, fun roomy => ?_⟩, fun isOk => absurd isOk failure⟩
    rcases committed with ⟨unfit, -⟩ | ⟨other, same, -, full, -⟩
    · exact absurd roomy.1 (unfit generation rfl)
    · obtain rfl := Option.some.inj same
      exact absurd roomy.2 full
  · have done : commitCheckpoint (bounded set) before = ((.ok (), bounded last), after) := by
      rw [commitCheckpoint, byKind_bounded_apply, BoundedSet.commitCheckpoint_eq dir name, result]
    obtain ⟨other, same, fits, room, keepsStill⟩ := committed
    obtain rfl := Option.some.inj same
    have rests := rests_of_keeps (changes.sound tree) (changes.quiet quiet) keepsStill room
    refine ⟨⟨fun _ => ⟨fits, room⟩, fun _ => ?_⟩, fun _ => ?_⟩ <;> rw [done]
    · rfl
    · exact restores_of_kept rests counted distinct

/-- When the calls and the checkpoint are over, the set is as sound as it was, and it holds all that
was put. -/
theorem sound_after_calls (sound : Sound dir name latest staged held before (bounded set))
    (earlier during : List Step) (waits : .checkpoint ∉ earlier) :
    let ended := Usage.run (earlier ++ .checkpoint :: during) { set } before
    ended.1.stage = .ended (.ok ()) → ended.1.calls = (fun _ => []) →
      ∃ generation, Sound dir name latest (some generation)
        (sorted (held ++ Step.puts earlier ++ Step.puts during)) ended.2 (bounded ended.1.set) := by
  intro ended stage idle
  obtain ⟨homes, -, entries, own, usage⟩ := Usage.run_leads sound.tree sound.quiet
    (keeps_bounded.mp sound.keeps) earlier during waits
  obtain ⟨generation, keeps⟩ := usage.keeps_rests stage idle
  exact ⟨generation, usage.busy.tree, usage.busy.quiet, keeps_bounded.mpr keeps⟩

/-- A checkpoint of a set at rest that is begun amid calls comes to an end, whatever steps come
between its own, and it is refused only for a reason that was there before.  What it holds is cut
between the moments at which it was begun and at which it ended, and its manifest counts it.
Whatever steps follow, a commit publishes it. -/
theorem checkpoint_amid_calls (sound : Sound dir name latest staged held before (bounded set))
    (earlier during : List Step) (waits : .checkpoint ∉ earlier)
    (few : (sorted (held ++ Step.puts earlier ++ Step.puts during)).length < UInt64.size) :
    let ended := Usage.run (earlier ++ .checkpoint :: during) { set } before
    (∃ count result,
      (Usage.run (List.replicate count .checkpoint) ended.1 ended.2).1.stage = .ended result) ∧
    ∀ result, ended.1.stage = .ended result →
      (result = .ok () ↔ ¬CheckpointKeeper.Hinders name latest staged) ∧
      (result = .ok () → ∃ manifest, ended.1.set.checkpoints.staged = some manifest ∧
        let fps := (written dir name manifest).contents ended.2
        Cut (held ++ Step.puts earlier) (held ++ Step.puts earlier ++ Step.puts during) fps ∧
        manifest.count = fps.length ∧
        ∀ later, Publishes dir name manifest fps (Usage.run later ended.1 ended.2).1.set
          (Usage.run later ended.1 ended.2).2) := by
  intro ended
  obtain ⟨homes, -, entries, own, usage⟩ := Usage.run_leads sound.tree sound.quiet
    (keeps_bounded.mp sound.keeps) earlier during waits
  refine ⟨Usage.exists_ended _ _, fun result stage => ?_⟩
  obtain ⟨isOk, holds⟩ := usage.ended stage
  refine ⟨isOk, fun succeeded => ?_⟩
  obtain ⟨generation, cut, keeps⟩ := holds succeeded
  have contents : (written dir name generation.manifest).contents ended.2 = generation.held :=
    listed_of_complete (keeps.keeper.inStaging generation rfl).2
  have counted : generation.Counted := by
    have among : generation.held ⊆ sorted (held ++ Step.puts earlier ++ Step.puts during) :=
      fun fp mem => mem_sorted.mpr (cut.among mem)
    have fewer := (List.subperm_of_subset cut.distinct among).length_le
    rw [generation.length_held] at fewer
    exact Nat.lt_of_le_of_lt fewer few
  refine ⟨generation.manifest, keeps.keeper.isStaged, ?_⟩
  dsimp only
  rw [contents]
  refine ⟨cut, generation.length_held.symm, fun later => ?_⟩
  obtain ⟨tree, quiet, keepsStill⟩ := usage.keeps_aside stage keeps later
  exact publishes_of_keeps tree quiet keepsStill counted cut.distinct

/-- The schedule of a set that is opened, if it is a bounded one. -/
def scheduled (steps : List Step) : Except Error OpenSet × Volume → Option (Usage × Volume)
  | (.ok (bounded set), before) => some (Usage.run steps { set } before)
  | _ => none

/-- The number and the fingerprints of the checkpoint that was written, if it was. -/
def captured (dir : Path) (name : String) (ended : Usage × Volume) :
    Option (Nat × List Fingerprint) :=
  match ended.1.stage, ended.1.set.checkpoints.staged with
  | .ended (.ok ()), some manifest =>
      some (manifest.generation, (written dir name manifest).contents ended.2)
  | _, _ => none

theorem captured_eq_some {ended : Usage × Volume} {number : Nat}
    (isCaptured : captured dir name ended = some (number, fps)) :
    ended.1.stage = .ended (.ok ()) ∧ ∀ manifest, ended.1.set.checkpoints.staged = some manifest →
      manifest.generation = number ∧ (written dir name manifest).contents ended.2 = fps := by
  unfold captured at isCaptured
  split at isCaptured
  · rename_i manifest stage isStaged
    obtain ⟨rfl, rfl⟩ := Prod.mk.inj (Option.some.inj isCaptured)
    refine ⟨stage, fun other same => ?_⟩
    obtain rfl := Option.some.inj (isStaged.symm.trans same)
    exact ⟨rfl, rfl⟩
  · contradiction

/-- Of two fingerprints that are put after the first segment was captured, the checkpoint holds the
one whose segment was captured later. -/
theorem checkpoint_amid_calls_split :
    let earlier : List Step := [.call 0 (.put 3)]
    let during : List Step :=
      [.checkpoint, .checkpoint, .call 0 (.put 5), .call 1 (.put 9223372036854775809)] ++
        List.replicate 9 .checkpoint
    ∃ set before, openAt tightSettings 7 [] "fps" {} = (.ok (bounded set), before) ∧
      Sound [] "fps" none none [] before (bounded set) ∧ .checkpoint ∉ earlier ∧
      (sorted ([] ++ Step.puts earlier ++ Step.puts during)).length < UInt64.size ∧
      let ended := Usage.run (earlier ++ .checkpoint :: during) { set } before
      ended.1.stage = .ended (.ok ()) ∧ ∃ manifest,
        ended.1.set.checkpoints.staged = some manifest ∧ manifest.count = 2 ∧
          Restores [] "fps" manifest [3, 9223372036854775809]
            (commitCheckpoint (bounded ended.1.set) ended.2).2 := by
  intro earlier during
  have waits : .checkpoint ∉ earlier := by decide
  have few : (sorted ([] ++ Step.puts earlier ++ Step.puts during)).length < UInt64.size := by
    decide +kernel
  have evaluated :
      (scheduled (earlier ++ .checkpoint :: during) (openAt tightSettings 7 [] "fps" {})).bind
        (captured [] "fps") = some (1, [3, 9223372036854775809]) := by decide +kernel
  have quiet : Site.root.volume.Quiet := fun _ _ => rfl
  have rests : Rests [] "fps" none {} := Site.root.rests quiet
  obtain ⟨set, before, opened, sound⟩ : ∃ set before,
      openAt tightSettings 7 [] "fps" {} = (.ok set, before) ∧
        Sound [] "fps" none none [] before set :=
    openAt_ok rests tightSettings_opens (fun _ none => nomatch none) List.nodup_nil
  rw [opened] at evaluated
  cases set with
  | resident set => contradiction
  | bounded set =>
      rw [scheduled, Option.bind_some] at evaluated
      obtain ⟨stage, holds⟩ := captured_eq_some evaluated
      obtain ⟨-, ends⟩ := checkpoint_amid_calls sound earlier during waits few
      obtain ⟨manifest, isStaged, -, counted, publishes⟩ := (ends _ stage).2 rfl
      obtain ⟨number, contents⟩ := holds manifest isStaged
      rw [contents] at counted publishes
      have publishes := publishes []
      rw [Usage.run_nil] at publishes
      dsimp only at publishes
      have roomy : FitsDirectory (generationName "fps" manifest.generation) ∧
          manifest.generation + 1 < generationLimit := by
        rw [number]
        exact ⟨⟨by decide +kernel, by decide +kernel⟩, by decide⟩
      have restores := publishes.restores (publishes.commits.mpr roomy)
      exact ⟨set, before, opened, sound, waits, few, stage, manifest, isStaged, counted, restores⟩

end OpenSet

end FingerprintSet
