import Mathlib.Logic.Function.Basic
import FingerprintSet.Proofs.BoundedSet.Stages
import FingerprintSet.Proofs.Segment.Beside
import FingerprintSet.Proofs.Segment.Schedule

/-!
# Calls on a set

Any number of threads use all segments of a set while one of them writes a checkpoint.  A schedule
is a list of their steps in the order in which they are taken.

What is true between two steps is true of each segment and the calls on it alone: a step on one
segment leaves the others as they were, and all pages are out of the way of the checkpoint.
-/

namespace FingerprintSet

open Storage Volume SortedFile

namespace BoundedSet

/-- A segment and the calls that wait on it. -/
def lane (set : BoundedSet) (calls : Nat → List Segment.Call) (index : Nat) : Segment.Traffic where
  segment := set.segmentAt index
  calls := calls index

/-- A set in use. -/
structure Usage where
  set : BoundedSet
  /-- The calls that wait on each segment. -/
  calls : Nat → List Segment.Call := fun _ => []
  /-- Where the checkpoint has got to. -/
  stage : Stage := .waiting

/-- One step of some thread. -/
inductive Step
  /-- A step of a call on a segment.  A fingerprint has a segment of its own, whatever the index. -/
  | call (index : Nat) (move : Segment.Move)
  /-- A step of the checkpoint. -/
  | checkpoint
  deriving DecidableEq, Repr, Inhabited

namespace Step

/-- The fingerprint that a step puts. -/
def asked : Step → Option Fingerprint
  | .call _ move => move.asked
  | .checkpoint => none

/-- The fingerprints that the puts of a schedule take in, in the order of their steps. -/
def puts (steps : List Step) : List Fingerprint :=
  steps.filterMap asked

theorem puts_call (index : Nat) (move : Segment.Move) (steps : List Step) :
    puts (.call index move :: steps) = move.asked.toList ++ puts steps := by
  cases asks : move.asked <;> simp [puts, asked, asks]

end Step

/-- The segment that a step is taken on. -/
def place (set : BoundedSet) (index : Nat) : Segment.Move → Nat
  | .put fp | .contains fp => set.router.segment fp
  | _ => index

namespace Stage

/-- The first step has been taken. -/
def IsBegun : Stage → Prop
  | waiting => False
  | _ => True

/-- Where a step leads to. -/
def reached : Except Error Stage → Stage
  | .ok stage => stage
  | .error error => ended (.error error)

end Stage

namespace Usage

/-- A segment and its calls after a step on them. -/
def withLane (usage : Usage) (index : Nat) (lane : Segment.Traffic) : Usage where
  set := usage.set.putSegment index lane.segment
  calls := Function.update usage.calls index lane.calls
  stage := usage.stage

/-- Take one step.  Where there is no segment it changes nothing. -/
def perform (usage : Usage) : Step → StateM Volume Usage
  | .call index move => do
      let place := usage.set.place index move
      if place < usage.set.segments.size then
        let lane ← (usage.set.lane usage.calls place).perform usage.set.router.bucket move
        pure (usage.withLane place lane)
      else
        pure usage
  | .checkpoint => do
      let (result, set) ← (usage.stage.advance usage.set : StateM Volume _)
      pure { usage with set, stage := .reached result }

/-- Take the steps of a schedule. -/
def run : List Step → Usage → StateM Volume Usage
  | [], usage => pure usage
  | step :: steps, usage => do run steps (← usage.perform step)

variable {usage : Usage} {before : Volume}

theorem run_nil (usage : Usage) (before : Volume) : run [] usage before = (usage, before) :=
  rfl

theorem run_cons (step : Step) (steps : List Step) (usage : Usage) (before : Volume) :
    run (step :: steps) usage before =
      run steps (usage.perform step before).1 (usage.perform step before).2 :=
  rfl

theorem run_append (first second : List Step) (usage : Usage) (before : Volume) :
    run (first ++ second) usage before =
      run second (run first usage before).1 (run first usage before).2 := by
  induction first generalizing usage before with
  | nil => rfl
  | cons step first ih => rw [List.cons_append, run_cons, run_cons, ih]

theorem perform_call {index : Nat} {move : Segment.Move}
    (inside : usage.set.place index move < usage.set.segments.size) :
    usage.perform (.call index move) before =
      let place := usage.set.place index move
      let ended := (usage.set.lane usage.calls place).perform usage.set.router.bucket move before
      (usage.withLane place ended.1, ended.2) := by
  rw [perform, if_pos inside]
  rfl

theorem perform_checkpoint {result : Except Error Stage} {last : BoundedSet} {after : Volume}
    (advanced : usage.stage.advance usage.set before = ((result, last), after)) :
    usage.perform .checkpoint before =
      ({ usage with set := last, stage := .reached result }, after) := by
  have unfolded : usage.perform .checkpoint before =
      ({ usage with
          set := (usage.stage.advance usage.set before).1.2
          stage := .reached (usage.stage.advance usage.set before).1.1 },
        (usage.stage.advance usage.set before).2) := rfl
  rw [unfolded, advanced]

/-! ## The checkpoint alone -/

/-- Without steps of others in between, the steps of a checkpoint that come to an end do all that
there was to be done. -/
theorem run_alone (usage : Usage) (before : Volume) (count : Nat)
    (inside : ∀ index ∈ usage.stage.indexes usage.set, index < usage.set.segments.size)
    {result : Except Error Unit}
    (ended : (run (List.replicate count .checkpoint) usage before).1.stage = .ended result) :
    usage.stage.rest usage.set before =
      ((result, (run (List.replicate count .checkpoint) usage before).1.set),
        (run (List.replicate count .checkpoint) usage before).2) := by
  induction count generalizing usage before with
  | zero =>
      have isEnded : usage.stage = .ended result := ended
      rw [isEnded]
      rfl
  | succ count ih =>
      rw [List.replicate_succ, run_cons] at ended ⊢
      rcases advanced : usage.stage.advance usage.set before with ⟨⟨error | next, last⟩, after⟩ <;>
        rw [perform_checkpoint advanced] at ended ⊢ <;>
        rw [← Stage.rest_advance usage.stage usage.set before inside, Keeping.bind_apply, advanced]
      · exact ih _ after (fun _ none => absurd none List.not_mem_nil) ended
      · refine ih _ after ?_ ended
        by_cases isEnded : ∃ result, usage.stage = .ended result
        · obtain ⟨other, same⟩ := isEnded
          rw [same] at advanced
          cases advanced
          exact fun _ none => absurd none List.not_mem_nil
        · have goes := Stage.advance_goes usage.stage usage.set before
            fun other same => isEnded ⟨other, same⟩
          rw [Keeping.Ends, advanced] at goes
          intro index mem
          exact goes.count ▸ inside index (goes.indexes next rfl mem)

/-- A checkpoint that goes on comes to an end. -/
theorem exists_ended (usage : Usage) (before : Volume) :
    ∃ count result,
      (run (List.replicate count .checkpoint) usage before).1.stage = .ended result := by
  by_cases isEnded : ∃ result, usage.stage = .ended result
  · obtain ⟨result, same⟩ := isEnded
    exact ⟨0, result, same⟩
  · have goes := Stage.advance_goes usage.stage usage.set before
      fun result same => isEnded ⟨result, same⟩
    rw [Keeping.Ends] at goes
    rcases advanced : usage.stage.advance usage.set before with ⟨⟨error | next, last⟩, after⟩ <;>
      rw [advanced] at goes
    · refine ⟨1, .error error, ?_⟩
      rw [List.replicate_one, run_cons, perform_checkpoint advanced]
      rfl
    · have nearer := goes.nearer next rfl
      obtain ⟨count, result, ended⟩ := exists_ended { usage with set := last, stage := next } after
      refine ⟨count + 1, result, ?_⟩
      rw [List.replicate_succ, run_cons, perform_checkpoint advanced]
      exact ended
termination_by usage.stage.distance usage.set
decreasing_by exact nearer

end Usage

/-! ## What is known between steps -/

/-- Each segment of an arranged set and the calls on it are sound, and nothing is refused. -/
structure Busy (homes : Homes) (start volume : Volume) (entries : Nat → PageId → List Fingerprint)
    (calls : Nat → List Segment.Call) (set : BoundedSet) : Prop
    extends Arranged homes entries set where
  tree : volume.Sound
  begun : start.Quiet
  quiet : volume.Quiet
  lanes : ∀ index < set.segments.size,
    (set.lane calls index).Sound homes start volume (entries index)

variable {set : BoundedSet} {homes : Homes} {start before after : Volume} {index : Nat}
  {entries : Nat → PageId → List Fingerprint} {calls : Nat → List Segment.Call}

/-- On a set at rest no call waits. -/
theorem Sound.busy (sound : set.Sound homes before entries) (tree : before.Sound)
    (quiet : before.Quiet) : set.Busy homes before before entries (fun _ => []) :=
  { sound with
    tree := tree
    begun := quiet
    quiet := quiet
    lanes := by
      intro index inside
      have rests := sound.rests index inside
      exact
        { tree := tree
          quiet := id
          segment := rests.sound
          readers := rests.idle
          calls := fun _ none => absurd none List.not_mem_nil
          single := Nat.zero_le 1
          room := fun _ => rests.room } }

namespace Busy

/-- Work outside the directory of all pages that writes to no page disturbs no call. -/
theorem of_changes {paths : Path → Prop} {files : FileId → Prop}
    (busy : set.Busy homes start before entries calls) (changes : Changes paths files before after)
    (pages : ∀ id, files id → ¬IsPage before id)
    (outside : ∀ path, Within set.overflow path → ¬paths path) :
    set.Busy homes start after entries calls :=
  { busy with
    tree := changes.sound busy.tree
    quiet := changes.quiet busy.quiet
    lanes := by
      intro index inside
      apply (busy.lanes index inside).of_changes changes pages
      exact fun path within => outside path (busy.within_overflow inside within) }

/-- A step on one segment leaves the set busy, and the set gains what was put. -/
theorem step (busy : set.Busy homes start before entries calls)
    (inside : index < set.segments.size) {move : Segment.Move}
    (routed : ∀ fp, move.asked = some fp → set.router.segment fp = index)
    {ended : Segment.Traffic × Volume}
    (performed : (set.lane calls index).perform set.router.bucket move before = ended) :
    ∃ others, (set.putSegment index ended.1.segment).Busy homes start ended.2
        (given entries index others) (Function.update calls index ended.1.calls) ∧
      Changes (Within set.overflow) NoFile before ended.2 ∧
      ∀ fp, fp ∈ (set.putSegment index ended.1.segment).contents (given entries index others) ↔
        fp ∈ set.contents entries ∨ move.asked = some fp := by
  have here := busy.lanes index inside
  obtain ⟨others, leads⟩ := here.step (here.numbered busy.begun) move
  have turns := @Segment.Traffic.perform_turns before (set.lane calls index) homes.home move
  rw [busy.home, performed] at leads turns
  obtain ⟨asked, asks, holds⟩ := leads.gains busy.begun
  obtain rfl : asked = move.asked.toList := List.append_cancel_left (asks.symm.trans turns)
  have gains (fp : Fingerprint) : fp ∈ ended.1.segment.all others ↔
      fp ∈ (set.segmentAt index).all (entries index) ∨ move.asked = some fp :=
    (holds fp).trans (or_congr_right Option.mem_toList)
  have arranged := busy.toArranged.replaced inside leads.directory
    (fun fp mem => (holds fp).mp mem) fun fp mem => routed fp (Option.mem_toList.mp mem)
  have changes : Changes (Within set.overflow) NoFile before ended.2 :=
    leads.changes.mono (fun path mem => (busy.pages_below inside path mem).within)
      fun _ _ none => none
  refine ⟨others, ?_, changes, ?_⟩
  · exact
      { arranged with
        tree := leads.sound.tree
        begun := busy.begun
        quiet := leads.sound.quiet busy.begun
        lanes := by
          intro other otherIn
          rw [size_putSegment] at otherIn
          rw [lane, segmentAt_putSegment _ inside, given, Function.update_apply]
          by_cases same : other = index
          · rw [if_pos same, if_pos same, if_pos same]
            exact leads.sound.congr rfl (List.Perm.refl _)
          · rw [if_neg same, if_neg same, if_neg same]
            apply (busy.lanes other otherIn).of_changes leads.changes fun _ none => none.elim
            intro path within below
            exact busy.apart otherIn inside same within below.within }
  · intro fp
    rw [arranged.mem_contents_iff, busy.mem_contents_iff]
    have routers : (set.putSegment index ended.1.segment).router = set.router := rfl
    rw [routers, all_putSegment inside]
    by_cases same : set.router.segment fp = index
    · rw [if_pos same, gains, same]
    · rw [if_neg same]
      exact ⟨Or.inl, fun mem => mem.resolve_right fun asks => same (routed fp asks)⟩

end Busy

end BoundedSet

end FingerprintSet
