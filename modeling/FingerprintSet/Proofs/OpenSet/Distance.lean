import FingerprintSet.Proofs.BoundedSet.Watching
import FingerprintSet.Proofs.OpenSet.Confined
import FingerprintSet.Proofs.OpenSet.Lives

/-!
# The least distance of a set

Asking for the least distance gives that of the fingerprints held, and it is as if nothing had been
asked: the set is the same and so is the volume but for the time that has passed, and time alone
makes no difference to anything that is asked later.
-/

namespace FingerprintSet

open Storage Volume Storage.Region Checkpoint

/-! ## Whole volumes -/

/-- All of a volume. -/
def Storage.Region.whole : Region where
  reads _ := True
  writes _ := True
  others _ := False
  writes_reads _ _ := trivial
  reads_above _ _ _ _ := trivial
  writes_within _ _ _ _ := trivial

theorem whole_serves (dir : Path) (name : String) : whole.Serves dir name where
  directory := trivial
  entries _ _ := trivial

variable {before : Volume} {dir : Path} {name : String}

/-- A quiet volume is the same at any time. -/
theorem whole_alike (sound : before.Sound) {clock : Nat} (quiet : before.Quiet)
    (still : Quiet { before with clock }) : whole.Alike { before with clock } before where
  entry_eq _ _ := rfl
  read_eq _ _ := rfl
  size_eq := rfl
  refusals_eq ticks :=
    (still _ (Nat.le_add_right clock ticks)).trans (quiet _ (Nat.le_add_right _ ticks)).symm
  there _ _ outside := absurd trivial outside
  noFile _ _ outside := absurd trivial outside
  own path id _ bound := ⟨fun impossible => impossible, sound.stored path id bound⟩
  known _ impossible := impossible.elim

theorem PageStore.Sound.inWhole {store : PageStore} {entries : PageId → List Fingerprint}
    (sound : store.Sound before entries) : whole.stores.holds before.contents.size store where
  directory := trivial
  pages _ _ := trivial
  opened := by
    rintro ⟨page, handle⟩ mem id same
    obtain ⟨-, file, rfl, known, -⟩ := sound.opened page handle mem
    obtain rfl := Handle.file.inj same
    exact ⟨fun impossible => impossible, known⟩

theorem BoundedSet.Holds.inWhole {set : BoundedSet} {held : List Fingerprint}
    (holds : set.Holds before held) (keeps : set.checkpoints.Serves dir name) :
    set.In whole dir name set.segments.size before.contents.size := by
  obtain ⟨homes, entries, sound, -⟩ := holds
  exact
    { checkpoints := keeps
      overflow := trivial
      count_eq := rfl
      routes := sound.toArranged.segment_lt
      segments := fun index inside => (sound.rests index inside).sound.store.inWhole }

namespace OpenSet

variable {set : OpenSet} {held : List Fingerprint} {latest staged : Option Generation}

theorem Sound.inWhole (sound : set.Sound dir name latest staged held before) :
    (whole.sets dir name).holds before.contents.size set := by
  have serves : set.keeper.Serves dir name := ⟨sound.keeps.keeper.path, sound.keeps.keeper.named⟩
  cases set with
  | bounded set => exact ⟨_, sound.keeps.holds.1.inWhole serves⟩
  | resident set => exact serves

/-! ## Later answers -/

/-- What is answered to one command after the other, whether or not it is a failure. -/
def askAll : List Command → Keeping OpenSet (List (Except Error BoundedSet.Reply))
  | [] => pure []
  | command :: commands => do
      let reply ← Keeping.outcome (ask command)
      let replies ← askAll commands
      return reply :: replies

theorem askAll_confined {region : Region} (serves : region.Serves dir name)
    (commands : List Command) :
    region.ConfinesKeeping (region.sets dir name) (askAll commands) fun _ => True := by
  induction commands with
  | nil => exact .pure trivial
  | cons command commands ih =>
      exact (ask_confined serves command).outcome.bind fun _ _ => ih.bind fun _ _ => .pure trivial

/-- On a quiet volume time alone changes no answer and nothing in the set. -/
theorem Sound.askAll_eq (sound : set.Sound dir name latest staged held before) {clock : Nat}
    (still : Quiet { before with clock }) (commands : List Command) :
    (askAll commands set { before with clock }).1 = (askAll commands set before).1 :=
  (askAll_confined (whole_serves dir name) commands set _ _
    (whole_alike sound.tree sound.quiet still) sound.inWhole).same

/-! ## The least distance -/

/-- The answer is that for the fingerprints held, and only time passes. -/
theorem Sound.leastDistance_eq (sound : set.Sound dir name latest staged held before) :
    ∃ distance clock, LeastDistance.observeAll (sorted held) = .ok distance ∧
      leastDistance set before = ((.ok distance.result, set), { before with clock }) ∧
        Quiet { before with clock } := by
  cases set with
  | bounded set =>
      obtain ⟨answer, last, after, result, changes, rfl, distance, observed, rfl⟩ :=
        (BoundedSet.leastDistance_runs sound.tree sound.keeps.holds.1).of_quiet sound.quiet
      obtain ⟨clock, same⟩ := BoundedSet.leastDistance_watches last before
      rw [result] at same
      subst same
      exact ⟨distance, clock, observed, by rw [leastDistance, byKind_bounded_apply, result],
        changes.quiet sound.quiet⟩
  | resident set =>
      obtain ⟨distance, observed, answer⟩ := ResidentSet.leastDistance_eq sound.keeps.holds.1
      refine ⟨distance, before.clock, observed, ?_, sound.quiet⟩
      show ((set.leastDistance, OpenSet.resident set), before) = _
      rw [answer]

theorem ask_leastDistance {distance : UInt64} {last : OpenSet} {after : Volume}
    (answer : leastDistance set before = ((.ok distance, last), after)) :
    ask .leastDistance set before = ((.ok (.distance distance), last), after) := by
  rw [ask, Keeping.bind_apply, answer]
  rfl

/-- However a set came to be and whatever was asked of it, the least distance is the least gap
between two different fingerprints of those it holds, and the greatest word if there are fewer than
two.  No distance is ever taken to a smaller value, which would be an error.  The set is the same
after it, and whatever is asked then gives the answers that it would have given without. -/
theorem leastDistance_right (site : Site) (quiet : site.volume.Quiet) (lives : List Life)
    (opens : ∀ life ∈ lives, Opens life.settings site.name)
    (room : Life.commits lives + 1 < generationLimit)
    (few : (sorted (Life.puts lives)).length < UInt64.size) (settings : Settings) (seed : UInt64)
    (opensNow : Opens settings site.name) :
    ∃ set opened,
      openAt settings seed site.directory site.name (site.history lives).2 = (.ok set, opened) ∧
        ∀ commands,
          let after := Session.run commands (.restored (site.history lives).1 set) opened
          ∃ least looked,
            ask .leastDistance after.1.set after.2 =
              ((.ok (.distance least), after.1.set), looked) ∧
            LeastDistance.IsLeastGap (Command.puts commands ++ (site.history lives).1) least ∧
            ∀ more, (askAll more after.1.set looked).1 = (askAll more after.1.set after.2).1 := by
  obtain ⟨set, opened, _, result, sound⟩ := site.restored_sound quiet opens room few seed opensNow
  refine ⟨set, opened, result, fun commands => ?_⟩
  obtain ⟨_, _, later⟩ := Session.run_sound sound commands
  obtain ⟨distance, clock, observed, answer, still⟩ := later.set.leastDistance_eq
  refine ⟨distance.result, _, ?_, ?_, later.set.askAll_eq still⟩
  · exact ask_leastDistance answer
  · refine (LeastDistance.isLeastGap_of_observeAll (sorted_ascending _) observed).congr fun fp => ?_
    rw [mem_sorted, mem_sorted, Session.run_held, List.mem_append, List.mem_append,
      List.mem_reverse]
    rfl

/-- After a bounded and a resident set a bounded one comes next, and two more fingerprints are put
that lie seven apart. -/
theorem leastDistance_right_mixed :
    let lives : List Life :=
      [{ settings := tightSettings
         seed := 7
         commands := [.put 3, .put 50, .leastDistance, .beginCheckpoint, .put 9, .commitCheckpoint]
         closes := false },
       { settings := residentSettings
         seed := 0
         commands := [.put 80, .beginCheckpoint, .commitCheckpoint, .put 1]
         closes := true }]
    Site.root.volume.Quiet ∧ (∀ life ∈ lives, Opens life.settings "fps") ∧
      Life.commits lives + 1 < generationLimit ∧ (sorted (Life.puts lives)).length < UInt64.size ∧
        ∃ set opened, openAt tightSettings 1 [] "fps" (Site.root.history lives).2 = (.ok set, opened) ∧
          let after := Session.run [.put 20, .put 13]
            (.restored (Site.root.history lives).1 set) opened
          ∃ least looked,
            ask .leastDistance after.1.set after.2 = ((.ok (.distance least), after.1.set), looked) ∧
            least.toNat ≤ 7 ∧
            (askAll [.put 13, .contains 4, .size] after.1.set looked).1 =
              (askAll [.put 13, .contains 4, .size] after.1.set after.2).1 := by
  intro lives
  have quiet : Site.root.volume.Quiet := fun _ _ => rfl
  have opens : ∀ life ∈ lives, Opens life.settings "fps" :=
    List.forall_mem_cons.mpr ⟨tightSettings_opens, List.forall_mem_singleton.mpr residentSettings_opens⟩
  have room : Life.commits lives + 1 < generationLimit := by decide
  have few : (sorted (Life.puts lives)).length < UInt64.size := by decide +kernel
  obtain ⟨set, opened, result, distances⟩ :=
    leastDistance_right Site.root quiet lives opens room few tightSettings 1 tightSettings_opens
  obtain ⟨least, looked, answer, isLeast, later⟩ := distances [.put 20, .put 13]
  have apart : LeastDistance.gap 20 13 = 7 := by decide
  have near : least.toNat ≤ 7 := by
    have first : (20 : Fingerprint) ∈ Command.puts [.put 20, .put 13] := by decide
    have second : (13 : Fingerprint) ∈ Command.puts [.put 20, .put 13] := by decide
    rcases isLeast with ⟨same, -⟩ | ⟨-, every⟩
    · exact absurd (same 20 (List.mem_append_left _ first) 13 (List.mem_append_left _ second)) (by decide)
    · exact apart ▸ every 20 (List.mem_append_left _ first) 13 (List.mem_append_left _ second) (by decide)
  exact ⟨quiet, opens, room, few, set, opened, result, least, looked, answer, near, later _⟩

end OpenSet

end FingerprintSet
