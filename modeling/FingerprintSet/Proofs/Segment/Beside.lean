import FingerprintSet.Proofs.Segment.Schedule

/-!
# A segment beside other work

What goes on elsewhere disturbs a segment and the calls on it as little as the order in which
the calls are listed.  A thread that watches one call of its own can put it in front of those of
all others: each of their steps does then what it does without that call.
-/

namespace FingerprintSet

open Storage Volume SortedFile

namespace Segment

/-- The same step when one more call waits in front of all others. -/
def Move.behind : Move → Move
  | .run slot => .run (slot + 1)
  | .settle slot => .settle (slot + 1)
  | .pull slot => .pull (slot + 1)
  | .release slot => .release (slot + 1)
  | move => move

namespace Traffic

variable {homes : Homes} {start before after : Volume} {entries : PageId → List Fingerprint}
  {traffic next : Traffic}

/-- Work outside the directory of a segment that writes to no page disturbs no call. -/
theorem Sound.of_changes {paths : Path → Prop} {files : FileId → Prop}
    (sound : traffic.Sound homes start before entries) (changes : Changes paths files before after)
    (pages : ∀ id, files id → ¬IsPage before id)
    (outside : ∀ path, Within traffic.segment.store.directory path → ¬paths path) :
    traffic.Sound homes start after entries where
  tree := changes.sound sound.tree
  quiet quiet := changes.quiet (sound.quiet quiet)
  segment := by
    have store := sound.segment.store.of_changes sound.tree changes pages
      (outside _ (Path.within_self _))
      fun id inside => absurd inside (outside _ (pagePath_below _ id).within)
    exact sound.segment.restored store (List.Perm.refl _)
  readers := sound.readers
  calls call mem := (sound.calls call mem).of_changes sound.tree (.refl _ _) changes pages
    fun id _ => outside _ (pagePath_below _ id).within
  single := sound.single
  room := sound.room

/-- The order of the calls does not matter. -/
theorem Sound.congr (sound : traffic.Sound homes start before entries)
    (segment : next.segment = traffic.segment) (calls : next.calls.Perm traffic.calls) :
    next.Sound homes start before entries := by
  have merges : next.merges = traffic.merges := calls.countP_eq _
  exact
    { tree := sound.tree
      quiet := sound.quiet
      segment := segment ▸ sound.segment
      readers := by rw [segment, sound.readers, calls.length_eq]
      calls := fun call mem => segment ▸ sound.calls call (calls.mem_iff.mp mem)
      single := merges ▸ sound.single
      room := fun quiet => segment ▸ merges ▸ sound.room quiet }

/-- One more call waits in front of all others. -/
def led (traffic : Traffic) (call : Call) : Traffic :=
  { traffic with calls := call :: traffic.calls }

/-- A step behind one more call does what it does without that call. -/
theorem perform_behind (home : Fingerprint → Nat) (traffic : Traffic) (call : Call) (move : Move)
    (before : Volume) :
    (traffic.led call).perform home move.behind before =
      ((traffic.perform home move before).1.led call, (traffic.perform home move before).2) := by
  cases move with
  | put fp =>
      rcases result : beginPut (home fp) fp traffic.segment before with ⟨⟨step, last⟩, after⟩
      have behind : (traffic.led call).perform home (.put fp) before =
          ((traffic.led call).putBegun fp last step, after) := perform_put result
      rw [perform_put result, Move.behind.eq_def, behind]
      rcases step with error | known | (job | job) <;> rfl
  | contains fp => rfl
  | compact =>
      rcases result : beginCompact traffic.segment before with ⟨⟨step, last⟩, after⟩
      have behind : (traffic.led call).perform home .compact before =
          ((traffic.led call).compactBegun last step, after) := perform_compact result
      rw [perform_compact result, Move.behind.eq_def, behind]
      rcases step with error | (job | job) <;> rfl
  | snapshot =>
      rcases result : takeSnapshot traffic.segment before with ⟨⟨step, last⟩, after⟩
      have behind : (traffic.led call).perform home .snapshot before =
          ((traffic.led call).snapshotBegun (sorted (traffic.segment.held before)) last step,
            after) := perform_snapshot result
      rw [perform_snapshot result, Move.behind.eq_def, behind]
      rcases step with error | snapshot <;> rfl
  | run slot | settle slot | pull slot | release slot =>
      rcases here : traffic.calls[slot]? with _ | _ | _ | _ <;>
        simp [perform, Move.behind, led, here] <;> rfl

/-- More calls wait in front of all others. -/
def ahead (traffic : Traffic) (own : List Call) : Traffic :=
  { traffic with calls := own ++ traffic.calls }

theorem asked_behind (move : Move) : move.behind.asked = move.asked := by
  cases move <;> rfl

/-- A step behind more calls does what it does without them. -/
theorem perform_ahead (home : Fingerprint → Nat) (traffic : Traffic) (own : List Call) (move : Move)
    (before : Volume) :
    ∃ later : Move, later.asked = move.asked ∧ (traffic.ahead own).perform home later before =
      ((traffic.perform home move before).1.ahead own, (traffic.perform home move before).2) := by
  induction own with
  | nil => exact ⟨move, rfl, rfl⟩
  | cons call own ih =>
      obtain ⟨later, same, performed⟩ := ih
      refine ⟨later.behind, (asked_behind later).trans same, ?_⟩
      have behind := perform_behind home (traffic.ahead own) call later before
      rw [performed] at behind
      exact behind

end Traffic

end Segment

end FingerprintSet
