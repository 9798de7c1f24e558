import FingerprintSet.Proofs.BoundedSet.Starting
import FingerprintSet.Proofs.Checkpoint.Refusals
import FingerprintSet.Proofs.OpenSet.Session

/-!
# Runs of a bounded set in words

A set is opened and asked for this and that, whatever is refused on the way.  If a word holds the
bytes of one block, no step of all this leaves the words or the slices before a number of operations
that no machine gets to.  The settings do not promise the bytes of a block.
-/

namespace FingerprintSet

open Storage Volume SortedFile Checkpoint

namespace BoundedSet

/-- What a set answers to a command. -/
inductive Reply
  | known (there : Bool)
  | counted (size : Nat)
  | done
  | distance (least : UInt64)
  deriving DecidableEq, Repr, Inhabited

/-- Do what a command asks for. -/
def perform : OpenSet.Command → Keeping BoundedSet Reply
  | .put fp => do return .known (← put fp)
  | .contains fp => do return .known (← contains fp)
  | .size => do return .counted (← get).size
  | .beginCheckpoint => do
      beginCheckpoint
      return .done
  | .commitCheckpoint => do
      commitCheckpoint
      return .done
  | .leastDistance => do return .distance (← leastDistance)

/-- Do what some commands ask for, one after the other and whether or not they fail. -/
def run : List OpenSet.Command → Keeping BoundedSet (List (Except Error Reply))
  | [] => pure []
  | command :: commands => do
      let reply ← Keeping.outcome (perform command)
      let replies ← run commands
      return reply :: replies

namespace Wordwise

/-- `BoundedSet.perform` in words. -/
def perform : OpenSet.Command → Guarded BoundedSet Reply
  | .put fp => do return .known (← put fp)
  | .contains fp => do return .known (← contains fp)
  | .size => do return .counted (← get).size
  | .beginCheckpoint => do
      beginCheckpoint
      return .done
  | .commitCheckpoint => do
      Guarded.plain commitCheckpoint
      return .done
  | .leastDistance => do return .distance (← leastDistance)

/-- `BoundedSet.run` in words. -/
def run : List OpenSet.Command → Guarded BoundedSet (List (Except Error Reply))
  | [] => pure []
  | command :: commands => do
      let reply ← Guarded.outcome (perform command)
      let replies ← run commands
      return reply :: replies

end Wordwise

/-! ## What a command leaves -/

variable {dir : Path} {name : String} {before : Volume} {set : BoundedSet}
  {most given used limit : Nat}

/-- An orderly set that few operations have been made on. -/
structure Working (dir : Path) (name : String) (most given used : Nat) (volume : Volume)
    (set : BoundedSet) : Prop where
  orderly : (holder dir name).Orderly (temper dir name) most given volume set
  paced : set.Paced fun _ => used

theorem Working.mono {moreMost moreGiven moreUsed : Nat}
    (working : set.Working dir name most given used before) (most_le : most ≤ moreMost)
    (given_le : given ≤ moreGiven) (used_le : used ≤ moreUsed) :
    set.Working dir name moreMost moreGiven moreUsed before :=
  ⟨working.orderly.mono most_le given_le, working.paced.mono fun _ => used_le⟩

theorem Working.segment_lt (working : set.Working dir name most given used before)
    (fp : Fingerprint) : set.router.segment fp < set.segments.size := by
  obtain ⟨homes, entries, idle⟩ := working.orderly.calm
  exact idle.segment_lt fp

/-- A membership test uses up no more than a put. -/
theorem contains_keepsCalm (dir : Path) (name : String) :
    Holder.KeepsCalm (temper dir name) (Within (overflowDirectory dir name)) numberLimit
      contains := by
  intro set spent fp before volumeSound calm _
  apply (calm.contains_runs volumeSound fp).mono
  · exact fun _ _ _ _ ⟨follows, calmAfter⟩ =>
      ⟨follows.checkpoints, calmAfter.mono (Nat.le_add_right _ _)⟩
  · exact fun _ _ _ ⟨follows, calmAfter⟩ =>
      ⟨follows.checkpoints, calmAfter.mono (Nat.le_add_right _ _)⟩

/-- Going through a set that nothing goes on in changes nothing at all. -/
theorem Calm.leastDistance_runs (calm : Calm dir name given before set)
    (volumeSound : before.Sound) :
    Keeping.Runs leastDistance set before Nowhere NoFile (fun _ last _ => last = set)
      fun last _ => last = set := by
  obtain ⟨homes, entries, idle⟩ := calm
  have observes : Keeping.Runs leastDistance set before Nowhere NoFile (fun _ _ _ => True)
      fun _ _ => True := by
    apply Keeping.Runs.getThen
    apply Keeping.Runs.bind (observeAll_runs volumeSound idle.toArranged
      fun index inside => (idle.idle index inside).sound)
    exact fun _ _ _ _ _ => Keeping.Runs.pure trivial
  apply (observes.leaving (leastDistance_leaves set)).mono
  · exact fun _ _ _ _ ⟨_, same⟩ => same
  · exact fun _ _ _ ⟨_, same⟩ => same

section Perform

variable (working : set.Working dir name most given used before)
  (numbers : given + segmentLimit < numberLimit)

include working

theorem Working.leastDistance_ends : Keeping.Ends leastDistance set before fun _ last after =>
    last.Working dir name most given used after := by
  have still {last : BoundedSet} {after : Volume} (changes : Changes Nowhere NoFile before after)
      (same : last = set) : last.Working dir name most given used after :=
    same ▸ ⟨working.orderly.of_look changes, working.paced⟩
  apply Keeping.Ends.of_runs (working.orderly.calm.leastDistance_runs working.orderly.tree)
  · exact fun _ _ _ changes same => still changes same
  · exact fun _ _ _ changes same _ => still changes same

include numbers

theorem Working.put_ends (fp : Fingerprint) : Keeping.Ends (put fp) set before fun _ last after =>
    last.Working dir name most (given + segmentLimit) (used + 1) after := by
  have room : given + 2 < numberLimit :=
    Nat.lt_of_le_of_lt (Nat.add_le_add_left (by decide) given) numbers
  have puts := Holder.put_orderly (keepsCalm dir name) (apart_overflow dir name) working.orderly room fp
  apply (puts.leaving (working.paced.put_leaves fp (working.segment_lt fp))).mono
  rintro _ last after ⟨⟨-, orderly, -⟩, paced⟩
  exact ⟨orderly.mono (Nat.le_refl most) (Nat.add_le_add_left (by decide) given), paced⟩

theorem Working.contains_ends (fp : Fingerprint) :
    Keeping.Ends (contains fp) set before fun _ last after =>
      last.Working dir name most (given + segmentLimit) used after := by
  have room : given + 2 < numberLimit :=
    Nat.lt_of_le_of_lt (Nat.add_le_add_left (by decide) given) numbers
  have looks := Holder.put_orderly (contains_keepsCalm dir name) (apart_overflow dir name)
    working.orderly room fp
  apply (looks.leaving (working.paced.contains_leaves fp (working.segment_lt fp))).mono
  rintro _ last after ⟨⟨-, orderly, -⟩, paced⟩
  exact ⟨orderly.mono (Nat.le_refl most) (Nat.add_le_add_left (by decide) given), paced⟩

theorem Working.beginCheckpoint_ends (room : most + 1 < generationLimit) :
    Keeping.Ends beginCheckpoint set before fun _ last after =>
      last.Working dir name most (given + segmentLimit) (used + 1) after := by
  by_cases idle : set.checkpoints.staged = none
  · have begins := beginCheckpoint_turned working.orderly idle room numbers
    apply (begins.leaving working.paced.beginCheckpoint_leaves).mono
    exact fun _ _ _ ⟨⟨_, turned⟩, paced⟩ => ⟨turned.1, paced⟩
  · apply Keeping.Ends.of_eq (beginCheckpoint_busy idle before)
    exact working.mono (Nat.le_refl _) (Nat.le_add_right _ _) (Nat.le_succ _)

end Perform

theorem Working.commitCheckpoint_ends (working : set.Working dir name most given used before)
    (room : most + 2 < generationLimit) :
    Keeping.Ends commitCheckpoint set before fun _ last after =>
      last.Working dir name (most + 1) given used after := by
  have commits : Keeping.Ends commitCheckpoint set before fun _ last after =>
      (holder dir name).Orderly (temper dir name) (most + 1) given after last :=
    Holder.commit_orderly working.orderly room
  exact (commits.leaving working.paced.commitCheckpoint_leaves).mono
    fun _ _ _ ⟨orderly, paced⟩ => ⟨orderly, paced⟩

/-- What one command leaves: a checkpoint more at most, and one operation more on each segment. -/
theorem Working.perform_ends (working : set.Working dir name most given used before)
    (numbers : given + segmentLimit < numberLimit) (room : most + 2 < generationLimit)
    (command : OpenSet.Command) :
    Keeping.Ends (perform command) set before fun _ last after =>
      last.Working dir name (most + 1) (given + segmentLimit) (used + 1) after := by
  have leaves {α : Type} {work : Keeping BoundedSet α} (tell : α → Reply)
      (ends : Keeping.Ends work set before fun _ last after =>
        last.Working dir name (most + 1) (given + segmentLimit) (used + 1) after) :
      Keeping.Ends (do return tell (← work)) set before fun _ last after =>
        last.Working dir name (most + 1) (given + segmentLimit) (used + 1) after :=
    ends.bind (fun _ _ _ there => there) fun _ _ _ there => Keeping.Ends.of_eq rfl there
  cases command with
  | put fp =>
      apply leaves Reply.known
      exact (working.put_ends numbers fp).mono fun _ _ _ there =>
        there.mono (Nat.le_succ _) (Nat.le_refl _) (Nat.le_refl _)
  | contains fp =>
      apply leaves Reply.known
      exact (working.contains_ends numbers fp).mono fun _ _ _ there =>
        there.mono (Nat.le_succ _) (Nat.le_refl _) (Nat.le_succ _)
  | size =>
      exact Keeping.Ends.of_eq rfl
        (working.mono (Nat.le_succ _) (Nat.le_add_right _ _) (Nat.le_succ _))
  | beginCheckpoint =>
      apply leaves fun _ => Reply.done
      exact (working.beginCheckpoint_ends numbers (Nat.lt_of_succ_lt room)).mono fun _ _ _ there =>
        there.mono (Nat.le_succ _) (Nat.le_refl _) (Nat.le_refl _)
  | commitCheckpoint =>
      apply leaves fun _ => Reply.done
      exact (working.commitCheckpoint_ends room).mono fun _ _ _ there =>
        there.mono (Nat.le_refl _) (Nat.le_add_right _ _) (Nat.le_succ _)
  | leastDistance =>
      apply leaves Reply.distance
      exact working.leastDistance_ends.mono fun _ _ _ there =>
        there.mono (Nat.le_succ _) (Nat.le_add_right _ _) (Nat.le_succ _)

/-! ## Agreement -/

theorem Working.perform_agrees (working : set.Working dir name most given used before)
    (numbers : given + segmentLimit < numberLimit) (room : most + 1 < generationLimit)
    (few : used + 1 < entryLimit) (command : OpenSet.Command) :
    (Wordwise.perform command).Agrees (perform command) set before := by
  have tells {α : Type} {guarded : Guarded BoundedSet α} {work : Keeping BoundedSet α}
      (tell : α → Reply) (agrees : guarded.Agrees work set before) :
      Guarded.Agrees (do return tell (← guarded)) (do return tell (← work)) set before :=
    agrees.bind fun _ last after _ => Guarded.Agrees.pure _ last after
  obtain ⟨orderly, paced⟩ := working
  cases command with
  | put fp => exact tells Reply.known (Wordwise.put_agrees orderly.calm orderly.tree paced few fp)
  | contains fp =>
      exact tells Reply.known
        (Wordwise.contains_agrees orderly.calm paced (Nat.lt_of_succ_lt few) fp)
  | size => exact Guarded.Agrees.getThen (Guarded.Agrees.pure _ _ _)
  | beginCheckpoint =>
      exact tells (fun _ => Reply.done)
        (Wordwise.beginCheckpoint_agrees orderly room numbers paced few)
  | commitCheckpoint => exact tells (fun _ => Reply.done) (Guarded.Agrees.plain _ _ _)
  | leastDistance =>
      exact tells Reply.distance (Wordwise.leastDistance_agrees orderly.calm paced)

/-- Every command of a run is done in words, whatever the earlier ones came to. -/
theorem Working.run_agrees {commands : List OpenSet.Command}
    (working : set.Working dir name most given used before)
    (numbers : given + segmentLimit * commands.length < numberLimit)
    (room : most + commands.length + 1 < generationLimit)
    (few : used + commands.length < entryLimit) :
    (Wordwise.run commands).Agrees (run commands) set before := by
  induction commands generalizing most given used set before with
  | nil => exact Guarded.Agrees.pure _ _ _
  | cons command commands ih =>
      rw [List.length_cons] at numbers room few
      rw [Nat.mul_add, Nat.mul_one] at numbers
      have ends : Keeping.Ends (Keeping.outcome (perform command)) set before fun _ last after =>
          last.Working dir name (most + 1) (given + segmentLimit) (used + 1) after :=
        (working.perform_ends (by omega) (by omega) command).outcome
      apply (working.perform_agrees (by omega) (by omega) (by omega) command).outcome.bindEnds ends
      intro reply last after there
      apply (ih there (by omega) (by omega) (by omega)).bind
      exact fun replies final ended _ => Guarded.Agrees.pure _ final ended

/-- A set is opened, whatever the directory holds, and commands are done, whatever is refused.  If a
word holds the bytes of a block, each step has its result in words and slices: the count of what is
restored and of the commands is all that bounds the numbers. -/
theorem opened_runs_in_words {settings : Settings} {seed : UInt64} {commands : List OpenSet.Command}
    (short : settings.storage.pageIndexStride.toNat * entryLength < UInt64.size)
    (admits : Admits dir name most before) (counts : CountsUpTo dir name limit before)
    (room : most + commands.length + 1 < generationLimit)
    (few : limit + commands.length < entryLimit) :
    (Wordwise.openAt settings seed dir name).Agrees (openAt settings seed dir name) before ∧
    ∀ set opened, openAt settings seed dir name before = (.ok set, opened) →
      (Wordwise.run commands).Agrees (run commands) set opened := by
  have opens : (Wordwise.openAt settings seed dir name).Answers (openAt settings seed dir name) before
      fun set _ => set.Paced fun _ => limit :=
    openAt_answers admits (by omega) counts (by omega) short
  refine ⟨opens.1, fun set opened ended => ?_⟩
  have known := (openAt_orderly admits (by omega)).and opens.2
  rw [Meets, ended] at known
  obtain ⟨⟨orderly, -⟩, paced⟩ := known
  have working : set.Working dir name most openingCost limit opened := ⟨orderly, paced⟩
  have most : openingCost + segmentLimit * entryLimit < numberLimit := by decide
  have numbers : segmentLimit * commands.length ≤ segmentLimit * entryLimit :=
    Nat.mul_le_mul_left _ (by omega)
  exact working.run_agrees (by omega) room few

/-- A checkpoint is committed, then a page is written and probed. -/
def spreadCommands : List OpenSet.Command :=
  [.put 1, .beginCheckpoint, .commitCheckpoint, .put 2, .put 3, .put 4, .contains 2, .put 2, .size]

/-- What a set answered to some commands after it was opened. -/
def answered (outcome : Except Error BoundedSet × Volume) (commands : List OpenSet.Command) :
    Option (List (Option Reply)) := do
  let set ← outcome.1.toOption
  let replies ← (run commands set outcome.2).1.1.toOption
  return replies.map Except.toOption

theorem exists_of_answered {outcome : Except Error BoundedSet × Volume}
    {commands : List OpenSet.Command} {replies : List (Option Reply)}
    (answers : answered outcome commands = some replies) :
    ∃ set opened, outcome = (.ok set, opened) := by
  obtain ⟨error | set, opened⟩ := outcome
  · exact nomatch answers
  · exact ⟨set, opened, rfl⟩

theorem opened_runs_in_words_spread :
    answered (openAt spreadSettings 7 [] "fps" {}) spreadCommands =
        some [some (.known false), some .done, some .done, some (.known false), some (.known false),
          some (.known false), some (.known true), some (.known true), some (.counted 4)] ∧
      ∃ set opened, openAt spreadSettings 7 [] "fps" {} = (.ok set, opened) ∧
        Wordwise.openAt spreadSettings 7 [] "fps" {} = some (.ok set, opened) ∧
        Wordwise.run spreadCommands set opened = some (run spreadCommands set opened) := by
  have answers : answered (openAt spreadSettings 7 [] "fps" {}) spreadCommands =
      some [some (.known false), some .done, some .done, some (.known false), some (.known false),
        some (.known false), some (.known true), some (.known true), some (.counted 4)] := by
    decide +kernel
  obtain ⟨opens, runs⟩ := @opened_runs_in_words [] "fps" {} 0 0 spreadSettings 7 spreadCommands
    (by decide +kernel) (admits_empty "fps" 0) (countsUpTo_empty [] "fps" 0) (by decide +kernel)
    (by decide +kernel)
  obtain ⟨set, opened, result⟩ := exists_of_answered answers
  have ran := runs set opened result
  rw [GuardedTask.Agrees, result] at opens
  rw [Guarded.Agrees] at ran
  exact ⟨answers, set, opened, result, opens, ran⟩

/-- The defaults, but for a stride of so many fingerprints that a word does not count their bytes. -/
def longSettings : Settings where
  kind := .disk
  memory := .forMachine 1
  storage := { StorageSettings.standard with pageIndexStride := 2305843009213693952 }
  log := .standard

/-- Such settings are accepted, and the set cannot be opened in words. -/
theorem openAt_beyond_words :
    longSettings.storage.validate = .ok () ∧
      (Plan.compute longSettings.memory).isOk = true ∧ Admits [] "fps" 0 {} ∧
      Wordwise.openAt longSettings 7 [] "fps" {} = none := by
  have unanswered : (Wordwise.openAt longSettings 7 [] "fps" {}).isNone = true := by
    decide +kernel
  exact ⟨rfl, by decide +kernel, admits_empty "fps" 0, Option.isNone_iff_eq_none.mp unanswered⟩

end BoundedSet

end FingerprintSet
