import FingerprintSet.Proofs.Checkpoint.Desk
import FingerprintSet.Proofs.Checkpoint.Restoring

/-!
# Histories of checkpoints

A directory lives through one process after the other.  Any step of any of them may be refused,
and a process that stops at some moment is one whose steps are all refused from then on.  Whatever
the history was, recovery afterwards finds the generation that got its name last, with all its
fingerprints.
-/

namespace FingerprintSet

open Storage Volume SortedFile Checkpoint

/-- One process: its steps that are refused, and what it does. -/
structure Life where
  faults : Nat → Option Errno
  durable : Bool
  /-- Whether it recovers before anything else. -/
  recovers : Bool
  commands : List Command
  deriving Inhabited

/-- The volume with another schedule. -/
def Storage.Volume.reschedule (volume : Volume) (faults : Nat → Option Errno) : Volume :=
  { volume with faults }

/-- The desk a life begins with, if a keeper can be opened. -/
def Life.desk (dir : Path) (name : String) (published : Option Generation) (life : Life) :
    StateM Volume (Option Desk) := do
  modify (·.reschedule life.faults)
  match ← CheckpointKeeper.openAt dir name life.durable with
  | .error _ => pure none
  | .ok keeper => do
      if life.recovers then
        let _ ← keeper.recover
      pure (some { keeper, writing := none, staged := none, published })

/-- Live one life on a directory, in which a generation got its name last. -/
def Life.live (dir : Path) (name : String) (published : Option Generation) (life : Life) :
    StateM Volume (Option Generation) := do
  modify (·.reschedule life.faults)
  match ← CheckpointKeeper.openAt dir name life.durable with
  | .error _ => pure published
  | .ok keeper => do
      if life.recovers then
        let _ ← keeper.recover
      let desk ← life.commands.foldlM Desk.perform
        { keeper, writing := none, staged := none, published }
      pure desk.published

/-- Live lives one after the other.  The result is the generation that got its name last. -/
def history (dir : Path) (name : String) (lives : List Life) : StateM Volume (Option Generation) :=
  lives.foldlM (Life.live dir name) none

/-- How often a commit is asked for. -/
def commits (lives : List Life) : Nat :=
  total (·.commands.count .commit) lives

variable {before : Volume} {dir : Path} {name : String} {done : Nat}

/-! ## From life to life -/

/-- What holds of a directory between two lives. -/
structure Between (dir : Path) (name : String) (done : Nat) (published : Option Generation)
    (volume : Volume) : Prop where
  sound : volume.Sound
  kept : Kept dir name published volume
  numbers : ∀ latest, published = some latest → latest.number ≤ done
  counted : ∀ latest, published = some latest → latest.Counted

/-- A directory in which nothing stands under the names of a set's checkpoints. -/
structure Untouched (dir : Path) (name : String) (start : Volume) : Prop where
  sound : start.Sound
  isDir : start.IsDir dir
  usable : isUsableName name = true
  unused : ∀ entry number, generationOf? name entry = some number →
    start.binding? (dir.child entry) = none
  staging : ∀ id, start.binding? (dir.child (stagingName name)) ≠ some (.file id)

theorem Untouched.between {start : Volume} (untouched : Untouched dir name start) :
    Between dir name 0 none start where
  sound := untouched.sound
  kept :=
    { isDir := untouched.isDir
      earlier := fun entry number stands present =>
        absurd (untouched.unused entry number stands) present
      staging := untouched.staging
      sound := fun _ none => nomatch none
      isGeneration := fun _ none => nomatch none
      complete := fun _ none => nomatch none }
  numbers := fun _ none => nomatch none
  counted := fun _ none => nomatch none

/-- An empty volume is untouched. -/
theorem untouched_empty (usable : isUsableName name = true) : Untouched [] name {} where
  sound := empty_sound _
  isDir := Or.inl rfl
  usable := usable
  unused := fun _ _ _ => empty_binding? _ _
  staging := fun _ bound => by simp at bound

/-- The schedule has no part in what is on a volume. -/
theorem Storage.Volume.Sound.reschedule (sound : before.Sound) (faults : Nat → Option Errno) :
    (before.reschedule faults).Sound where
  rootless := sound.rootless
  parented := sound.parented
  named := sound.named
  stored := sound.stored
  apart := sound.apart

theorem Between.reschedule {published : Option Generation}
    (between : Between dir name done published before) (faults : Nat → Option Errno) :
    Between dir name done published (before.reschedule faults) where
  sound := between.sound.reschedule faults
  kept :=
    { isDir := between.kept.isDir
      earlier := between.kept.earlier
      staging := between.kept.staging
      sound := between.kept.sound
      isGeneration := between.kept.isGeneration
      complete := fun latest same =>
        { manifest := (between.kept.complete latest same).manifest
          parts := fun part mem => by
            obtain ⟨file, holds⟩ := (between.kept.complete latest same).parts part mem
            exact ⟨file, holds.bound, holds.bytes⟩ } }
  numbers := between.numbers
  counted := between.counted

theorem desk_apply (published : Option Generation) (life : Life) :
    life.desk dir name published before =
      match CheckpointKeeper.openAt dir name life.durable (before.reschedule life.faults) with
      | (.error _, after) => (none, after)
      | (.ok keeper, after) =>
          (some { keeper, writing := none, staged := none, published },
            if life.recovers then (keeper.recover after).2 else after) := by
  have opened : life.desk dir name published before =
      (match (CheckpointKeeper.openAt dir name life.durable (before.reschedule life.faults)).1 with
        | .error _ => pure none
        | .ok keeper => do
            if life.recovers then
              let _ ← keeper.recover
            pure (some { keeper, writing := none, staged := none, published }) :
          StateM Volume (Option Desk))
        (CheckpointKeeper.openAt dir name life.durable (before.reschedule life.faults)).2 := rfl
  rw [opened]
  rcases CheckpointKeeper.openAt dir name life.durable (before.reschedule life.faults) with
    ⟨_ | keeper, after⟩
  · rfl
  · cases recovers : life.recovers <;> rfl

theorem live_apply (published : Option Generation) (life : Life) :
    life.live dir name published before =
      match life.desk dir name published before with
      | (none, after) => (published, after)
      | (some desk, after) =>
          let ended := life.commands.foldlM Desk.perform desk after
          (ended.1.published, ended.2) := by
  have opened : life.live dir name published before =
      (match (CheckpointKeeper.openAt dir name life.durable (before.reschedule life.faults)).1 with
        | .error _ => pure published
        | .ok keeper => do
            if life.recovers then
              let _ ← keeper.recover
            let desk ← life.commands.foldlM Desk.perform
              { keeper, writing := none, staged := none, published }
            pure desk.published : StateM Volume (Option Generation))
        (CheckpointKeeper.openAt dir name life.durable (before.reschedule life.faults)).2 := rfl
  rw [opened, desk_apply]
  rcases CheckpointKeeper.openAt dir name life.durable (before.reschedule life.faults) with
    ⟨_ | keeper, after⟩
  · rfl
  · cases recovers : life.recovers <;> rfl

/-- Recovery, cut short or not, leaves the keeper in charge. -/
theorem recover_leaves {published : Option Generation} {keeper : CheckpointKeeper}
    (volumeSound : before.Sound) (sound : keeper.Sound dir name published none before) :
    (keeper.recover before).2.Sound ∧ keeper.Sound dir name published none (keeper.recover before).2 := by
  have leaves {after : Volume}
      (changes : Changes (Within (dir.child (stagingName name))) NoFile before after)
      (kept : Kept dir name published after) :
      after.Sound ∧ keeper.Sound dir name published none after :=
    ⟨changes.sound volumeSound, sound.staging_free volumeSound changes kept.staging⟩
  rcases (CheckpointKeeper.recover_meets volumeSound sound.path sound.named sound.kept).cases with
    ⟨_, after, result, changes, kept, -⟩ | ⟨_, after, result, changes, kept, -⟩
  · rw [result]
    exact leaves changes kept
  · rw [result]
    exact leaves changes kept

/-- A life begins with a sound desk, or with none. -/
theorem desk_between {published : Option Generation}
    (between : Between dir name done published before) (usable : isUsableName name = true)
    (life : Life) (room : done + 1 < generationLimit) :
    (∃ after, life.desk dir name published before = (none, after) ∧
        Between dir name done published after) ∨
      ∃ desk after, life.desk dir name published before = (some desk, after) ∧
        Desk.Leaves dir name [] 0 done (desk, after) := by
  have scheduled := between.reschedule life.faults
  have behind (latest : Generation) (same : published = some latest) :
      latest.number + 1 < generationLimit :=
    Nat.lt_of_le_of_lt (Nat.succ_le_succ (between.numbers latest same)) room
  rw [desk_apply]
  rcases (CheckpointKeeper.openAt_runs scheduled.sound scheduled.kept usable life.durable behind).cases
    with ⟨keeper, opened, result, changes, keeperSound, -⟩ | ⟨error, opened, result, changes, -⟩
  · rw [result]
    have openedSound := changes.sound scheduled.sound
    have started : (if life.recovers then (keeper.recover opened).2 else opened).Sound ∧
        keeper.Sound dir name published none
          (if life.recovers then (keeper.recover opened).2 else opened) := by
      split
      · exact recover_leaves openedSound keeperSound
      · exact ⟨openedSound, keeperSound⟩
    refine Or.inr ⟨_, _, rfl, started.1, started.2, (fun _ _ none => nomatch none), between.numbers,
      fun latest which => ?_⟩
    exact between.counted latest (which.resolve_left fun none => nomatch none)
  · rw [result]
    exact Or.inl ⟨_, rfl,
      { sound := changes.sound scheduled.sound
        kept := scheduled.kept.of_look scheduled.sound changes
        numbers := between.numbers
        counted := between.counted }⟩

/-- One life leaves the generation published last complete. -/
theorem live_between {published : Option Generation}
    (between : Between dir name done published before) (usable : isUsableName name = true)
    (life : Life) (lawful : Lawful [] 0 life.commands)
    (room : done + life.commands.count .commit + 1 < generationLimit) :
    Between dir name (done + life.commands.count .commit) (life.live dir name published before).1
      (life.live dir name published before).2 := by
  have here : done + 1 < generationLimit := by omega
  rw [live_apply]
  rcases desk_between between usable life here with
    ⟨after, begun, idle⟩ | ⟨desk, after, begun, volumeSound, sound⟩
  · rw [begun]
    have more (latest : Generation) (same : published = some latest) :
        latest.number ≤ done + life.commands.count .commit :=
      Nat.le_trans (between.numbers latest same) (Nat.le_add_right _ _)
    exact { idle with numbers := more }
  · rw [begun]
    obtain ⟨tried, count, endSound, ends⟩ := performs_leave volumeSound sound lawful room
    exact ⟨endSound, ends.keeper.kept, ends.numbers, fun latest same =>
      ends.counted latest (Or.inr same)⟩

/-- A life that ends with a commit publishes what is staged then, if the renaming is done. -/
theorem live_committing {published : Option Generation}
    (between : Between dir name done published before) (usable : isUsableName name = true)
    (life : Life) {commands : List Command} (ends : life.commands = commands ++ [.commit])
    (lawful : Lawful [] 0 commands)
    (room : done + commands.count .commit + 1 < generationLimit) :
    (life.live dir name published before).1 =
      match life.desk dir name published before with
      | (none, _) => published
      | (some desk, after) =>
          let last := commands.foldlM Desk.perform desk after
          if last.1.renames last.2 then last.1.staged else last.1.published := by
  have here : done + 1 < generationLimit := by omega
  rw [live_apply]
  rcases desk_between between usable life here with
    ⟨after, begun, -⟩ | ⟨desk, after, begun, volumeSound, sound⟩
  · rw [begun]
  · rw [begun, ends]
    dsimp only
    rw [List.foldlM_append]
    obtain ⟨tried, count, endSound, ends⟩ := performs_leave volumeSound sound lawful room
    exact Desk.published_commit endSound ends

/-- A life that does not commit publishes nothing. -/
theorem live_idle (published : Option Generation) {life : Life} (idle : .commit ∉ life.commands) :
    (life.live dir name published before).1 = published := by
  rw [live_apply, desk_apply]
  rcases CheckpointKeeper.openAt dir name life.durable (before.reschedule life.faults) with
    ⟨_ | keeper, after⟩
  · rfl
  · exact performs_published idle _ _

theorem lives_between {published : Option Generation} {lives : List Life}
    (between : Between dir name done published before) (usable : isUsableName name = true)
    (lawful : ∀ life ∈ lives, Lawful [] 0 life.commands)
    (room : done + commits lives + 1 < generationLimit) :
    Between dir name (done + commits lives) (lives.foldlM (Life.live dir name) published before).1
      (lives.foldlM (Life.live dir name) published before).2 := by
  induction lives generalizing before published done with
  | nil => exact between
  | cons life lives ih =>
      rw [List.forall_mem_cons] at lawful
      rw [commits, total_cons, ← Nat.add_assoc] at room ⊢
      have here : done + life.commands.count .commit + 1 < generationLimit := by omega
      exact ih (live_between between usable life lawful.1 here) lawful.2 room

/-- What is on a volume after a history, with the generation that got its name last. -/
theorem history_between {start stopped : Volume} (untouched : Untouched dir name start)
    {lives : List Life} (lawful : ∀ life ∈ lives, Lawful [] 0 life.commands)
    (room : commits lives + 1 < generationLimit) {published : Option Generation}
    (lived : history dir name lives start = (published, stopped)) :
    Between dir name (commits lives) published stopped := by
  have between := lives_between untouched.between untouched.usable lawful (by rwa [Nat.zero_add])
  rw [Nat.zero_add, ← history, lived] at between
  exact between

/-! ## Recovery -/

/-- Read all fingerprints of a checkpoint. -/
def Checkpoint.fingerprints (checkpoint : Checkpoint) : Task (List Fingerprint) :=
  Keeping.build [] (checkpoint.restore
    (fun fp => modifyGet fun held => (false, held ++ [fp])) List.length)

/-- All fingerprints of a valid generation are read. -/
theorem fingerprints_runs {number : Nat} {manifest : Manifest} (volumeSound : before.Sound)
    (valid : Checkpoint.Valid before dir number manifest) :
    Runs (Checkpoint.fingerprints { directory := dir, manifest }) before Nowhere NoFile
      fun held _ => held = listed before dir manifest.segments := by
  have notes (state done : List Fingerprint) (fp : Fingerprint) (rest : List Fingerprint)
      (middle : Volume) (_ : middle.Sound)
      (_ : done ++ fp :: rest = listed before dir manifest.segments) (same : state = done) :
      Keeping.Runs (modifyGet fun held => (false, held ++ [fp]) : Keeping (List Fingerprint) Bool)
        state middle Nowhere NoFile (fun _ last _ => last = done ++ [fp]) fun _ _ => True :=
    Keeping.Runs.of_ok rfl (.refl middle) (congrArg (· ++ [fp]) same)
  apply Meets.mono (restore_meets (fun _ _ _ _ _ _ same => same) notes volumeSound valid rfl rfl)
  · exact fun _ _ ⟨changes, same, _⟩ => ⟨changes, same⟩
  · rintro error after ⟨changes, mismatch⟩
    refine ⟨changes, fun quiet => ?_⟩
    obtain ⟨_, rfl, different, -⟩ := mismatch quiet
    exact different valid.length_listed

/-- Whatever processes did to a directory and wherever they were stopped, recovery finds the
generation that got its name last, with its manifest and all its fingerprints; and it finds
nothing if no generation got its name. -/
theorem recover_after_history {start : Volume} (sound : start.Sound) (isDir : start.IsDir dir)
    (usable : isUsableName name = true)
    (unused : ∀ entry number, generationOf? name entry = some number →
      start.binding? (dir.child entry) = none)
    (staging : ∀ id, start.binding? (dir.child (stagingName name)) ≠ some (.file id))
    {lives : List Life} (lawful : ∀ life ∈ lives, Lawful [] 0 life.commands)
    (room : commits lives + 1 < generationLimit) (durable : Bool) :
    ∃ published stopped, history dir name lives start = (published, stopped) ∧
      ∃ keeper opened recovered,
        CheckpointKeeper.openAt dir name durable (stopped.reschedule fun _ => none) =
          (.ok keeper, opened) ∧
        keeper.recover opened =
          (.ok (published.map (Generation.checkpoint dir name)), recovered) ∧
        ∀ generation, published = some generation →
          ((generation.checkpoint dir name).fingerprints recovered).1 = .ok generation.held := by
  have between := Untouched.between { sound, isDir, usable, unused, staging }
  have ended := (lives_between between usable lawful (by rwa [Nat.zero_add])).reschedule fun _ => none
  have unfolded : history dir name lives start = lives.foldlM (Life.live dir name) none start := rfl
  rw [← unfolded] at ended
  rcases lived : history dir name lives start with ⟨published, stopped⟩
  rw [lived] at ended
  refine ⟨published, stopped, rfl, ?_⟩
  have behind (latest : Generation) (same : published = some latest) :
      latest.number + 1 < generationLimit := by
    have below := ended.numbers latest same
    omega
  have quiet : (stopped.reschedule fun _ => none).Quiet := fun _ _ => rfl
  obtain ⟨keeper, opened, open_, changes, keeperSound, -⟩ :=
    (CheckpointKeeper.openAt_runs ended.sound ended.kept usable durable behind).of_quiet quiet
  have openedSound := changes.sound ended.sound
  have openedQuiet := changes.quiet quiet
  rcases (CheckpointKeeper.recover_meets openedSound keeperSound.path keeperSound.named
    keeperSound.kept).cases with ⟨found, recovered, result, more, kept, whenReadable⟩ |
      ⟨_, _, _, _, _, unreadable⟩
  · refine ⟨keeper, opened, recovered, open_, whenReadable ⟨openedQuiet, ended.counted⟩ ▸ result, ?_⟩
    intro generation same
    have complete := kept.complete _ same
    have reads := fingerprints_runs (more.sound openedSound)
      (valid_of_complete complete (kept.sound _ same) (ended.counted _ same))
    obtain ⟨held, _, read, _, rfl⟩ := reads.of_quiet (more.quiet openedQuiet)
    rw [Generation.checkpoint, read, listed_of_complete complete]
  · exact absurd ⟨openedQuiet, ended.counted⟩ unreadable

/-- A life that is stopped in the middle of its second commit, after the renaming. -/
def stoppedLife : Life where
  faults tick := if tick < 40 then none else some .inputOutput
  durable := true
  recovers := true
  commands :=
    [.begin 7 1, .segment 0 [3, 5], .segment 1 [9], .stage, .commit,
      .begin 7 1, .segment 0 [3, 4, 5], .stage, .commit]

/-- A life that only begins. -/
def beginningLife : Life where
  faults _ := none
  durable := false
  recovers := false
  commands := [.begin 0 0, .segment 4 [1]]

/-- What the stopped life staged last has got its name, and is found after the other life. -/
theorem recover_after_two_lives :
    ∃ published stopped,
      history [] "fps" [stoppedLife, beginningLife] {} = (published, stopped) ∧
      published.map (fun generation => (generation.number, generation.held)) =
        some (2, [3, 4, 5]) ∧
      ∃ keeper opened recovered,
        CheckpointKeeper.openAt [] "fps" true (stopped.reschedule fun _ => none) =
          (.ok keeper, opened) ∧
        keeper.recover opened =
          (.ok (published.map (Generation.checkpoint [] "fps")), recovered) ∧
        ∀ generation, published = some generation →
          ((generation.checkpoint [] "fps").fingerprints recovered).1 = .ok generation.held := by
  have usable : isUsableName "fps" = true := by decide
  have untouched := untouched_empty usable
  have lawful : ∀ life ∈ [stoppedLife, beginningLife], Lawful [] 0 life.commands := by
    simp [stoppedLife, beginningLife, Lawful, Ascending]
    decide
  have lawfulFirst : Lawful [] 0 stoppedLife.commands.dropLast := by
    simp [stoppedLife, Lawful, Ascending]
    decide
  have first : ((stoppedLife.live [] "fps" none {}).1.map fun generation =>
      (generation.number, generation.held)) = some (2, [3, 4, 5]) := by
    rw [live_committing untouched.between usable stoppedLife rfl lawfulFirst (by decide)]
    decide +kernel
  obtain ⟨published, stopped, lived, recovers⟩ := recover_after_history untouched.sound
    untouched.isDir untouched.usable untouched.unused untouched.staging lawful (by decide) true
  have second : published = (stoppedLife.live [] "fps" none {}).1 := calc
    published
    _ = (beginningLife.live [] "fps" (stoppedLife.live [] "fps" none {}).1
          (stoppedLife.live [] "fps" none {}).2).1 := (congrArg Prod.fst lived).symm
    _ = (stoppedLife.live [] "fps" none {}).1 := live_idle _ (by decide)
  exact ⟨published, stopped, lived, second ▸ first, recovers⟩

end FingerprintSet
