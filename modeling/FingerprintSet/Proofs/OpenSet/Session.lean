import FingerprintSet.Proofs.OpenSet.Basic

/-!
# Sessions

A set is opened and then asked for this and that.  What was put is noted beside it, and so is
what it held when its checkpoints were begun.  After any commands the set holds exactly what was
restored and put, whatever its kind, its geometry and its seed.
-/

namespace FingerprintSet

open Storage Volume Checkpoint

namespace OpenSet

/-- What is asked of a set. -/
inductive Command
  | put (fp : Fingerprint)
  | contains (fp : Fingerprint)
  | size
  | beginCheckpoint
  | commitCheckpoint
  | leastDistance
  deriving DecidableEq, Repr, Inhabited

/-- A set in use. -/
structure Session where
  set : OpenSet
  /-- What was restored when the set was opened, and what was put since. -/
  held : List Fingerprint
  /-- What was held when the checkpoint was begun that waits to be committed. -/
  staged : Option (List Fingerprint)
  /-- What was held when the checkpoint was begun that was committed last. -/
  published : List Fingerprint
  deriving Inhabited

namespace Command

/-- The fingerprint that a command puts. -/
def added : Command → Option Fingerprint
  | put fp => some fp
  | _ => none

/-- The fingerprints that some commands put. -/
def puts (commands : List Command) : List Fingerprint :=
  commands.filterMap added

end Command

/-- What is noted beside a set. -/
structure Notes where
  held : List Fingerprint
  staged : Option (List Fingerprint)
  published : List Fingerprint

/-- What a command adds to the notes when no name and no number is refused.  A checkpoint that
waits is not begun again. -/
def Notes.take (notes : Notes) : Command → Notes
  | .put fp => { notes with held := fp :: notes.held }
  | .beginCheckpoint => { notes with staged := some (notes.staged.getD notes.held) }
  | .commitCheckpoint =>
      { notes with
        staged := none
        published := notes.staged.getD notes.published }
  | _ => notes

theorem Notes.take_begin (notes : Notes) :
    notes.take .beginCheckpoint =
      { notes with staged := some (notes.staged.getD notes.held) } :=
  rfl

theorem Notes.take_commit (notes : Notes) :
    notes.take .commitCheckpoint =
      { notes with
        staged := none
        published := notes.staged.getD notes.published } :=
  rfl

/-- The names and numbers that up to so many commits need. -/
structure Commits (name : String) (total : Nat) : Prop where
  staging : FitsDirectory (stagingName name)
  generation : ∀ number ≤ total, FitsDirectory (generationName name number)
  room : total + 1 < generationLimit

theorem Commits.mono {name : String} {less total : Nat} (allowed : Commits name total)
    (le : less ≤ total) : Commits name less where
  staging := allowed.staging
  generation number below := allowed.generation number (Nat.le_trans below le)
  room := Nat.lt_of_le_of_lt (Nat.succ_le_succ le) allowed.room

/-- A short name leaves enough room for all of them. -/
theorem commits_of_short {name : String} {total : Nat}
    (short : name.utf8ByteSize + 27 ≤ Volume.longestName) (clean : '\x00' ∉ name.toList)
    (room : total + 1 < generationLimit) : Commits name total where
  staging := stagingName_fits (Nat.le_trans (Nat.add_le_add_left (by decide) _) short) clean
  generation _ le :=
    generationName_fits short clean (Nat.lt_of_le_of_lt le (Nat.lt_of_succ_lt room))
  room := room

namespace Session

/-- The notes of a session. -/
def notes (session : Session) : Notes where
  held := session.held
  staged := session.staged
  published := session.published

/-- Do what a command asks for.  The size is known without a step. -/
def perform (session : Session) : Command → StateM Volume Session
  | .put fp => do
      let (_, set) ← OpenSet.put fp session.set
      pure { session with set, held := fp :: session.held }
  | .contains fp => do
      let (_, set) ← OpenSet.contains fp session.set
      pure { session with set }
  | .size => pure session
  | .beginCheckpoint => do
      let (begun, set) ← OpenSet.beginCheckpoint session.set
      pure { session with set, staged := if begun.isOk then some session.held else session.staged }
  | .commitCheckpoint => do
      let (committed, set) ← OpenSet.commitCheckpoint session.set
      if committed.isOk then
        let published := session.staged.getD session.published
        pure { session with set, published, staged := none }
      else
        pure { session with set }
  | .leastDistance => do
      let (_, set) ← OpenSet.leastDistance session.set
      pure { session with set }

/-- Do what some commands ask for, one after the other. -/
def run (commands : List Command) (session : Session) : StateM Volume Session :=
  commands.foldlM perform session

theorem run_cons (command : Command) (commands : List Command) (session : Session)
    (before : Volume) :
    run (command :: commands) session before =
      run commands (session.perform command before).1 (session.perform command before).2 :=
  rfl

variable {session : Session} {before : Volume} {dir : Path} {name : String}
  {latest staged : Option Generation} {commits : Nat}

/-- The set holds what is noted, and so do its checkpoints, as long as there are numbers for
them. -/
structure Sound (dir : Path) (name : String) (commits : Nat) (latest staged : Option Generation)
    (volume : Volume) (session : Session) : Prop where
  set : session.set.Sound dir name latest staged (sorted session.held) volume
  staged : ∀ generation, staged = some generation →
    ∃ fps, session.staged = some fps ∧ generation.held.Perm (sorted fps)
  published : (∀ last, latest = some last → last.number + 1 < generationLimit) →
    (Holder.published latest).Perm (sorted session.published)
  number : ∀ last, latest = some last → last.number ≤ commits

/-! ## Single commands -/

/-- The number of a checkpoint that was begun is the next one. -/
theorem number_le {keeper : CheckpointKeeper} {generation : Generation}
    (sound : keeper.Sound dir name latest (some generation) before)
    (number : ∀ last, latest = some last → last.number ≤ commits) :
    generation.number ≤ commits + 1 := by
  obtain ⟨same, above⟩ := sound.number generation rfl
  rw [same] at above ⊢
  cases latest with
  | none =>
      rw [sound.first rfl]
      exact Nat.le_add_left 1 commits
  | some last =>
      have room : last.number + 1 < generationLimit :=
        Nat.lt_of_le_of_lt (above last rfl) sound.next
      rw [sound.behind last rfl room]
      exact Nat.succ_le_succ (number last rfl)

/-- The session when only its set has changed. -/
theorem Sound.withSet (sound : session.Sound dir name commits latest staged before)
    {set : OpenSet} {after : Volume}
    (setSound : set.Sound dir name latest staged (sorted session.held) after) :
    { session with set }.Sound dir name commits latest staged after :=
  { sound with set := setSound }

theorem put_sound (sound : session.Sound dir name commits latest staged before) (fp : Fingerprint) :
    (session.perform (.put fp) before).1.Sound dir name commits latest staged
      (session.perform (.put fp) before).2 := by
  have ends := OpenSet.put_ends sound.set fp
  rw [Keeping.Ends] at ends
  obtain ⟨-, tree, quiet, keeps⟩ := ends
  have holds := (holder dir name).holds_perm (sorted_cons_perm fp session.held) keeps.holds
  exact { sound with set := ⟨tree, quiet, holds, keeps.keeper⟩ }

theorem contains_sound (sound : session.Sound dir name commits latest staged before)
    (fp : Fingerprint) :
    (session.perform (.contains fp) before).1.Sound dir name commits latest staged
      (session.perform (.contains fp) before).2 := by
  have ends := OpenSet.contains_ends sound.set fp
  rw [Keeping.Ends] at ends
  exact sound.withSet ends.2

theorem leastDistance_sound (sound : session.Sound dir name commits latest staged before) :
    (session.perform .leastDistance before).1.Sound dir name commits latest staged
      (session.perform .leastDistance before).2 := by
  have ends := OpenSet.leastDistance_ends sound.set
  rw [Keeping.Ends] at ends
  exact sound.withSet ends.2

theorem perform_begin {result : Except Error Unit} {last : OpenSet} {after : Volume}
    (ended : OpenSet.beginCheckpoint session.set before = ((result, last), after)) :
    session.perform .beginCheckpoint before =
      ({ session with
          set := last
          staged := if result.isOk then some session.held else session.staged }, after) := by
  have unfolded : session.perform .beginCheckpoint before =
      ({ session with
          set := (OpenSet.beginCheckpoint session.set before).1.2
          staged :=
            if (OpenSet.beginCheckpoint session.set before).1.1.isOk then some session.held
            else session.staged },
        (OpenSet.beginCheckpoint session.set before).2) := rfl
  rw [unfolded, ended]

/-- A checkpoint that was begun holds what the set holds now.  One waits then and is noted, unless
its name or its number is refused. -/
theorem begin_sound (sound : session.Sound dir name commits latest staged before) :
    ∃ begun, (session.perform .beginCheckpoint before).1.Sound dir name commits latest begun
        (session.perform .beginCheckpoint before).2 ∧
      (Commits name commits → session.staged.isSome = staged.isSome → begun.isSome = true ∧
        (session.perform .beginCheckpoint before).1.notes = session.notes.take .beginCheckpoint) := by
  have ends := OpenSet.beginCheckpoint_ends sound.set
  rw [Keeping.Ends] at ends
  rcases ended : OpenSet.beginCheckpoint session.set before with ⟨⟨error | _, last⟩, after⟩ <;>
    rw [ended] at ends <;> rw [perform_begin ended]
  · obtain ⟨tree, quiet, reasons, keeps⟩ := ends
    refine ⟨staged, sound.withSet ⟨tree, quiet, keeps⟩, fun allowed waits => ?_⟩
    obtain busy | unfit | ⟨generation, same, most⟩ := reasons
    · have some := Option.isSome_iff_ne_none.mpr busy
      obtain ⟨fps, noted⟩ := Option.isSome_iff_exists.mp (waits.trans some)
      refine ⟨some, ?_⟩
      rw [Notes.take_begin, notes, notes, noted]
      rfl
    · exact absurd allowed.staging unfit
    · have room := Nat.succ_le_succ (sound.number generation same)
      exact absurd (Nat.lt_of_le_of_lt room allowed.room) most
  · obtain ⟨tree, quiet, free, generation, perm, keeps⟩ := ends
    have told (other : Generation) (same : some generation = some other) :
        ∃ fps, some session.held = some fps ∧ other.held.Perm (sorted fps) := by
      cases same
      exact ⟨session.held, rfl, perm⟩
    refine ⟨some generation, { sound with set := ⟨tree, quiet, keeps⟩, staged := told },
      fun _ waits => ⟨rfl, ?_⟩⟩
    obtain rfl : staged = none := Decidable.not_not.mp fun busy => free (Or.inl busy)
    have none : session.staged = none := by simpa using waits
    rw [Notes.take_begin, notes, notes, none]
    rfl

theorem perform_commit (session : Session) (before : Volume) :
    session.perform .commitCheckpoint before =
      (if (OpenSet.commitCheckpoint session.set before).1.1.isOk then
        pure
          { session with
            set := (OpenSet.commitCheckpoint session.set before).1.2
            published := session.staged.getD session.published
            staged := none }
      else
        pure { session with set := (OpenSet.commitCheckpoint session.set before).1.2 } :
          StateM Volume Session) (OpenSet.commitCheckpoint session.set before).2 :=
  rfl

theorem perform_committed {last : OpenSet} {after : Volume}
    (ended : OpenSet.commitCheckpoint session.set before = ((.ok (), last), after)) :
    session.perform .commitCheckpoint before =
      ({ session with
          set := last
          published := session.staged.getD session.published
          staged := none }, after) := by
  rw [perform_commit, ended]
  rfl

theorem perform_uncommitted {error : Error} {last : OpenSet} {after : Volume}
    (ended : OpenSet.commitCheckpoint session.set before = ((.error error, last), after)) :
    session.perform .commitCheckpoint before = ({ session with set := last }, after) := by
  rw [perform_commit, ended]
  rfl

/-- The session when what was begun is the last checkpoint. -/
theorem Sound.published_as {generation : Generation}
    (sound : session.Sound dir name commits latest (some generation) before) {set : OpenSet}
    {after : Volume} {fps : List Fingerprint} {noted : Option (List Fingerprint)}
    (setSound : set.Sound dir name (some generation) none (sorted session.held) after)
    (holds : generation.number + 1 < generationLimit → generation.held.Perm (sorted fps)) :
    { session with set, published := fps, staged := noted }.Sound dir name (commits + 1)
      (some generation) none after where
  set := setSound
  staged _ none := nomatch none
  published room := holds (room generation rfl)
  number _ same := Option.some.inj same ▸ number_le sound.set.keeps.keeper sound.number

/-- A commit publishes what was begun.  Nothing waits then and what waited is noted as published,
unless a name or the number is refused. -/
theorem commit_sound (sound : session.Sound dir name commits latest staged before) :
    ∃ last others, (session.perform .commitCheckpoint before).1.Sound dir name (commits + 1) last
        others (session.perform .commitCheckpoint before).2 ∧
      (Commits name (commits + 1) → session.staged.isSome = staged.isSome → others = none ∧
        (session.perform .commitCheckpoint before).1.notes =
          session.notes.take .commitCheckpoint) := by
  have number {generation : Generation} (same : staged = some generation) :
      generation.number ≤ commits + 1 :=
    number_le (same ▸ sound.set.keeps.keeper) sound.number
  have ends := OpenSet.commitCheckpoint_ends sound.set
  rw [Keeping.Ends] at ends
  rcases ended : OpenSet.commitCheckpoint session.set before with ⟨⟨error | _, last⟩, after⟩ <;>
    rw [ended] at ends
  · rw [perform_uncommitted ended]
    obtain ⟨tree, quiet, ⟨unfit, keeps⟩ | ⟨generation, rfl, -, full, keeps⟩⟩ := ends
    · have later (other : Generation) (same : latest = some other) : other.number ≤ commits + 1 :=
        Nat.le_succ_of_le (sound.number other same)
      refine ⟨latest, staged, { sound with set := ⟨tree, quiet, keeps⟩, number := later },
        fun allowed waits => ?_⟩
      obtain rfl : staged = none := Option.eq_none_iff_forall_ne_some.mpr fun generation same =>
        unfit generation same (allowed.generation _ (number same))
      have none : session.staged = none := by simpa using waits
      rw [Notes.take_commit, notes, notes, none]
      exact ⟨rfl, rfl⟩
    · refine ⟨some generation, none,
        sound.published_as ⟨tree, quiet, keeps⟩ fun room => absurd room full, fun allowed _ => ?_⟩
      exact absurd (Nat.lt_of_le_of_lt (Nat.succ_le_succ (number rfl)) allowed.room) full
  · rw [perform_committed ended]
    obtain ⟨tree, quiet, generation, rfl, -, -, keeps⟩ := ends
    obtain ⟨fps, same, perm⟩ := sound.staged generation rfl
    rw [same]
    refine ⟨some generation, none,
      sound.published_as ⟨tree, quiet, keeps⟩ fun _ => perm, fun _ _ => ⟨rfl, ?_⟩⟩
    rw [Notes.take_commit, notes, notes, same]

/-- Every command keeps a session sound. -/
theorem perform_sound (sound : session.Sound dir name commits latest staged before)
    (command : Command) :
    ∃ last others, (session.perform command before).1.Sound dir name
      (commits + if command == .commitCheckpoint then 1 else 0) last others
        (session.perform command before).2 := by
  cases command with
  | put fp => exact ⟨latest, staged, put_sound sound fp⟩
  | contains fp => exact ⟨latest, staged, contains_sound sound fp⟩
  | size => exact ⟨latest, staged, sound⟩
  | beginCheckpoint =>
      obtain ⟨begun, next, -⟩ := begin_sound sound
      exact ⟨latest, begun, next⟩
  | commitCheckpoint =>
      obtain ⟨last, others, next, -⟩ := commit_sound sound
      exact ⟨last, others, next⟩
  | leastDistance => exact ⟨latest, staged, leastDistance_sound sound⟩

/-- A sound session in which nothing was refused, with given notes. -/
structure Follows (dir : Path) (name : String) (commits : Nat) (latest begun : Option Generation)
    (notes : Notes) (volume : Volume) (session : Session) : Prop
    extends session.Sound dir name commits latest begun volume where
  waits : session.staged.isSome = begun.isSome
  noted : session.notes = notes

variable {notes : Notes} {total : Nat}

/-- When no name is refused and there is a number left, a command does what it is to do. -/
theorem Follows.perform (follows : session.Follows dir name commits latest staged notes before)
    (allowed : Commits name total) (command : Command)
    (among : commits + (if command == .commitCheckpoint then 1 else 0) ≤ total) :
    ∃ last others, (session.perform command before).1.Follows dir name
      (commits + if command == .commitCheckpoint then 1 else 0) last others (notes.take command)
        (session.perform command before).2 := by
  obtain ⟨sound, waits, rfl⟩ := follows
  cases command with
  | put fp => exact ⟨latest, staged, put_sound sound fp, waits, rfl⟩
  | contains fp => exact ⟨latest, staged, contains_sound sound fp, waits, rfl⟩
  | size => exact ⟨latest, staged, sound, waits, rfl⟩
  | beginCheckpoint =>
      obtain ⟨begun, next, told⟩ := begin_sound sound
      obtain ⟨some, noted⟩ := told (allowed.mono among) waits
      refine ⟨latest, begun, next, ?_, noted⟩
      rw [some]
      exact congrArg (·.staged.isSome) noted
  | commitCheckpoint =>
      obtain ⟨last, others, next, told⟩ := commit_sound sound
      obtain ⟨rfl, noted⟩ := told (allowed.mono among) waits
      exact ⟨last, none, next, congrArg (·.staged.isSome) noted, noted⟩
  | leastDistance => exact ⟨latest, staged, leastDistance_sound sound, waits, rfl⟩

/-- The set holds what a command put on top. -/
theorem perform_held (session : Session) (command : Command) (before : Volume) :
    (session.perform command before).1.held = command.added.toList ++ session.held := by
  cases command with
  | commitCheckpoint =>
      rw [perform_commit]
      split <;> rfl
  | _ => rfl

/-! ## Whole sessions -/

/-- Whatever commands there are, the session stays sound. -/
theorem run_sound (sound : session.Sound dir name commits latest staged before)
    (commands : List Command) :
    ∃ last others, (run commands session before).1.Sound dir name
      (commits + commands.count .commitCheckpoint) last others (run commands session before).2 := by
  induction commands generalizing session before commits latest staged with
  | nil => exact ⟨latest, staged, sound⟩
  | cons command commands ih =>
      obtain ⟨_, _, next⟩ := perform_sound sound command
      rw [run_cons, List.count_cons, Nat.add_comm (commands.count _), ← Nat.add_assoc]
      exact ih next

/-- When no name is refused and there are numbers left, commands do what they are to do. -/
theorem Follows.run (follows : session.Follows dir name commits latest staged notes before)
    (allowed : Commits name total) (commands : List Command)
    (among : commits + commands.count .commitCheckpoint ≤ total) :
    ∃ last others, (run commands session before).1.Follows dir name
      (commits + commands.count .commitCheckpoint) last others (commands.foldl Notes.take notes)
        (run commands session before).2 := by
  induction commands generalizing session before commits latest staged notes with
  | nil => exact ⟨latest, staged, follows⟩
  | cons command commands ih =>
      rw [List.count_cons, Nat.add_comm (commands.count _), ← Nat.add_assoc] at among ⊢
      obtain ⟨_, _, next⟩ :=
        follows.perform allowed command (Nat.le_trans (Nat.le_add_right _ _) among)
      rw [run_cons, List.foldl_cons]
      exact ih next among

theorem run_held (commands : List Command) (session : Session) (before : Volume) :
    (run commands session before).1.held = (Command.puts commands).reverse ++ session.held := by
  induction commands generalizing session before with
  | nil => rfl
  | cons command commands ih =>
      rw [run_cons, ih, perform_held]
      cases added : command.added <;> simp [Command.puts, added]

end Session

/-! ## Answers -/

/-- What is asked of a set is answered for given fingerprints. -/
structure Answers (held : List Fingerprint) (set : OpenSet) (volume : Volume) : Prop where
  put : ∀ fp, (OpenSet.put fp set volume).1.1 = .ok (decide (fp ∈ held))
  contains : ∀ fp, (OpenSet.contains fp set volume).1.1 = .ok (decide (fp ∈ held))
  size : set.size = (sorted held).length
  leastDistance : ∃ distance, LeastDistance.observeAll (sorted held) = .ok distance ∧
    (OpenSet.leastDistance set volume).1.1 = .ok distance.result

theorem decides_sorted {answer : Bool} {fp : Fingerprint} {held : List Fingerprint}
    (decides : answer = true ↔ fp ∈ sorted held) : answer = decide (fp ∈ held) :=
  Bool.eq_iff_iff.mpr (by rw [decides, mem_sorted, decide_eq_true_iff])

/-- A set answers for what it has. -/
theorem Has.answers {set : OpenSet} {volume : Volume} {held : List Fingerprint}
    (tree : volume.Sound) (quiet : volume.Quiet) (has : set.Has volume (sorted held)) :
    Answers held set volume := by
  cases set with
  | bounded set =>
      have holds : set.Holds volume (sorted held) := has
      refine ⟨fun fp => ?_, fun fp => ?_, holds.size_eq, ?_⟩
      · obtain ⟨answer, last, after, result, -, decides, -⟩ :=
          (BoundedSet.put_runs tree holds fp).of_quiet quiet
        rw [OpenSet.put, byKind_bounded_apply, result, decides_sorted decides]
      · obtain ⟨answer, last, after, result, -, decides, -⟩ :=
          (BoundedSet.contains_runs tree holds fp).of_quiet quiet
        rw [OpenSet.contains, byKind_bounded_apply, result, decides_sorted decides]
      · obtain ⟨answer, last, after, result, -, -, distance, observed, rfl⟩ :=
          (BoundedSet.leastDistance_runs tree holds).of_quiet quiet
        rw [sorted_congr fun _ => mem_sorted] at observed
        rw [OpenSet.leastDistance, byKind_bounded_apply, result]
        exact ⟨distance, observed, rfl⟩
  | resident set =>
      have perm : set.held.toList.Perm (sorted held) := has
      have decides (fp : Fingerprint) : set.contains fp = decide (fp ∈ held) :=
        decides_sorted (ResidentSet.contains_iff perm fp)
      refine ⟨fun fp => ?_, fun fp => ?_, ResidentSet.size_eq perm, ?_⟩
      · rw [OpenSet.put, byKind_resident_apply, ← decides fp]
        rfl
      · rw [OpenSet.contains, byKind_resident_apply, ← decides fp]
        rfl
      · obtain ⟨distance, observed, answer⟩ := ResidentSet.leastDistance_eq perm
        rw [sorted_congr fun _ => mem_sorted] at observed
        rw [OpenSet.leastDistance, byKind_resident_apply]
        exact ⟨distance, observed, answer⟩

/-- A sound set answers for what it holds. -/
theorem Sound.answers {set : OpenSet} {volume : Volume} {dir : Path} {name : String}
    {latest staged : Option Generation} {held : List Fingerprint}
    (sound : set.Sound dir name latest staged (sorted held) volume) : Answers held set volume :=
  Has.answers sound.tree sound.quiet (Holds.has sound.keeps.holds)

/-! ## Sets in new directories -/

/-- A directory in which there never was a set of the given name, such as an empty one. -/
structure Site where
  volume : Volume
  directory : Path
  name : String
  sound : volume.Sound
  isDir : volume.IsDir directory
  unused : ∀ entry number, generationOf? name entry = some number →
    volume.binding? (directory.child entry) = none
  /-- No file is where checkpoints are written. -/
  staging : ∀ id, volume.binding? (directory.child (stagingName name)) ≠ some (.file id)
  clear : Clear directory name volume

namespace Site

/-- Open a set in the directory. -/
def opened (site : Site) (settings : Settings) (seed : UInt64) : Except Error OpenSet × Volume :=
  openAt settings seed site.directory site.name site.volume

/-- The new set in use, or any if none could be opened. -/
def begun (site : Site) (settings : Settings) (seed : UInt64) : Session × Volume :=
  match site.opened settings seed with
  | (.ok set, before) => ({ set, held := [], staged := none, published := [] }, before)
  | (.error _, before) => (default, before)

/-- The set in use after some commands. -/
def after (site : Site) (settings : Settings) (seed : UInt64) (commands : List Command) :
    Session × Volume :=
  Session.run commands (site.begun settings seed).1 (site.begun settings seed).2

variable {site : Site} {settings : Settings} {seed : UInt64}

theorem rests (site : Site) (quiet : site.volume.Quiet) :
    Rests site.directory site.name none site.volume where
  tree := site.sound
  quiet := quiet
  kept :=
    { isDir := site.isDir
      earlier := fun entry number stands present => absurd (site.unused entry number stands) present
      staging := site.staging
      sound := fun _ none => nomatch none
      isGeneration := fun _ none => nomatch none
      complete := fun _ none => nomatch none }
  clear := site.clear
  room _ none := nomatch none

/-- A set is opened just when its settings and name are in order. -/
theorem opened_iff (quiet : site.volume.Quiet) :
    (site.opened settings seed).1.isOk = true ↔ Opens settings site.name := by
  constructor
  · exact opens_of_openAt (site.rests quiet)
  · intro opens
    obtain ⟨set, after, opened, -⟩ := @openAt_ok _ _ _ _ _ seed (site.rests quiet) opens
      (fun _ none => nomatch none) List.nodup_nil
    rw [Site.opened, opened]
    rfl

theorem begun_sound (quiet : site.volume.Quiet) (opens : Opens settings site.name) :
    (site.begun settings seed).1.Sound site.directory site.name 0 none none
      (site.begun settings seed).2 := by
  obtain ⟨set, after, opened, sound⟩ := @openAt_ok _ _ _ _ _ seed (site.rests quiet) opens
    (fun _ none => nomatch none) List.nodup_nil
  have begun : site.begun settings seed =
      ({ set, held := [], staged := none, published := [] }, after) := by
    rw [Site.begun, Site.opened, opened]
  rw [begun]
  exact
    { set := sound
      staged := fun _ none => nomatch none
      published := fun _ => List.Perm.refl _
      number := fun _ none => nomatch none }

/-- After some commands the set holds what they put. -/
theorem after_sound (quiet : site.volume.Quiet) (opens : Opens settings site.name)
    (commands : List Command) :
    ∃ latest staged, (site.after settings seed commands).1.set.Sound site.directory site.name latest
      staged (sorted (Command.puts commands)) (site.after settings seed commands).2 := by
  obtain ⟨latest, staged, sound⟩ := Session.run_sound (begun_sound quiet opens) commands
  have none : (site.begun settings seed).1.held = [] := by
    rw [begun]
    split <;> rfl
  have held : sorted (site.after settings seed commands).1.held = sorted (Command.puts commands) := by
    apply sorted_congr
    intro fp
    rw [after, Session.run_held, none, List.append_nil, List.mem_reverse]
  exact ⟨latest, staged, held ▸ sound.set⟩

end Site

/-- A set is opened in a new directory just when its settings and name are in order, and then
every answer is that of the set of the fingerprints put so far: whatever its kind, its settings
and its seed are, and whatever other commands came between. -/
theorem answers_by_puts (site : Site) (quiet : site.volume.Quiet) (settings : Settings)
    (seed : UInt64) :
    ((site.opened settings seed).1.isOk = true ↔ Opens settings site.name) ∧
      ((site.opened settings seed).1.isOk = true → ∀ commands,
        Answers (Command.puts commands) (site.after settings seed commands).1.set
          (site.after settings seed commands).2) := by
  refine ⟨Site.opened_iff quiet, fun opened commands => ?_⟩
  obtain ⟨latest, staged, sound⟩ :=
    Site.after_sound quiet ((Site.opened_iff quiet).mp opened) commands
  exact sound.answers

namespace Site

theorem blank_sound : Volume.Sound {} :=
  empty_sound _

/-- The root of an empty volume. -/
def root : Site where
  volume := {}
  directory := []
  name := "fps"
  sound := blank_sound
  isDir := Or.inl rfl
  unused _ _ _ := empty_binding? _ _
  staging _ bound := Option.some_ne_none _ (bound.symm.trans (empty_binding? _ _))
  clear _ bound := Option.some_ne_none _ (bound.symm.trans (empty_binding? _ _))

end Site

/-- Two segments with 32 buckets of one fingerprint each and pages of four. -/
def tightSettings : Settings where
  kind := .disk
  memory :=
    { budgetBytes := 2048
      segmentBits := 1
      bucketEntries := 1
      reserveRatio := 0.5 }
  storage :=
    { pageIndexStride := 2
      maxPagesPerSegment := 2
      maxOpenPages := 4
      syncWrites := false }
  log := .standard

theorem tightSettings_opens : Opens tightSettings "fps" := by
  have planned : (Plan.compute tightSettings.memory).toOption =
      some
        { budgetBytes := 2048
          segmentBits := 1
          bucketsPerSegment := 32
          bucketEntries := 1
          pendingCapacity := 4
          reserveBytes := 1024
          indexBytes := 736 } := by
    decide +kernel
  cases computed : Plan.compute tightSettings.memory with
  | error error =>
      rw [computed] at planned
      contradiction
  | ok plan =>
      rw [computed] at planned
      obtain rfl := Option.some.inj planned
      exact ⟨_, by decide, ⟨by decide, by decide⟩, rfl, computed, by decide, by decide⟩

/-- A bounded set that was asked for a checkpoint between its puts. -/
theorem answers_by_puts_tight :
    let after := Site.root.after tightSettings 7
      [.put 3, .beginCheckpoint, .contains 5, .put 3, .put 5, .commitCheckpoint]
    Site.root.volume.Quiet ∧ (Site.root.opened tightSettings 7).1.isOk = true ∧
      (put 5 after.1.set after.2).1.1 = .ok true ∧
        (contains 4 after.1.set after.2).1.1 = .ok false ∧ after.1.set.size = 2 := by
  have quiet : Site.root.volume.Quiet := fun _ _ => rfl
  obtain ⟨opens, answers⟩ := answers_by_puts Site.root quiet tightSettings 7
  have opened := opens.mpr tightSettings_opens
  have right := answers opened
    [.put 3, .beginCheckpoint, .contains 5, .put 3, .put 5, .commitCheckpoint]
  have count : (sorted [3, 3, 5]).length = 2 := by decide +kernel
  exact ⟨quiet, opened, right.put 5, right.contains 4, right.size.trans count⟩

end OpenSet

end FingerprintSet
