import FingerprintSet.Proofs.OpenSet.Session

/-!
# Sets one after the other

Sets of any kinds are opened in a directory under one name, one after the other, each with
settings and a seed of its own.  Each is used and then closed or just dropped.  Between two of
them the directory keeps what was committed last, and the next one holds exactly that.
-/

namespace FingerprintSet

open Storage Volume Checkpoint

namespace OpenSet

/-- One set: how it is opened, what it is asked for, and whether it is closed in the end. -/
structure Life where
  settings : Settings
  seed : UInt64
  commands : List Command
  closes : Bool
  deriving Inhabited

/-- The session on a new set.  It holds what was committed last. -/
def Session.restored (published : List Fingerprint) (set : OpenSet) : Session where
  set := set
  held := published
  staged := none
  published := published

/-- The notes on a new set. -/
def Notes.restored (published : List Fingerprint) : Notes where
  held := published
  staged := none
  published := published

namespace Life

/-- Live one life in a directory in which a checkpoint was committed last, or none, and say
which one is it now.  Nothing is done if no set can be opened. -/
def live (dir : Path) (name : String) (published : List Fingerprint) (life : Life) :
    StateM Volume (List Fingerprint) := do
  match ← openAt life.settings life.seed dir name with
  | .error _ => pure published
  | .ok set => do
      let session ← Session.run life.commands (.restored published set)
      if life.closes then
        let _ ← session.set.close
      pure session.published

/-- The fingerprints that are put in some lives. -/
def puts (lives : List Life) : List Fingerprint :=
  lives.flatMap fun life => Command.puts life.commands

/-- What was held when the checkpoint was begun that a life commits last, if nothing is refused. -/
def publish (published : List Fingerprint) (life : Life) : List Fingerprint :=
  (life.commands.foldl Notes.take (.restored published)).published

/-- How often some lives commit. -/
def commits (lives : List Life) : Nat :=
  total (fun life => life.commands.count .commitCheckpoint) lives

end Life

/-- What was held when the checkpoint was begun that some lives committed last. -/
def Site.history (site : Site) (lives : List Life) : List Fingerprint × Volume :=
  lives.foldlM (Life.live site.directory site.name) [] site.volume

/-! ## What can come up -/

namespace Session

variable {session : Session} {all : List Fingerprint}

/-- Whatever a session has to do with is among given fingerprints. -/
structure Among (all : List Fingerprint) (session : Session) : Prop where
  held : session.held ⊆ all
  staged : ∀ fps, session.staged = some fps → fps ⊆ all
  published : session.published ⊆ all

theorem Among.perform (among : session.Among all) (command : Command) (before : Volume)
    (added : ∀ fp, command.added = some fp → fp ∈ all) :
    (session.perform command before).1.Among all := by
  have held : (session.perform command before).1.held ⊆ all := by
    rw [perform_held, List.append_subset]
    refine ⟨fun fp mem => added fp ?_, among.held⟩
    simpa using mem
  cases command with
  | beginCheckpoint =>
      refine ⟨held, ?_, among.published⟩
      intro fps
      rcases ended : OpenSet.beginCheckpoint session.set before with ⟨⟨error | _, last⟩, after⟩ <;>
        rw [perform_begin ended]
      · exact among.staged fps
      · rintro ⟨⟩
        exact among.held
  | commitCheckpoint =>
      rw [perform_commit]
      split
      · refine ⟨among.held, (fun _ none => nomatch none), ?_⟩
        cases staged : session.staged with
        | none => exact among.published
        | some fps => exact among.staged fps staged
      · exact ⟨among.held, among.staged, among.published⟩
  | _ => exact ⟨held, among.staged, among.published⟩

theorem Among.run (among : session.Among all) (commands : List Command) (before : Volume)
    (added : Command.puts commands ⊆ all) : (run commands session before).1.Among all := by
  induction commands generalizing session before with
  | nil => exact among
  | cons command commands ih =>
      have split : Command.puts (command :: commands) =
          command.added.toList ++ Command.puts commands := by
        cases here : command.added <;> simp [Command.puts, here]
      rw [split, List.append_subset] at added
      apply ih (among.perform command before _) _ added.2
      intro fp same
      exact added.1 (by simp [same])

end Session

/-! ## From life to life -/

variable {dir : Path} {name : String} {commits : Nat} {latest : Option Generation}
  {published all : List Fingerprint} {before : Volume}

/-- What is left in a directory by sets that committed so many checkpoints. -/
structure Between (dir : Path) (name : String) (commits : Nat) (latest : Option Generation)
    (published : List Fingerprint) (volume : Volume) : Prop where
  rests : Rests dir name latest volume
  published : (Holder.published latest).Perm (sorted published)
  number : ∀ last, latest = some last → last.number ≤ commits

theorem length_sorted_le (among : published ⊆ all) :
    (sorted published).length ≤ (sorted all).length := by
  apply (sorted_ascending _).nodup.length_le_of_subset
  intro fp mem
  rw [mem_sorted] at mem ⊢
  exact among mem

/-- A set that is opened holds what was committed last. -/
theorem Between.opened (between : Between dir name commits latest published before)
    {settings : Settings} (seed : UInt64) (opens : Opens settings name)
    (few : (sorted published).length < UInt64.size) :
    ∃ set after, openAt settings seed dir name before = (.ok set, after) ∧
      (Session.restored published set).Sound dir name commits latest none after := by
  have counted (last : Generation) (same : latest = some last) : last.Counted := by
    subst same
    rw [Generation.Counted, ← last.length_held]
    exact between.published.length_eq ▸ few
  have distinct := between.published.nodup_iff.mpr (sorted_ascending published).nodup
  obtain ⟨set, after, opened, sound⟩ := @openAt_ok _ _ _ _ _ seed between.rests opens counted distinct
  have holds := (holder dir name).holds_perm between.published sound.keeps.holds
  refine ⟨set, after, opened, ?_⟩
  exact
    { set := ⟨sound.tree, sound.quiet, holds, sound.keeps.keeper⟩
      staged := fun _ none => nomatch none
      published := fun _ => between.published
      number := between.number }

/-- Giving a set up leaves what was committed last. -/
theorem Session.Sound.between {session : Session} {staged : Option Generation}
    (sound : session.Sound dir name commits latest staged before)
    (room : commits + 1 < generationLimit) (closes : Bool) :
    Between dir name commits latest session.published
      (if closes then (session.set.close before).2 else before) := by
  have below (last : Generation) (same : latest = some last) : last.number + 1 < generationLimit :=
    Nat.lt_of_le_of_lt (Nat.succ_le_succ (sound.number last same)) room
  refine ⟨?_, sound.published below, sound.number⟩
  cases closes with
  | true => exact close_rests sound.set below
  | false => exact ⟨sound.set.tree, sound.set.quiet, sound.set.keeps.keeper.kept, sound.set.clear, below⟩

theorem live_eq {life : Life} {set : OpenSet} {after : Volume}
    (opened : openAt life.settings life.seed dir name before = (.ok set, after)) :
    life.live dir name published before =
      let ended := Session.run life.commands (.restored published set) after
      (ended.1.published, if life.closes then (ended.1.set.close ended.2).2 else ended.2) := by
  have unfolded : life.live dir name published before =
      (match (openAt life.settings life.seed dir name before).1 with
        | .error _ => pure published
        | .ok set => do
            let session ← Session.run life.commands (.restored published set)
            if life.closes then
              let _ ← session.set.close
            pure session.published : StateM Volume (List Fingerprint))
        (openAt life.settings life.seed dir name before).2 := rfl
  rw [unfolded, opened]
  cases closes : life.closes <;> rfl

theorem Session.Sound.restored_follows {set : OpenSet}
    (sound : (Session.restored published set).Sound dir name commits latest none before) :
    (Session.restored published set).Follows dir name commits latest none (.restored published)
      before where
  toSound := sound
  waits := rfl
  noted := rfl

/-- A life hands on what it committed last.  That is what its commands say, unless a name is
refused. -/
theorem live_between (between : Between dir name commits latest published before) (life : Life)
    (opens : Opens life.settings name) (among : published ⊆ all)
    (added : Command.puts life.commands ⊆ all) (few : (sorted all).length < UInt64.size)
    (room : commits + life.commands.count .commitCheckpoint + 1 < generationLimit) :
    ∃ last, Between dir name (commits + life.commands.count .commitCheckpoint) last
        (life.live dir name published before).1 (life.live dir name published before).2 ∧
      (life.live dir name published before).1 ⊆ all ∧
      (Commits name (commits + life.commands.count .commitCheckpoint) →
        (life.live dir name published before).1 = life.publish published) := by
  obtain ⟨set, after, opened, sound⟩ := between.opened life.seed opens
    (Nat.lt_of_le_of_lt (length_sorted_le among) few)
  rw [live_eq opened]
  obtain ⟨last, staged, ended⟩ := Session.run_sound sound life.commands
  have start : (Session.restored published set).Among all :=
    ⟨among, (fun _ none => nomatch none), among⟩
  refine ⟨last, ended.between room life.closes, (start.run life.commands after added).published,
    fun allowed => ?_⟩
  obtain ⟨_, _, follows⟩ := sound.restored_follows.run allowed life.commands (Nat.le_refl _)
  exact congrArg Notes.published follows.noted

/-- Lives hand on what was committed last in any of them. -/
theorem lives_between (between : Between dir name commits latest published before)
    {lives : List Life} (opens : ∀ life ∈ lives, Opens life.settings name) (among : published ⊆ all)
    (added : Life.puts lives ⊆ all) (few : (sorted all).length < UInt64.size)
    (room : commits + Life.commits lives + 1 < generationLimit) :
    ∃ last, Between dir name (commits + Life.commits lives) last
        (lives.foldlM (Life.live dir name) published before).1
        (lives.foldlM (Life.live dir name) published before).2 ∧
      (lives.foldlM (Life.live dir name) published before).1 ⊆ all ∧
      (Commits name (commits + Life.commits lives) →
        (lives.foldlM (Life.live dir name) published before).1 =
          lives.foldl Life.publish published) := by
  induction lives generalizing commits latest published before with
  | nil => exact ⟨latest, between, among, fun _ => rfl⟩
  | cons life lives ih =>
      rw [List.forall_mem_cons] at opens
      rw [Life.puts, List.flatMap_cons, List.append_subset] at added
      rw [Life.commits, total_cons, ← Nat.add_assoc] at room ⊢
      have here : commits + life.commands.count .commitCheckpoint + 1 < generationLimit :=
        Nat.lt_of_le_of_lt (Nat.succ_le_succ (Nat.le_add_right _ _)) room
      obtain ⟨_, next, nextAmong, told⟩ := live_between between life opens.1 among added.1 few here
      obtain ⟨last, ended, endAmong, toldAll⟩ := ih next opens.2 nextAmong added.2 room
      refine ⟨last, ended, endAmong, fun allowed => ?_⟩
      rw [List.foldl_cons, ← told (allowed.mono (Nat.le_add_right _ _))]
      exact toldAll allowed

/-! ## The next set -/

theorem Site.between (site : Site) (quiet : site.volume.Quiet) :
    Between site.directory site.name 0 none [] site.volume :=
  ⟨site.rests quiet, List.Perm.refl _, fun _ none => nomatch none⟩

/-- After whatever sets there were, the next one can be opened, and its session is sound. -/
theorem Site.restored_sound (site : Site) (quiet : site.volume.Quiet) {lives : List Life}
    (opens : ∀ life ∈ lives, Opens life.settings site.name)
    (room : Life.commits lives + 1 < generationLimit)
    (few : (sorted (Life.puts lives)).length < UInt64.size) {settings : Settings} (seed : UInt64)
    (opensNow : Opens settings site.name) :
    ∃ set opened latest,
      openAt settings seed site.directory site.name (site.history lives).2 = (.ok set, opened) ∧
        (Session.restored (site.history lives).1 set).Sound site.directory site.name
          (Life.commits lives) latest none opened := by
  obtain ⟨latest, between, among, -⟩ := lives_between (site.between quiet) opens
    (List.nil_subset _) (List.Subset.refl _) few (Nat.zero_add _ ▸ room)
  obtain ⟨set, opened, result, sound⟩ := between.opened seed opensNow
    (Nat.lt_of_le_of_lt (length_sorted_le among) few)
  rw [Nat.zero_add] at sound
  exact ⟨set, opened, latest, result, sound⟩

/-- What was committed last is what the commands say, when no name is refused. -/
theorem Site.history_eq (site : Site) (quiet : site.volume.Quiet) {lives : List Life}
    (opens : ∀ life ∈ lives, Opens life.settings site.name)
    (allowed : Commits site.name (Life.commits lives))
    (few : (sorted (Life.puts lives)).length < UInt64.size) :
    (site.history lives).1 = lives.foldl Life.publish [] := by
  rw [← Nat.zero_add (Life.commits lives)] at allowed
  obtain ⟨_, -, -, told⟩ := lives_between (site.between quiet) opens (List.nil_subset _)
    (List.Subset.refl _) few allowed.room
  exact told allowed

/-- Whatever sets were opened in a directory and however they were used and given up, the next
one can be opened and holds exactly what was held when the checkpoint was begun that was
committed last; and nothing if there was none.  From then on it holds what is put as well.  The
commits must not use up the numbers of generations, nor the fingerprints the count in a header. -/
theorem restored_after_lives (site : Site) (quiet : site.volume.Quiet) (lives : List Life)
    (opens : ∀ life ∈ lives, Opens life.settings site.name)
    (room : Life.commits lives + 1 < generationLimit)
    (few : (sorted (Life.puts lives)).length < UInt64.size) (settings : Settings) (seed : UInt64)
    (opensNow : Opens settings site.name) :
    ∃ set opened,
      openAt settings seed site.directory site.name (site.history lives).2 = (.ok set, opened) ∧
        Answers (site.history lives).1 set opened ∧
        ∀ commands,
          let after := Session.run commands (.restored (site.history lives).1 set) opened
          Answers (Command.puts commands ++ (site.history lives).1) after.1.set after.2 := by
  obtain ⟨set, opened, last, result, sound⟩ :=
    site.restored_sound quiet opens room few seed opensNow
  refine ⟨set, opened, result, sound.set.answers, fun commands => ?_⟩
  obtain ⟨_, _, later⟩ := Session.run_sound sound commands
  have held : sorted (Session.run commands (.restored (site.history lives).1 set) opened).1.held =
      sorted (Command.puts commands ++ (site.history lives).1) := by
    apply sorted_congr
    intro fp
    rw [Session.run_held, List.mem_append, List.mem_append, List.mem_reverse]
    rfl
  exact Sound.answers (held ▸ later.set)

/-- Everything in memory. -/
def residentSettings : Settings :=
  { tightSettings with kind := .memory }

theorem residentSettings_opens : Opens residentSettings "fps" := by
  show isUsableName "fps" = true
  decide

/-- A bounded set is dropped after its second checkpoint was begun, a resident one is closed
after a commit, and a bounded one comes next.  What was put after the last commit is lost. -/
theorem restored_after_lives_mixed :
    let lives : List Life :=
      [{ settings := tightSettings
         seed := 7
         commands := [.put 3, .put 5, .beginCheckpoint, .put 9, .commitCheckpoint, .put 4,
           .beginCheckpoint]
         closes := false },
       { settings := residentSettings
         seed := 0
         commands := [.put 8, .beginCheckpoint, .commitCheckpoint, .put 1]
         closes := true }]
    Site.root.volume.Quiet ∧ (∀ life ∈ lives, Opens life.settings "fps") ∧
      Life.commits lives + 1 < generationLimit ∧ (sorted (Life.puts lives)).length < UInt64.size ∧
        (Site.root.history lives).1 = [8, 5, 3] ∧
        ∃ set opened, openAt tightSettings 1 [] "fps" (Site.root.history lives).2 = (.ok set, opened) ∧
          Answers (Site.root.history lives).1 set opened := by
  intro lives
  have quiet : Site.root.volume.Quiet := fun _ _ => rfl
  have opens : ∀ life ∈ lives, Opens life.settings "fps" :=
    List.forall_mem_cons.mpr ⟨tightSettings_opens, List.forall_mem_singleton.mpr residentSettings_opens⟩
  have room : Life.commits lives + 1 < generationLimit := by decide
  have few : (sorted (Life.puts lives)).length < UInt64.size := by decide +kernel
  obtain ⟨set, opened, result, answers, -⟩ :=
    restored_after_lives Site.root quiet lives opens room few tightSettings 1 tightSettings_opens
  have allowed : Commits "fps" (Life.commits lives) := commits_of_short (by decide) (by decide) room
  have published : (Site.root.history lives).1 = [8, 5, 3] :=
    Site.root.history_eq quiet opens allowed few
  exact ⟨quiet, opens, room, few, published, set, opened, result, answers⟩

end OpenSet

end FingerprintSet
