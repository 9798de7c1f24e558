import FingerprintSet.Proofs.Checkpoint.Staging

/-!
# Single processes

A process has a keeper and what it is writing on its desk: it begins checkpoints, writes segments,
stages and commits as it likes.  Any of its steps may be refused.  Whatever it does, what is on the
desk fits what is in the directory, and a generation gets its name just when a commit renames the
staging directory.
-/

namespace FingerprintSet

open Storage Volume SortedFile Checkpoint

/-- What a process asks for. -/
inductive Command
  | begin (seed : UInt64) (segmentBits : Nat)
  /-- Write one segment of the checkpoint that was begun, and record it. -/
  | segment (index : Nat) (fps : List Fingerprint)
  | stage
  | commit
  deriving DecidableEq, Repr, Inhabited

/-- What a process has in hand, and the generation that got its name last. -/
structure Desk where
  keeper : CheckpointKeeper
  /-- The checkpoint being written, with the segments recorded so far. -/
  writing : Option (Staging × List Part)
  /-- What was staged and has no name yet. -/
  staged : Option Generation
  published : Option Generation
  deriving Inhabited

/-- The generation that is written, with its segments. -/
def Staging.meant (staging : Staging) (parts : List Part) : Generation where
  number := staging.manifest.generation
  seed := staging.manifest.seed
  segmentBits := staging.manifest.segmentBits
  parts := parts

/-- Write the whole file of a segment. -/
def Staging.writeSegment (staging : Staging) (index : Nat) (fps : List Fingerprint) :
    Task Written := do
  let writer ← staging.segmentWriter index
  let writer ← writer.pushAll fps
  writer.finish

namespace Desk

/-- Do what a command asks for.  A generation has got its name when its directory is there. -/
def perform (desk : Desk) : Command → StateM Volume Desk
  | .begin seed segmentBits => do
      let (begun, keeper) ← CheckpointKeeper.beginStaging seed segmentBits desk.keeper
      pure
        { desk with
          keeper
          writing := begun.toOption.map fun staging => (staging, []) }
  | .segment index fps =>
      match desk.writing with
      | none => pure desk
      | some (staging, parts) => do
          let written ← staging.writeSegment index fps
          match written with
          | .ok written =>
              pure
                { desk with
                  writing :=
                    some (staging.record index written, parts ++ [{ index, held := fps }]) }
          | .error _ => pure desk
  | .stage =>
      match desk.writing with
      | none => pure desk
      | some (staging, parts) => do
          let (result, keeper) ← CheckpointKeeper.stage staging desk.keeper
          pure
            { desk with
              keeper
              writing := none
              staged := if result.toBool then some (staging.meant parts) else desk.staged }
  | .commit => do
      let (_, keeper) ← CheckpointKeeper.commit desk.keeper
      let volume ← get
      match desk.staged with
      | none => pure { desk with keeper }
      | some generation =>
          if volume.isDirectory (keeper.generationDirectory generation.number) then
            pure { desk with keeper, staged := none, published := some generation }
          else
            pure { desk with keeper }

/-- Whether a commit now renames the staging directory to that of what is staged. -/
def renames (desk : Desk) (before : Volume) : Bool :=
  desk.staged.any fun generation =>
    (rename desk.keeper.stagingDirectory (desk.keeper.generationDirectory generation.number)
      before).1.toBool

end Desk

/-! ## What a desk is like at every moment -/

/-- Commands that can be carried out.  From one beginning to the next no segment comes twice, each
is ascending, and their number fits its field. -/
def Lawful (tried : List Nat) (count : Nat) : List Command → Prop
  | [] => True
  | .begin _ segmentBits :: rest => segmentBits < UInt32.size ∧ Lawful [] 0 rest
  | .segment index fps :: rest => index < UInt64.size ∧ index ∉ tried ∧ Ascending fps ∧
      count + fps.length < UInt64.size ∧ Lawful (index :: tried) (count + fps.length) rest
  | .stage :: rest => Lawful tried count rest
  | .commit :: rest => Lawful tried count rest

variable {before : Volume} {dir : Path} {name : String} {desk : Desk} {tried : List Nat}
  {count done : Nat}

/-- A checkpoint is being written, with segments that were tried and no more fingerprints than
the given count. -/
structure Writing (dir : Path) (name : String) (volume : Volume) (tried : List Nat) (count : Nat)
    (desk : Desk) (staging : Staging) (parts : List Part) : Prop where
  unstaged : desk.staged = none
  writes : Writes dir name volume staging (staging.meant parts) tried
  number : staging.manifest.generation = desk.keeper.nextGeneration
  above : ∀ latest, desk.published = some latest → latest.number < desk.keeper.nextGeneration
  bits : staging.manifest.segmentBits < UInt32.size
  counted : (staging.meant parts).count ≤ count
  few : count < UInt64.size

namespace Desk

/-- The keeper is in charge, and the generations are numbered by the commits that were done. -/
structure Sound (dir : Path) (name : String) (volume : Volume) (tried : List Nat)
    (count done : Nat) (desk : Desk) : Prop where
  keeper : desk.keeper.Sound dir name desk.published desk.staged volume
  writing : ∀ staging parts, desk.writing = some (staging, parts) →
    Writing dir name volume tried count desk staging parts
  numbers : ∀ latest, desk.published = some latest → latest.number ≤ done
  counted : ∀ generation, desk.staged = some generation ∨ desk.published = some generation →
    generation.Counted

/-- A command leaves a sound desk on a sound volume. -/
def Leaves (dir : Path) (name : String) (tried : List Nat) (count done : Nat)
    (result : Desk × Volume) : Prop :=
  result.2.Sound ∧ result.1.Sound dir name result.2 tried count done

/-! ### Beginning -/

theorem perform_begin (desk : Desk) (seed : UInt64) (bits : Nat) (before : Volume) :
    desk.perform (.begin seed bits) before =
      ({ desk with
          keeper := (CheckpointKeeper.beginStaging seed bits desk.keeper before).1.2
          writing := (CheckpointKeeper.beginStaging seed bits desk.keeper before).1.1.toOption.map
            fun staging => (staging, []) },
        (CheckpointKeeper.beginStaging seed bits desk.keeper before).2) :=
  rfl

theorem begin_leaves (volumeSound : before.Sound) (sound : desk.Sound dir name before tried count done)
    (seed : UInt64) {bits : Nat} (fit : bits < UInt32.size) :
    Leaves dir name [] 0 done (desk.perform (.begin seed bits) before) := by
  have ends := CheckpointKeeper.beginStaging_ends volumeSound sound.keeper seed bits
  rw [Keeping.Ends] at ends
  rw [perform_begin]
  generalize CheckpointKeeper.beginStaging seed bits desk.keeper before = result at ends ⊢
  obtain ⟨⟨begun, keeper⟩, after⟩ := result
  obtain ⟨rfl, keeperSound, changes, begins⟩ := ends
  refine ⟨changes.sound volumeSound, keeperSound, ?_, sound.numbers, sound.counted⟩
  intro staging parts same
  cases begun with
  | error error => contradiction
  | ok begun =>
      obtain ⟨rfl, rfl⟩ := Prod.mk.inj (Option.some.inj same)
      obtain ⟨unstaged, -, above, writes⟩ := begins
      have manifest := writes.manifest
      have meant : begun.meant [] =
          { number := desk.keeper.nextGeneration, seed, segmentBits := bits, parts := [] } := by
        rw [Staging.meant, manifest]
        rfl
      exact
        { unstaged
          writes := meant ▸ writes
          number := by rw [manifest]; rfl
          above
          bits := by rw [manifest]; exact fit
          counted := Nat.le_refl _
          few := by decide }

/-! ### Writing segments -/

theorem writeSegment_runs {staging : Staging} {generation : Generation}
    (writes : Writes dir name before staging generation tried) (volumeSound : before.Sound)
    {index : Nat} (new : index ∉ tried) (below : index < UInt64.size) (fps : List Fingerprint) :
    Runs (staging.writeSegment index fps) before
      (At ((dir.child (stagingName name)).child (segmentFile index))) NoFile fun written after =>
        Part.Stored after (dir.child (stagingName name)) { index, held := fps } ∧
          written.Describes 0 fps := by
  have list : staging.writeSegment index fps =
      writeList (staging.directory.child (segmentFile index)) .checkpoint staging.durable 0 fps := rfl
  rw [list, writes.path]
  apply (writeList_runs volumeSound (Or.inr writes.there) (segmentFile_fits below) (writes.free new)
    .checkpoint staging.durable 0 fps).mono
  exact fun _ _ _ ⟨holds, _, describes⟩ => ⟨⟨_, holds⟩, describes⟩

theorem Sound.inStaging (sound : desk.Sound dir name before tried count done)
    (volumeSound : before.Sound) {staging : Staging} {parts : List Part} {index : Nat}
    {after : Volume} (writing : Writing dir name before tried count desk staging parts)
    (changes : Changes (At ((dir.child (stagingName name)).child (segmentFile index))) NoFile
      before after) : desk.keeper.Sound dir name desk.published desk.staged after := by
  have keeper := sound.keeper
  rw [writing.unstaged] at keeper ⊢
  apply keeper.staging_free volumeSound (changes.mono _ fun _ _ none => none)
  · rw [changes.entry_eq _ (Path.ne_child _ _), writing.writes.there]
    exact fun _ other => nomatch other
  · exact fun path same => same ▸ Path.within_child _ _

theorem perform_segment_idle (idle : desk.writing = none) (index : Nat) (fps : List Fingerprint)
    (before : Volume) : desk.perform (.segment index fps) before = (desk, before) := by
  rw [perform, idle]
  rfl

theorem perform_segment {staging : Staging} {parts : List Part}
    (inHand : desk.writing = some (staging, parts)) (index : Nat) (fps : List Fingerprint)
    (before : Volume) :
    desk.perform (.segment index fps) before =
      match staging.writeSegment index fps before with
      | (.ok written, after) =>
          ({ desk with
              writing :=
                some (staging.record index written, parts ++ [{ index, held := fps }]) }, after)
      | (.error _, after) => (desk, after) := by
  rw [perform, inHand]
  show (match (staging.writeSegment index fps before).1 with
    | .ok written => _
    | .error _ => _ : StateM Volume Desk) (staging.writeSegment index fps before).2 = _
  rcases staging.writeSegment index fps before with ⟨_ | _, _⟩ <;> rfl

theorem segment_leaves (volumeSound : before.Sound)
    (sound : desk.Sound dir name before tried count done) {index : Nat} {fps : List Fingerprint}
    (below : index < UInt64.size) (new : index ∉ tried) (ascending : Ascending fps)
    (few : count + fps.length < UInt64.size) :
    Leaves dir name (index :: tried) (count + fps.length) done
      (desk.perform (.segment index fps) before) := by
  cases inHand : desk.writing with
  | none =>
      rw [perform_segment_idle inHand]
      refine ⟨volumeSound, sound.keeper, fun staging parts same => ?_, sound.numbers, sound.counted⟩
      rw [inHand] at same
      contradiction
  | some pair =>
      obtain ⟨staging, parts⟩ := pair
      have writing := sound.writing staging parts inHand
      rw [perform_segment inHand]
      rcases (writeSegment_runs writing.writes volumeSound new below fps).cases with
        ⟨written, after, result, changes, stored, describes⟩ | ⟨error, after, result, changes, -⟩
      · rw [result]
        refine ⟨changes.sound volumeSound, sound.inStaging volumeSound writing changes, ?_,
          sound.numbers, sound.counted⟩
        intro other otherParts same
        obtain ⟨rfl, rfl⟩ := Prod.mk.inj (Option.some.inj same)
        have part : Part.Sound { index, held := fps } := ⟨below, ascending⟩
        have filed := writing.writes.of_changes volumeSound new changes fun _ _ same => same
        have recorded := filed.record part stored describes
        exact
          { unstaged := writing.unstaged
            writes := recorded
            number := writing.number
            above := writing.above
            bits := writing.bits
            counted := by
              have total : ((staging.meant parts).add { index, held := fps }).count =
                  (staging.meant parts).count + fps.length := total_append _ _ _
              exact Nat.le_trans (Nat.le_of_eq total) (Nat.add_le_add_right writing.counted _)
            few }
      · rw [result]
        refine ⟨changes.sound volumeSound, sound.inStaging volumeSound writing changes, ?_,
          sound.numbers, sound.counted⟩
        intro other otherParts same
        rw [inHand] at same
        obtain ⟨rfl, rfl⟩ := Prod.mk.inj (Option.some.inj same)
        exact
          { writing with
            writes := writing.writes.of_changes volumeSound new changes fun _ _ same => same
            counted := Nat.le_trans writing.counted (Nat.le_add_right _ _)
            few }

/-! ### Staging -/

theorem perform_stage_idle (idle : desk.writing = none) (before : Volume) :
    desk.perform .stage before = (desk, before) := by
  rw [perform, idle]
  rfl

theorem perform_stage {staging : Staging} {parts : List Part}
    (inHand : desk.writing = some (staging, parts)) (before : Volume) :
    desk.perform .stage before =
      ({ desk with
          keeper := (CheckpointKeeper.stage staging desk.keeper before).1.2
          writing := none
          staged := if (CheckpointKeeper.stage staging desk.keeper before).1.1.toBool then
            some (staging.meant parts) else desk.staged },
        (CheckpointKeeper.stage staging desk.keeper before).2) := by
  rw [perform, inHand]
  rfl

theorem stage_leaves (volumeSound : before.Sound)
    (sound : desk.Sound dir name before tried count done) :
    Leaves dir name tried count done (desk.perform .stage before) := by
  cases inHand : desk.writing with
  | none =>
      rw [perform_stage_idle inHand]
      exact ⟨volumeSound, sound⟩
  | some pair =>
      obtain ⟨staging, parts⟩ := pair
      have writing := sound.writing staging parts inHand
      have meantSound : (staging.meant parts).Sound :=
        { number := Nat.lt_of_le_of_lt (Nat.le_of_eq writing.number) sound.keeper.next
          bits := writing.bits
          parts := fun part mem => (writing.writes.parts part mem).1 }
      have keeper := sound.keeper
      rw [writing.unstaged] at keeper
      have stages := CheckpointKeeper.stage_runs volumeSound keeper writing.writes meantSound
        writing.number
        fun latest same => Nat.lt_of_lt_of_eq (writing.above latest same) writing.number.symm
      rw [perform_stage inHand]
      rcases stages.cases with ⟨_, final, after, result, changes, -, -, finalSound⟩ |
        ⟨error, final, after, result, changes, ⟨rfl, finalSound⟩, -⟩
      · rw [result]
        refine ⟨changes.sound volumeSound, finalSound, (fun _ _ none => nomatch none), sound.numbers,
          ?_⟩
        rintro _ (same | same)
        · cases same
          exact Nat.lt_of_le_of_lt writing.counted writing.few
        · exact sound.counted _ (Or.inr same)
      · rw [result]
        refine ⟨changes.sound volumeSound, ?_, (fun _ _ none => nomatch none), sound.numbers,
          sound.counted⟩
        show desk.keeper.Sound dir name desk.published desk.staged after
        rw [writing.unstaged]
        exact finalSound

/-! ### Committing -/

/-- The next generation is numbered by the commits that were done. -/
theorem Sound.next_le (sound : desk.Sound dir name before tried count done)
    (room : done + 1 < generationLimit) : desk.keeper.nextGeneration ≤ done + 1 := by
  cases published : desk.published with
  | none =>
      rw [sound.keeper.first published]
      exact Nat.le_add_left 1 done
  | some latest =>
      have below := Nat.succ_le_succ (sound.numbers latest published)
      rw [sound.keeper.behind latest published (Nat.lt_of_le_of_lt below room)]
      exact below

/-- The desk after a commit that ended in some way. -/
theorem perform_commit {result : Except Error Manifest} {final : CheckpointKeeper} {after : Volume}
    (ended : CheckpointKeeper.commit desk.keeper before = ((result, final), after)) :
    desk.perform .commit before =
      (match desk.staged with
        | none => { desk with keeper := final }
        | some generation =>
            if after.isDirectory (final.generationDirectory generation.number) then
              { desk with keeper := final, staged := none, published := some generation }
            else { desk with keeper := final }, after) := by
  have unfolded : desk.perform .commit before =
      (match desk.staged with
        | none => pure { desk with keeper := (CheckpointKeeper.commit desk.keeper before).1.2 }
        | some generation =>
            if (CheckpointKeeper.commit desk.keeper before).2.isDirectory
                ((CheckpointKeeper.commit desk.keeper before).1.2.generationDirectory
                  generation.number) then
              pure
                { desk with
                  keeper := (CheckpointKeeper.commit desk.keeper before).1.2
                  staged := none
                  published := some generation }
            else pure { desk with keeper := (CheckpointKeeper.commit desk.keeper before).1.2 } :
          StateM Volume Desk) (CheckpointKeeper.commit desk.keeper before).2 := rfl
  rw [unfolded, ended]
  cases desk.staged with
  | none => rfl
  | some generation =>
      dsimp only
      split <;> rfl

/-- Nothing happens if nothing is staged. -/
theorem perform_commit_idle (volumeSound : before.Sound)
    (sound : desk.Sound dir name before tried count done) (idle : desk.staged = none) :
    desk.perform .commit before = (desk, before) := by
  obtain ⟨keeper, writing, staged, published⟩ := desk
  obtain rfl : staged = none := idle
  have ends := CheckpointKeeper.commit_ends volumeSound sound.keeper
  rcases ended : CheckpointKeeper.commit keeper before with ⟨⟨result, final⟩, after⟩
  rw [Keeping.Ends, ended] at ends
  obtain ⟨-, rfl, rfl, -⟩ := ends
  exact perform_commit ended

/-- With the renaming what is staged has got its name, whichever later steps are refused. -/
theorem perform_commit_renamed (volumeSound : before.Sound)
    (sound : desk.Sound dir name before tried count done) {generation : Generation}
    (staged : desk.staged = some generation) {renamed : Volume}
    (renames : rename desk.keeper.stagingDirectory
      (desk.keeper.generationDirectory generation.number) before = (.ok (), renamed)) :
    ∃ keeper after,
      desk.perform .commit before =
        ({ desk with keeper, staged := none, published := some generation }, after) ∧
      after.Sound ∧ keeper.Sound dir name (some generation) none after := by
  have ends := CheckpointKeeper.commit_renamed volumeSound (staged ▸ sound.keeper) renames
  rcases ended : CheckpointKeeper.commit desk.keeper before with ⟨⟨result, final⟩, after⟩
  rw [Keeping.Ends, ended] at ends
  obtain ⟨changes, finalSound, -⟩ := ends
  have afterSound := changes.sound volumeSound
  have there : after.isDirectory (final.generationDirectory generation.number) = true := by
    rw [isDirectory_iff afterSound, CheckpointKeeper.generationDirectory, finalSound.path,
      finalSound.named]
    exact Or.inr (finalSound.kept.isGeneration generation rfl)
  refine ⟨final, after, ?_, afterSound, finalSound⟩
  rw [perform_commit ended, staged]
  exact congrArg (·, after) (if_pos there)

/-- Without the renaming nothing has happened. -/
theorem perform_commit_unrenamed (volumeSound : before.Sound)
    (sound : desk.Sound dir name before tried count done) {generation : Generation}
    (staged : desk.staged = some generation) {failure : Failure} {after : Volume}
    (renames : rename desk.keeper.stagingDirectory
      (desk.keeper.generationDirectory generation.number) before = (.error failure, after)) :
    desk.perform .commit before = (desk, after) ∧ after.Sound ∧
      desk.keeper.Sound dir name desk.published desk.staged after := by
  obtain ⟨keeper, writing, waiting, published⟩ := desk
  obtain rfl : waiting = some generation := staged
  have ended := CheckpointKeeper.commit_unrenamed sound.keeper.isStaged renames
  rcases (sound.keeper.renaming_meets volumeSound).cases with
    ⟨_, _, same, -⟩ | ⟨_, _, same, changes, -⟩
  · cases renames.symm.trans same
  · obtain ⟨-, rfl⟩ := Prod.mk.inj (renames.symm.trans same)
    have afterSound := changes.sound volumeSound
    have keeperSound := sound.keeper.of_look volumeSound changes
    have absent : ¬after.isDirectory (keeper.generationDirectory generation.number) = true := by
      rw [isDirectory_iff afterSound, CheckpointKeeper.generationDirectory, keeperSound.path,
        keeperSound.named]
      rintro (root | bound)
      · exact Path.child_ne_nil _ _ root
      · rw [keeperSound.target_free] at bound
        contradiction
    exact ⟨(perform_commit ended).trans (congrArg (·, after) (if_neg absent)), afterSound, keeperSound⟩

theorem commit_leaves (volumeSound : before.Sound)
    (sound : desk.Sound dir name before tried count done) (room : done + 1 < generationLimit) :
    Leaves dir name tried count (done + 1) (desk.perform .commit before) := by
  have more (latest : Generation) (same : desk.published = some latest) :
      latest.number ≤ done + 1 := Nat.le_succ_of_le (sound.numbers latest same)
  cases staged : desk.staged with
  | none =>
      rw [perform_commit_idle volumeSound sound staged]
      exact ⟨volumeSound, { sound with numbers := more }⟩
  | some generation =>
      have idle (staging : Staging) (parts : List Part) : desk.writing ≠ some (staging, parts) :=
        fun same => Option.some_ne_none _ (staged.symm.trans (sound.writing staging parts same).unstaged)
      rcases renames : rename desk.keeper.stagingDirectory
        (desk.keeper.generationDirectory generation.number) before with ⟨failure | _, after⟩
      · obtain ⟨unchanged, afterSound, keeperSound⟩ :=
          perform_commit_unrenamed volumeSound sound staged renames
        rw [unchanged]
        exact ⟨afterSound, keeperSound, fun _ _ same => absurd same (idle _ _), more, sound.counted⟩
      · obtain ⟨keeper, last, committed, lastSound, keeperSound⟩ :=
          perform_commit_renamed volumeSound sound staged renames
        rw [committed]
        refine ⟨lastSound, keeperSound, fun _ _ same => absurd same (idle _ _), ?_, fun _ which =>
          sound.counted _ (Or.inl (staged.trans (which.resolve_left (Option.some_ne_none _ ·.symm))))⟩
        rintro _ same
        cases same
        have number := (sound.keeper.number generation staged).1
        exact Nat.le_trans (Nat.le_of_eq number) (sound.next_le room)

/-- A commit gives what is staged its name just when it renames its directory. -/
theorem published_commit (volumeSound : before.Sound)
    (sound : desk.Sound dir name before tried count done) :
    (desk.perform .commit before).1.published =
      if desk.renames before then desk.staged else desk.published := by
  rw [renames]
  cases staged : desk.staged with
  | none =>
      rw [perform_commit_idle volumeSound sound staged]
      rfl
  | some generation =>
      rw [Option.any_some]
      rcases renames : rename desk.keeper.stagingDirectory
        (desk.keeper.generationDirectory generation.number) before with ⟨failure | _, after⟩
      · rw [(perform_commit_unrenamed volumeSound sound staged renames).1]
        rfl
      · obtain ⟨keeper, last, committed, -⟩ :=
          perform_commit_renamed volumeSound sound staged renames
        rw [committed]
        rfl

/-- No other command gives a generation its name. -/
theorem published_other {command : Command} (other : command ≠ .commit) (desk : Desk)
    (before : Volume) : (desk.perform command before).1.published = desk.published := by
  cases command with
  | begin seed bits => rfl
  | segment index fps =>
      cases inHand : desk.writing with
      | none => rw [perform_segment_idle inHand]
      | some pair =>
          rw [perform_segment inHand]
          split <;> rfl
  | stage =>
      cases inHand : desk.writing with
      | none => rw [perform_stage_idle inHand]
      | some pair => rw [perform_stage inHand]
  | commit => exact absurd rfl other

end Desk

/-! ## Whole processes -/

/-- Without a commit no generation gets its name. -/
theorem performs_published {commands : List Command} (idle : .commit ∉ commands) (desk : Desk)
    (before : Volume) : (commands.foldlM Desk.perform desk before).1.published = desk.published := by
  induction commands generalizing desk before with
  | nil => rfl
  | cons command commands ih =>
      rw [List.mem_cons, not_or] at idle
      calc ((command :: commands).foldlM Desk.perform desk before).1.published
        _ = (desk.perform command before).1.published := ih idle.2 _ _
        _ = desk.published := Desk.published_other (Ne.symm idle.1) desk before

theorem performs_leave {commands : List Command} (volumeSound : before.Sound)
    (sound : desk.Sound dir name before tried count done) (lawful : Lawful tried count commands)
    (room : done + commands.count .commit + 1 < generationLimit) :
    ∃ tried count, Desk.Leaves dir name tried count (done + commands.count .commit)
      (commands.foldlM Desk.perform desk before) := by
  induction commands generalizing before desk tried count done with
  | nil => exact ⟨tried, count, volumeSound, sound⟩
  | cons command commands ih =>
      have unfolded : (command :: commands).foldlM Desk.perform desk before =
          commands.foldlM Desk.perform (desk.perform command before).1
            (desk.perform command before).2 := rfl
      rw [unfolded]
      cases command with
      | begin seed bits =>
          obtain ⟨stepSound, stepLeaves⟩ := Desk.begin_leaves volumeSound sound seed lawful.1
          rw [List.count_cons_of_ne (by simp)] at room ⊢
          exact ih stepSound stepLeaves lawful.2 room
      | segment index fps =>
          obtain ⟨below, new, ascending, few, rest⟩ := lawful
          obtain ⟨stepSound, stepLeaves⟩ :=
            Desk.segment_leaves volumeSound sound below new ascending few
          rw [List.count_cons_of_ne (by simp)] at room ⊢
          exact ih stepSound stepLeaves rest room
      | stage =>
          obtain ⟨stepSound, stepLeaves⟩ := Desk.stage_leaves volumeSound sound
          rw [List.count_cons_of_ne (by simp)] at room ⊢
          exact ih stepSound stepLeaves lawful room
      | commit =>
          rw [List.count_cons_self, Nat.add_comm (commands.count .commit) 1, ← Nat.add_assoc] at room ⊢
          have here : done + 1 < generationLimit :=
            Nat.lt_of_le_of_lt (Nat.le_add_right _ (commands.count .commit)) (Nat.lt_of_succ_lt room)
          obtain ⟨stepSound, stepLeaves⟩ := Desk.commit_leaves volumeSound sound here
          exact ih stepSound stepLeaves lawful room

end FingerprintSet
