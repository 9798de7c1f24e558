import FingerprintSet.Proofs.Checkpoint.Restoring
import FingerprintSet.Proofs.Checkpoint.Staging

/-!
# Checkpoints of a set

What beginning and committing a checkpoint mean for the set around the keeper, whatever kind of
set it is.  A set only has to say what it holds, that this has nothing to do with the files of
its checkpoints, and how it writes what it holds to the files of segments.
-/

namespace FingerprintSet

open Storage Volume SortedFile Checkpoint

variable {σ : Type} {before : Volume} {dir : Path} {name : String}
  {last staged : Option Generation} {held : List Fingerprint} {state : σ}

/-- A kind of set that holds fingerprints and has a keeper of their checkpoints. -/
structure Holder (dir : Path) (name : String) (σ : Type) where
  keeper : σ → CheckpointKeeper
  /-- The set with another keeper. -/
  seat : CheckpointKeeper → σ → σ
  /-- The set holds exactly the given fingerprints, each of them once. -/
  Holds : Volume → List Fingerprint → σ → Prop
  keeper_seat : ∀ other state, keeper (seat other state) = other
  seat_seat : ∀ first second state, seat second (seat first state) = seat second state
  seat_keeper : ∀ state, seat (keeper state) state = state
  holds_perm : ∀ {volume held other state}, held.Perm other → Holds volume held state →
    Holds volume other state
  holds_seat : ∀ {volume held state} other, Holds volume held state →
    Holds volume held (seat other state)
  steady : ∀ {before after held state}, before.Sound → Changes (Owned dir name) NoFile before after →
    Holds before held state → Holds after held state

/-! ## Files of segments -/

/-- Write what `fill` gives to the file of a segment, and record the file. -/
def Staging.fileSegment (fill : Writer → Keeping σ Writer) (index : Nat) (staging : Staging) :
    Keeping σ Staging := do
  let writer ← (staging.segmentWriter index : Task Writer)
  let writer ← fill writer
  let written ← (writer.finish : Task Written)
  pure (staging.record index written)

/-- A segment whose file was filled is one of those recorded. -/
theorem fileSegment_runs {staging : Staging} {generation : Generation} {tried : List Nat}
    (writes : Writes dir name before staging generation tried) (volumeSound : before.Sound)
    {index : Nat} (new : index ∉ tried) (below : index < UInt64.size) {fps : List Fingerprint}
    (ascending : Ascending fps) {fill : Writer → Keeping σ Writer}
    (fills : ∀ (writer : Writer) (after : Volume), after.Sound →
      Changes (At ((dir.child (stagingName name)).child (segmentFile index))) NoFile before after →
      writer.Sound after [] → writer.file = before.contents.size →
        Keeping.Runs (fill writer) state after Nowhere (Only writer.file)
          (fun filled last final => last = state ∧ filled.Sound final fps ∧
            filled.target = writer.target) fun _ _ => True) :
    Keeping.Runs (staging.fileSegment fill index) state before
      (At ((dir.child (stagingName name)).child (segmentFile index))) NoFile
      (fun recorded last after => last = state ∧
        Writes dir name after recorded (generation.add { index, held := fps }) (index :: tried))
      fun _ _ => True := by
  have own (id : FileId) (only : Only before.contents.size id) : before.Fresh id :=
    Nat.le_of_eq only.symm
  suffices fresh : Keeping.Runs (staging.fileSegment fill index) state before
      (At ((dir.child (stagingName name)).child (segmentFile index))) before.Fresh
      (fun recorded last after => last = state ∧
        Writes dir name after recorded (generation.add { index, held := fps }) (index :: tried))
      fun _ _ => True from
    fresh.widen (fun _ inside => inside) fun _ known fresh => absurd known (Nat.not_lt.mpr fresh)
  have creates := (writes.segmentWriter_runs volumeSound new below).mono
    fun _ _ changes holds => And.intro changes holds
  apply Keeping.Runs.liftThen (creates.widen (fun _ same => same) fun _ _ none => none.elim)
  · exact fun _ _ => trivial
  rintro writer created - ⟨changes, taken, target⟩
  simp only [Writer.target, Prod.mk.injEq] at target
  obtain ⟨path, kind, file, stride, -⟩ := target
  have createdSound := changes.sound volumeSound
  have runs := (fills writer created createdSound changes taken file).mono
    (fun _ _ _ changes holds => And.intro changes holds) fun _ _ _ holds => holds
  apply Keeping.Runs.bind (runs.widen (fun _ nowhere => nowhere.elim) fun id _ only =>
    own id (file ▸ only))
  rintro filled last after - ⟨more, rfl, filledSound, same⟩
  simp only [Writer.target, Prod.mk.injEq] at same
  obtain ⟨samePath, sameKind, sameFile, sameStride, -⟩ := same
  have finishes := Writer.finish_runs (more.sound createdSound) filledSound
  apply Keeping.Runs.liftThen (finishes.widen (fun _ nowhere => nowhere.elim) fun id _ only =>
    own id (file ▸ sameFile ▸ only))
  · exact fun _ _ => trivial
  rintro written final since ⟨holds, -, describes⟩
  apply Keeping.Runs.pure
  refine ⟨rfl, ?_⟩
  have stored : Part.Stored final (dir.child (stagingName name)) { index, held := fps } := by
    rw [samePath, sameKind, path, kind] at holds
    exact ⟨_, holds⟩
  rw [sameStride, stride] at describes
  have whole : Changes (At ((dir.child (stagingName name)).child (segmentFile index))) before.Fresh
      before final :=
    ((changes.toFresh before).trans (more.mono (fun _ nowhere => nowhere.elim) fun id _ only =>
      own id (file ▸ only))).trans since
  have filed := writes.of_changes volumeSound new whole.ofFresh fun _ _ same => same
  exact filed.record ⟨below, ascending⟩ stored describes

namespace Holder

variable {holder : Holder dir name σ}

/-- A set holds fingerprints, and its keeper is in charge of the checkpoints. -/
structure Keeps (holder : Holder dir name σ) (last staged : Option Generation)
    (held : List Fingerprint) (volume : Volume) (state : σ) : Prop where
  holds : holder.Holds volume held state
  keeper : (holder.keeper state).Sound dir name last staged volume

theorem seat_part (holder : Holder dir name σ) (state : σ) :
    holder.seat (holder.keeper state) (holder.seat default state) = state := by
  rw [holder.seat_seat, holder.seat_keeper]

/-- Work around the keeper of a set. -/
def onKeeper {α : Type} (holder : Holder dir name σ) (work : Keeping CheckpointKeeper α) :
    Keeping σ α :=
  Keeping.onPart holder.keeper holder.seat work

/-- Write a checkpoint of a set. -/
def begin (holder : Holder dir name σ) (seed : UInt64) (bits : Nat)
    (fill : Staging → Keeping σ Staging) : Keeping σ Unit := do
  let staging ← holder.onKeeper (CheckpointKeeper.beginStaging seed bits)
  let staging ← fill staging
  let _ ← holder.onKeeper (CheckpointKeeper.stage staging)

/-- Publish the checkpoint that was written last. -/
def commit (holder : Holder dir name σ) : Keeping σ Unit := do
  let _ ← holder.onKeeper CheckpointKeeper.commit

/-- Given segments are written, and the set holds what it held. -/
def Fills (holder : Holder dir name σ) (held : List Fingerprint) (keeper : CheckpointKeeper)
    (start : Generation) (parts : List Part) (filled : Staging) (final : σ) (after : Volume) : Prop :=
  holder.keeper final = keeper ∧ holder.Holds after held final ∧
    ∃ tried, Writes dir name after filled { start with parts } tried

/-- What beginning a checkpoint leaves when no step is refused. -/
def Begun (holder : Holder dir name σ) (last staged : Option Generation) (held : List Fingerprint)
    (result : Except Error Unit) (final : σ) (after : Volume) : Prop :=
  match result with
  | .ok () => ¬CheckpointKeeper.Hinders name last staged ∧ ∃ generation,
      generation.held.Perm held ∧ holder.Keeps last (some generation) held after final
  | .error _ => CheckpointKeeper.Hinders name last staged ∧ holder.Keeps last staged held after final

/-- What beginning a checkpoint leaves when no step is refused and given segments are written. -/
def Wrote (holder : Holder dir name σ) (seed : UInt64) (bits : Nat) (parts : List Part)
    (last staged : Option Generation) (held : List Fingerprint) (result : Except Error Unit)
    (final : σ) (after : Volume) : Prop :=
  match result with
  | .ok () => ¬CheckpointKeeper.Hinders name last staged ∧ ∃ number,
      holder.Keeps last (some { number, seed, segmentBits := bits, parts }) held after final
  | .error _ => CheckpointKeeper.Hinders name last staged ∧ holder.Keeps last staged held after final

theorem Wrote.begun {seed : UInt64} {bits : Nat} {parts : List Part} {result : Except Error Unit}
    {final : σ} {after : Volume}
    (wrote : holder.Wrote seed bits parts last staged held result final after)
    (whole : (parts.flatMap (·.held)).Perm held) :
    holder.Begun last staged held result final after := by
  cases result with
  | ok _ =>
      obtain ⟨free, number, keeps⟩ := wrote
      exact ⟨free, { number, seed, segmentBits := bits, parts }, whole, keeps⟩
  | error _ => exact wrote

/-- A checkpoint that was begun does not meet anything that hinders it. -/
theorem not_hinders {keeper : CheckpointKeeper} {seed : UInt64} {bits : Nat} {staging : Staging}
    (volumeSound : before.Sound) (sound : keeper.Sound dir name last staged before)
    (begins : CheckpointKeeper.Begins dir name keeper last staged seed bits before staging) :
    ¬CheckpointKeeper.Hinders name last staged := by
  obtain ⟨idle, -, above, writes⟩ := begins
  rintro (busy | unfit | ⟨latest, same, most⟩)
  · exact busy idle
  · have there := writes.there
    apply unfit
    apply volumeSound.named (dir.child (stagingName name))
    · rw [there]
      exact Option.some_ne_none _
    · exact List.mem_append_right _ (List.mem_singleton_self _)
  · exact most (Nat.lt_of_le_of_lt (above latest same) sound.next)

theorem begin_ends (quiet : before.Quiet) (volumeSound : before.Sound)
    (keeps : holder.Keeps last staged held before state) {seed : UInt64} {bits : Nat}
    (fit : bits < UInt32.size) {fill : Staging → Keeping σ Staging} {paths : Path → Prop}
    (spares : Spares dir name paths)
    (staging : ∀ path, Within (dir.child (stagingName name)) path → paths path)
    {parts : List Part}
    (fills : ∀ (staging : Staging) (after : Volume) (start : Generation), after.Sound →
      holder.Holds after held state → start.parts = [] →
      Writes dir name after staging start [] →
      Keeping.Runs (fill staging) state after paths NoFile
        (holder.Fills held (holder.keeper state) start parts) fun _ _ => True) :
    Keeping.Ends (holder.begin seed bits fill) state before fun result final after =>
      Changes paths NoFile before after ∧
        holder.Wrote seed bits parts last staged held result final after := by
  have begins := CheckpointKeeper.beginStaging_ends volumeSound keeps.keeper seed bits
  apply Keeping.Ends.bind (Keeping.Ends.onPart begins)
  · rintro error _ after ⟨_, rfl, rfl, sound, changes, hinders⟩
    rw [holder.seat_part]
    have owned := changes.mono (fun _ => owned_staging) fun _ _ none => none
    exact ⟨changes.mono staging fun _ _ none => none, hinders quiet,
      holder.steady volumeSound owned keeps.holds, sound⟩
  rintro stagingArea _ begun ⟨_, rfl, rfl, sound, changes, starts⟩
  rw [holder.seat_part]
  have begunSound := changes.sound volumeSound
  have owned := changes.mono (fun _ => owned_staging) fun _ _ none => none
  have free := not_hinders begunSound sound starts
  obtain ⟨rfl, -, above, writes⟩ := starts
  have filling := fills stagingArea begun _ begunSound
    (holder.steady volumeSound owned keeps.holds) rfl writes
  have sinceBegun := changes.mono staging fun _ _ none => none
  apply Keeping.Ends.bindQuiet filling (changes.quiet quiet)
  rintro filled full written more ⟨same, holds, tried, writesAll⟩
  have writtenSound := more.sound begunSound
  have soundStill := sound.spared begunSound more spares writesAll.noFile
  rw [← same] at soundStill
  have stages := CheckpointKeeper.stage_runs writtenSound soundStill writesAll
    ⟨sound.next, fit, fun part mem => (writesAll.parts part mem).1⟩
    (congrArg CheckpointKeeper.nextGeneration same.symm) above
  apply Keeping.Ends.bindQuiet (Keeping.Runs.onPart stages) (more.quiet (changes.quiet quiet))
  rintro count final after since ⟨_, rfl, -, rfl, stagedSound⟩
  have within := since.mono (fun _ => Below.within) fun _ _ none => none
  have owned := within.mono (fun _ => owned_staging) fun _ _ none => none
  have whole := (sinceBegun.trans more).trans (within.mono staging fun _ _ none => none)
  refine Keeping.Ends.of_eq rfl ⟨whole, free, (holder.keeper state).nextGeneration, ?_, ?_⟩
  · rw [holder.seat_seat]
    exact holder.steady writtenSound owned (holder.holds_seat _ holds)
  · rw [holder.keeper_seat]
    exact stagedSound

/-- What a commit leaves when no step is refused. -/
def Committed (holder : Holder dir name σ) (last staged : Option Generation)
    (held : List Fingerprint) (result : Except Error Unit) (final : σ) (after : Volume) : Prop :=
  match result with
  | .ok () => ∃ generation, staged = some generation ∧
      FitsDirectory (generationName name generation.number) ∧
      generation.number + 1 < generationLimit ∧ holder.Keeps (some generation) none held after final
  | .error _ =>
      ((∀ generation, staged = some generation →
        ¬FitsDirectory (generationName name generation.number)) ∧
          holder.Keeps last staged held after final) ∨
      ∃ generation, staged = some generation ∧
        FitsDirectory (generationName name generation.number) ∧
        ¬generation.number + 1 < generationLimit ∧ holder.Keeps (some generation) none held after final

theorem leaves_committed (quiet : before.Quiet) (volumeSound : before.Sound)
    (keeps : holder.Keeps last staged held before state) {result : Except Error Manifest}
    {inner : CheckpointKeeper} {after : Volume} (changes : Changes (Owned dir name) NoFile before after)
    (leaves : CheckpointKeeper.CommitLeaves dir name (holder.keeper state) last before result inner
      after staged) :
    holder.Committed last staged held (result.map fun _ => ())
      (holder.seat inner (holder.seat default state)) after := by
  have holds := holder.steady volumeSound changes keeps.holds
  cases staged with
  | none =>
      obtain ⟨rfl, rfl, error, rfl⟩ := leaves
      rw [holder.seat_part]
      exact Or.inl ⟨(fun _ none => nomatch none), keeps⟩
  | some generation =>
      rcases leaves with ⟨rfl, sound, ⟨error, rfl⟩, unfit⟩ | ⟨sound, -, done, below⟩
      · rw [holder.seat_part]
        refine Or.inl ⟨?_, holds, sound⟩
        rintro _ same
        cases same
        exact unfit quiet
      · have keepsStill : holder.Keeps (some generation) none held after
            (holder.seat inner (holder.seat default state)) := by
          constructor
          · rw [holder.seat_seat]
            exact holder.holds_seat inner holds
          · rw [holder.keeper_seat]
            exact sound
        have fits : FitsDirectory (generationName name generation.number) := by
          have there := sound.kept.isGeneration generation rfl
          apply (changes.sound volumeSound).named (dir.child (generationName name generation.number))
          · rw [there]
            exact Option.some_ne_none _
          · exact List.mem_append_right _ (List.mem_singleton_self _)
        by_cases room : generation.number + 1 < generationLimit
        · rw [done quiet room]
          exact ⟨generation, rfl, fits, room, keepsStill⟩
        · cases result with
          | ok manifest => exact absurd (below manifest rfl) room
          | error error => exact Or.inr ⟨generation, rfl, fits, room, keepsStill⟩

theorem commit_ends (quiet : before.Quiet) (volumeSound : before.Sound)
    (keeps : holder.Keeps last staged held before state) :
    Keeping.Ends holder.commit state before fun result final after =>
      Changes (Owned dir name) NoFile before after ∧
        holder.Committed last staged held result final after := by
  have commits := CheckpointKeeper.commit_ends volumeSound keeps.keeper
  apply Keeping.Ends.bind (Keeping.Ends.onPart commits)
  · rintro error _ after ⟨inner, rfl, changes, left⟩
    exact ⟨changes, leaves_committed quiet volumeSound keeps changes left⟩
  · rintro manifest _ after ⟨inner, rfl, changes, left⟩
    exact Keeping.Ends.of_eq rfl ⟨changes, leaves_committed quiet volumeSound keeps changes left⟩

/-! ## One kind of set among others -/

section Among

variable {τ : Type} {wider : Holder dir name τ} {wrap : σ → τ} {after : Volume} {final : σ}

theorem Wrote.wrapped {seed : UInt64} {bits : Nat} {parts : List Part} {result : Except Error Unit}
    (keeps : ∀ {last staged held}, holder.Keeps last staged held after final →
      wider.Keeps last staged held after (wrap final))
    (wrote : holder.Wrote seed bits parts last staged held result final after) :
    wider.Wrote seed bits parts last staged held result (wrap final) after := by
  cases result with
  | ok _ =>
      obtain ⟨free, number, there⟩ := wrote
      exact ⟨free, number, keeps there⟩
  | error _ => exact ⟨wrote.1, keeps wrote.2⟩

theorem Committed.wrapped {result : Except Error Unit}
    (keeps : ∀ {last staged held}, holder.Keeps last staged held after final →
      wider.Keeps last staged held after (wrap final))
    (committed : holder.Committed last staged held result final after) :
    wider.Committed last staged held result (wrap final) after := by
  cases result with
  | ok _ =>
      obtain ⟨generation, same, fits, room, there⟩ := committed
      exact ⟨generation, same, fits, room, keeps there⟩
  | error _ =>
      rcases committed with ⟨unfit, there⟩ | ⟨generation, same, fits, full, there⟩
      · exact Or.inl ⟨unfit, keeps there⟩
      · exact Or.inr ⟨generation, same, fits, full, keeps there⟩

end Among

/-! ## Restoring -/

/-- The fingerprints of the generation published last. -/
def published : Option Generation → List Fingerprint
  | none => []
  | some latest => latest.held

/-- Fill an empty set from the last checkpoint. -/
def restored (holder : Holder dir name σ) (put : Fingerprint → Keeping σ Bool) (size : σ → Nat)
    (state : σ) : Task σ := do
  let recovered ← (holder.keeper state).recover
  match recovered with
  | none => pure state
  | some checkpoint => Keeping.build state (checkpoint.restore put size)

/-- A set that is filled from the last checkpoint is still what its puts leave it. -/
theorem restored_leaves {put : Fingerprint → Keeping σ Bool} {size : σ → Nat} {start filled : σ}
    {after : Volume} (kept : σ → Prop) (puts : ∀ state fp, kept state →
      Keeping.Leaves (put fp) state fun result last => ∀ known, result = .ok known → kept last)
    (here : kept start) (restored : holder.restored put size start before = (.ok filled, after)) :
    kept filled := by
  obtain ⟨recovered, found, -, restoring⟩ := exists_of_bind_ok restored
  cases recovered with
  | none =>
      obtain rfl := Except.ok.inj (Prod.mk.inj restoring).1
      exact here
  | some checkpoint =>
      have restores := Checkpoint.restore_leaves puts size checkpoint here
      exact (restores.mono fun _ _ still _ same => still same).of_build restoring

/-- What a put does to a set. -/
def Puts (holder : Holder dir name σ) (paths : Path → Prop) (put : Fingerprint → Keeping σ Bool) :
    Prop :=
  ∀ state held fp before, before.Sound → holder.Holds before held state →
    Keeping.Runs (put fp) state before paths NoFile
      (fun answer last after => (answer = true ↔ fp ∈ held) ∧
        holder.keeper last = holder.keeper state ∧
        holder.Holds after (if answer then held else fp :: held) last) fun _ _ => True

/-- Work that leaves the keeper and the checkpoints alone. -/
theorem Keeps.of_changes {paths : Path → Prop} {after : Volume} {others : List Fingerprint}
    {final : σ} (keeps : holder.Keeps last staged held before state) (volumeSound : before.Sound)
    (changes : Changes paths NoFile before after) (apart : Apart dir name paths)
    (same : holder.keeper final = holder.keeper state) (holds : holder.Holds after others final) :
    holder.Keeps last staged others after final := by
  refine ⟨holds, ?_⟩
  rw [same]
  exact keeps.keeper.of_changes volumeSound changes apart

/-- A put answers whether the fingerprint was held, and then it is held. -/
theorem put_ends {put : Fingerprint → Keeping σ Bool} {paths : Path → Prop}
    (puts : holder.Puts paths put) (apart : Apart dir name paths) (quiet : before.Quiet)
    (volumeSound : before.Sound) (keeps : holder.Keeps last staged held before state)
    (fp : Fingerprint) :
    Keeping.Ends (put fp) state before fun result final after =>
      Changes paths NoFile before after ∧ result = .ok (decide (fp ∈ held)) ∧
        holder.Keeps last staged (if fp ∈ held then held else fp :: held) after final := by
  apply Keeping.Ends.of_runs (puts state held fp before volumeSound keeps.holds)
  · rintro answer final after changes ⟨decides, same, holds⟩
    obtain rfl : answer = decide (fp ∈ held) := Bool.eq_iff_iff.mpr (by simpa using decides)
    simp only [decide_eq_true_eq] at holds
    exact ⟨changes, rfl, keeps.of_changes volumeSound changes apart same holds⟩
  · exact fun _ _ _ _ _ refused => absurd quiet refused

/-- Restoring a valid generation fills an empty set with what its files hold, and fails then
exactly if some fingerprint is in them twice. -/
theorem restore_meets {put : Fingerprint → Keeping σ Bool} {size : σ → Nat} {paths : Path → Prop}
    (puts : holder.Puts paths put)
    (sizes : ∀ volume held state, holder.Holds volume held state → size state = held.length)
    (volumeSound : before.Sound) {directory : Path} {number : Nat} {manifest : Manifest}
    (valid : Checkpoint.Valid before directory number manifest) (empty : holder.Holds before [] state) :
    let fps := listed before directory manifest.segments
    Meets (Keeping.build state (Checkpoint.restore put size { directory, manifest })) before
      (fun last after => Changes paths NoFile before after ∧ fps.Nodup ∧
        holder.keeper last = holder.keeper state ∧ holder.Holds after (sorted fps) last)
      fun error after => Changes paths NoFile before after ∧ (before.Quiet → ¬fps.Nodup ∧
        error = .corrupt (directory.child manifestFile)
          (.restoredMismatch (sorted fps).length manifest.generation manifest.count)) := by
  intro fps
  let taken (current : σ) (done : List Fingerprint) (volume : Volume) : Prop :=
    holder.keeper current = holder.keeper state ∧ holder.Holds volume (sorted done) current
  have steady (current : σ) (done : List Fingerprint) (first second : Volume) (sound : first.Sound)
      (changes : Changes Nowhere NoFile first second) (already : taken current done first) :
      taken current done second :=
    ⟨already.1, holder.steady sound changes.ofNothing already.2⟩
  have takes (current : σ) (done : List Fingerprint) (fp : Fingerprint) (rest : List Fingerprint)
      (middle : Volume) (sound : middle.Sound) (_ : done ++ fp :: rest = fps)
      (already : taken current done middle) :
      Keeping.Runs (put fp) current middle paths NoFile
        (fun _ last after => taken last (done ++ [fp]) after) fun _ _ => True := by
    apply (puts current (sorted done) fp middle sound already.2).mono
    · rintro answer last after _ ⟨decides, same, holds⟩
      obtain rfl : answer = decide (fp ∈ sorted done) :=
        Bool.eq_iff_iff.mpr (by rw [decides, decide_eq_true_iff])
      simp only [decide_eq_true_eq] at holds
      refine ⟨same.trans already.1, ?_⟩
      rw [sorted_congr fun _ => (List.perm_append_singleton fp done).mem_iff]
      exact holder.holds_perm (sorted_cons_perm fp done) holds
    · exact fun _ _ _ _ => trivial
  have counted : fps.length = manifest.count := valid.length_listed
  apply Meets.mono (Checkpoint.restore_meets steady takes volumeSound valid rfl ⟨rfl, empty⟩)
  · rintro last after ⟨changes, ⟨same, holds⟩, full⟩
    rw [sizes _ _ _ holds, ← counted] at full
    exact ⟨changes, length_sorted_iff.mp full, same, holds⟩
  · rintro error after ⟨changes, mismatch⟩
    refine ⟨changes, fun quiet => ?_⟩
    obtain ⟨last, ⟨-, holds⟩, short, rfl⟩ := mismatch quiet
    rw [sizes _ _ _ holds] at short ⊢
    refine ⟨fun distinct => short ?_, rfl⟩
    rw [← counted]
    exact length_sorted_iff.mpr distinct

/-- Restoring a complete generation that holds no fingerprint twice. -/
theorem restore_runs {put : Fingerprint → Keeping σ Bool} {size : σ → Nat} {paths : Path → Prop}
    (puts : holder.Puts paths put)
    (sizes : ∀ volume held state, holder.Holds volume held state → size state = held.length)
    {generation : Generation} (generationSound : generation.Sound) (counted : generation.Counted)
    (distinct : generation.held.Nodup) (volumeSound : before.Sound) {directory : Path}
    (complete : generation.Complete before directory) (empty : holder.Holds before [] state) :
    Runs (Keeping.build state (Checkpoint.restore put size
        { directory, manifest := generation.manifest })) before paths NoFile fun last after =>
      holder.keeper last = holder.keeper state ∧ holder.Holds after generation.held last := by
  have valid := valid_of_complete complete generationSound counted
  have restores := restore_meets puts sizes volumeSound valid empty
  rw [listed_of_complete complete] at restores
  apply Meets.mono restores
  · exact fun _ _ ⟨changes, _, same, holds⟩ =>
      ⟨changes, same, holder.holds_perm (sorted_perm distinct) holds⟩
  · exact fun _ _ ⟨changes, repeated⟩ => ⟨changes, fun quiet => (repeated quiet).1 distinct⟩

/-- A set that is filled from the last checkpoint holds what that checkpoint holds. -/
theorem restored_runs {put : Fingerprint → Keeping σ Bool} {size : σ → Nat} {paths : Path → Prop}
    (puts : holder.Puts paths put)
    (sizes : ∀ volume held state, holder.Holds volume held state → size state = held.length)
    (apart : Apart dir name paths) (quiet : before.Quiet)
    (counted : ∀ latest, last = some latest → latest.Counted)
    (distinct : (published last).Nodup) (volumeSound : before.Sound)
    (keeps : holder.Keeps last none [] before state) :
    Runs (holder.restored put size state) before (fun path => Owned dir name path ∨ paths path) NoFile
      fun full after => holder.Keeps last none (published last) after full := by
  have keeper := keeps.keeper
  have recovers : Runs (holder.keeper state).recover before
      (fun path => Owned dir name path ∨ paths path) NoFile fun found after =>
        Changes (Within (dir.child (stagingName name))) NoFile before after ∧
          Kept dir name last after ∧ found = last.map (Generation.checkpoint dir name) := by
    apply Meets.mono (CheckpointKeeper.recover_meets volumeSound keeper.path keeper.named keeper.kept)
    · rintro found after ⟨changes, kept, whenReadable⟩
      refine ⟨changes.mono (fun path within => Or.inl (owned_staging within)) fun _ _ none => none,
        changes, kept, whenReadable ⟨quiet, counted⟩⟩
    · rintro _ _ ⟨-, -, unreadable⟩
      exact absurd ⟨quiet, counted⟩ unreadable
  apply Runs.bind recovers
  rintro found recovered - ⟨changes, kept, rfl⟩
  have recoveredSound := changes.sound volumeSound
  have sound := keeper.staging_free volumeSound changes kept.staging
  have owned := changes.mono (fun _ => owned_staging) fun _ _ none => none
  have empty := holder.steady volumeSound owned keeps.holds
  cases last with
  | none => exact Runs.pure ⟨empty, sound⟩
  | some latest =>
      have restores := restore_runs puts sizes (kept.sound latest rfl) (counted latest rfl)
        distinct recoveredSound (kept.complete latest rfl) empty
      apply (restores.mono fun _ _ changes holds => And.intro changes holds).widen
        (fun _ => Or.inr) (fun _ _ none => none) |>.mono
      rintro full after - ⟨more, same, holds⟩
      refine ⟨holds, ?_⟩
      rw [same]
      exact sound.of_changes recoveredSound more apart

end Holder

end FingerprintSet
