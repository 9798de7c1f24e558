import FingerprintSet.Proofs.Checkpoint.Around
import FingerprintSet.Proofs.Checkpoint.Charge

/-!
# A set turn by turn

What beginning and committing a checkpoint leave of a set, whatever the steps that are refused.  Of
itself a set has to say only what it keeps when its operations fail, and that filling the files of
its segments keeps it.
-/

namespace FingerprintSet

open Storage Volume SortedFile Checkpoint

/-! ## Files of segments -/

section Files

variable {σ : Type} {state : σ} {fill : Writer → Keeping σ Writer}

/-- Writing a file does to a state what filling the file does, which is nothing. -/
theorem fileSegment_leaves
    (fills : ∀ writer, Keeping.Leaves (fill writer) state fun _ last => last = state)
    (index : Nat) (staging : Staging) :
    Keeping.Leaves (staging.fileSegment fill index) state fun _ last => last = state := by
  refine Keeping.Leaves.bind (fun _ last => last = state) (Keeping.Leaves.lift fun _ => rfl) ?_
    fun _ _ same => same
  intro writer current unchanged
  rw [unchanged]
  refine Keeping.Leaves.bind (fun _ last => last = state) (fills writer) ?_ fun _ _ same => same
  rintro filled last same
  exact Keeping.Leaves.bind (fun _ last => last = state) (Keeping.Leaves.lift fun _ => same)
    (fun _ _ still => Keeping.Leaves.pure still) fun _ _ still => still

theorem fileSegment_timely (fills : ∀ writer, Keeping.Timely (fill writer)) (index : Nat)
    (staging : Staging) : Keeping.Timely (staging.fileSegment fill index) := by
  apply (Keeping.Timely.lift (Writer.create_timely _ _ _ _)).bind
  intro writer
  apply (fills writer).bind
  intro filled
  exact (Keeping.Timely.lift filled.finish_timely).bind fun _ => .pure _

end Files

/-! ## Sets as their keeper sees them -/

namespace Holder

variable {σ : Type} {before : Volume} {dir : Path} {name : String} {most few many : Nat}
  {holder : Holder dir name σ} {state : σ}

/-- What a kind of set keeps of itself whether or not its operations fail, while they use up so many
page numbers.  Checkpoints have no part in it. -/
structure Temper (holder : Holder dir name σ) where
  Calm : Nat → Volume → σ → Prop
  mono : ∀ {few many volume state}, few ≤ many → Calm few volume state → Calm many volume state
  seat : ∀ {spent volume state} other, Calm spent volume state →
    Calm spent volume (holder.seat other state)
  steady : ∀ {spent before after state}, before.Sound → Changes (Owned dir name) NoFile before after →
    Calm spent before state → Calm spent after state
  reschedule : ∀ {spent volume state} faults, Calm spent volume state →
    Calm spent (volume.reschedule faults) state

/-- A set that any operation may come to next. -/
structure Orderly (temper : holder.Temper) (most spent : Nat) (volume : Volume) (state : σ) :
    Prop where
  tree : volume.Sound
  charge : (holder.keeper state).InCharge dir name most volume
  calm : temper.Calm spent volume state

variable {temper : holder.Temper} {seed : UInt64} {bits : Nat} {fill : Staging → Keeping σ Staging}

/-- Each operation can have a schedule of its own. -/
theorem Orderly.reschedule {spent : Nat} (orderly : holder.Orderly temper most spent before state)
    (faults : Nat → Option Errno) :
    holder.Orderly temper most spent (before.reschedule faults) state :=
  ⟨orderly.tree.reschedule faults, orderly.charge.reschedule faults,
    temper.reschedule faults orderly.calm⟩

/-- Steps that change nothing change nothing of this. -/
theorem Orderly.of_look {spent : Nat} {after : Volume}
    (orderly : holder.Orderly temper most spent before state)
    (changes : Changes Nowhere NoFile before after) :
    holder.Orderly temper most spent after state :=
  ⟨changes.sound orderly.tree, orderly.charge.of_changes changes (apart_nowhere dir name),
    temper.steady orderly.tree changes.ofNothing orderly.calm⟩

theorem Orderly.mono {spent more : Nat} (orderly : holder.Orderly temper most spent before state)
    (below : most ≤ many) (fewer : spent ≤ more) : holder.Orderly temper many more before state :=
  ⟨orderly.tree, orderly.charge.mono below, temper.mono fewer orderly.calm⟩

/-- A keeper that changed only what it owns takes its seat again. -/
theorem Orderly.reseat {spent : Nat} {after : Volume} {keeper : CheckpointKeeper}
    (orderly : holder.Orderly temper most spent before state)
    (owned : Changes (Owned dir name) NoFile before after)
    (charge : keeper.InCharge dir name many after) :
    holder.Orderly temper many spent after (holder.seat keeper state) := by
  refine ⟨owned.sound orderly.tree, ?_, ?_⟩
  · rw [holder.keeper_seat]
    exact charge
  · exact temper.seat keeper (temper.steady orderly.tree owned orderly.calm)

/-- Putting leaves a set calm, whether or not it fails, and uses up two page numbers at most. -/
def KeepsCalm (temper : holder.Temper) (paths : Path → Prop) (limit : Nat)
    (put : Fingerprint → Keeping σ Bool) : Prop :=
  ∀ state spent fp before, before.Sound → temper.Calm spent before state → spent + 2 < limit →
    Keeping.Runs (put fp) state before paths NoFile
      (fun _ last after => holder.keeper last = holder.keeper state ∧
        temper.Calm (spent + 2) after last)
      fun last after => holder.keeper last = holder.keeper state ∧ temper.Calm (spent + 2) after last

theorem put_orderly {paths : Path → Prop} {limit spent : Nat} {put : Fingerprint → Keeping σ Bool}
    (puts : KeepsCalm temper paths limit put) (apart : Apart dir name paths)
    (orderly : holder.Orderly temper most spent before state) (room : spent + 2 < limit)
    (fp : Fingerprint) :
    Keeping.Ends (put fp) state before fun _ last after =>
      Changes paths NoFile before after ∧ holder.Orderly temper most (spent + 2) after last ∧
        holder.keeper last = holder.keeper state := by
  have leaves {last : σ} {after : Volume} (changes : Changes paths NoFile before after)
      (calm : holder.keeper last = holder.keeper state ∧ temper.Calm (spent + 2) after last) :
      Changes paths NoFile before after ∧ holder.Orderly temper most (spent + 2) after last ∧
        holder.keeper last = holder.keeper state :=
    ⟨changes, ⟨changes.sound orderly.tree, calm.1 ▸ orderly.charge.of_changes changes apart, calm.2⟩,
      calm.1⟩
  apply Keeping.Ends.of_runs (puts state spent fp before orderly.tree orderly.calm room)
  · exact fun _ _ _ changes calm => leaves changes calm
  · exact fun _ _ _ changes calm _ => leaves changes calm

theorem begin_busy (busy : (holder.keeper state).staged ≠ none) (before : Volume) :
    holder.begin seed bits fill state before =
      ((.error (.protocol .alreadyStaged), state), before) := by
  rw [begin, Keeping.bind_apply, onKeeper, Keeping.onPart_apply,
    CheckpointKeeper.beginStaging_busy busy, holder.seat_part]

/-- While nothing waits, beginning comes at the right time. -/
theorem begin_timely (idle : (holder.keeper state).staged = none)
    (fills : ∀ staging, Keeping.Timely (fill staging)) :
    Keeping.Leaves (holder.begin seed bits fill) state fun result _ => Timely result := by
  refine Keeping.Leaves.bind (fun result _ => Timely result)
    (Keeping.Leaves.onPart (CheckpointKeeper.beginStaging_timely idle seed bits)) ?_
    fun _ _ timely => timely.again
  intro staging last _
  refine (?_ : Keeping.Timely _) last
  apply (fills staging).bind
  intro filled
  exact (Keeping.Timely.onPart (CheckpointKeeper.stage_timely filled)).bind fun _ => .pure ()

/-- What beginning a checkpoint leaves: one that waits, with a number above all generations there
were, or none. -/
def Turned (temper : holder.Temper) (most spent : Nat) (state : σ) (before : Volume)
    (result : Except Error Unit) (final : σ) (after : Volume) : Prop :=
  holder.Orderly temper most spent after final ∧
    (holder.keeper state).nextGeneration ≤ (holder.keeper final).nextGeneration ∧
    match result with
    | .ok _ => ∃ manifest, (holder.keeper final).staged = some manifest ∧
        ∀ item, Stands before dir name item → item.1 < manifest.generation
    | .error _ => (holder.keeper final).staged = none ∧
        (before.Quiet → ¬FitsDirectory (stagingName name))

/-- What filling the segments' files leaves, whether or not a step was refused: the keeper as it was,
and the directory that is written to. -/
def FillLeaves (temper : holder.Temper) (spent : Nat) (keeper : CheckpointKeeper) (final : σ)
    (after : Volume) : Prop :=
  holder.keeper final = keeper ∧ temper.Calm spent after final

/-- Filling the files leaves the keeper in charge of what is there then. -/
theorem Orderly.filled {keeper : CheckpointKeeper} {inner : Path → Prop} {final : σ} {after : Volume}
    (orderly : holder.Orderly temper most few before (holder.seat keeper state))
    (idle : keeper.staged = none) (apart : Apart dir name inner)
    (filling : Changes (fun path => Below (dir.child (stagingName name)) path ∨ inner path) NoFile
      before after)
    (filled : holder.FillLeaves temper many keeper final after) :
    holder.Orderly temper most many after final := by
  obtain ⟨same, calm⟩ := filled
  have charge := orderly.charge
  rw [holder.keeper_seat] at charge
  have outside : ¬inner (dir.child (stagingName name)) :=
    apart.owned _ (owned_staging (Path.within_self _))
  have within := filling.mono (fun path => Or.imp_left Below.within) fun _ _ none => none
  refine ⟨filling.sound orderly.tree, ?_, calm⟩
  rw [same]
  apply charge.spared idle within ((spares_staging dir name).or apart.spares)
  rw [filling.entry_eq _ (not_or_intro (not_below_self _) outside)]
  exact charge.staging

/-- What work leaves that sets out from a state that other work has left. -/
theorem Turned.since {start final : σ} {middle after : Volume} {result : Except Error Unit}
    (turned : holder.Turned temper most many state middle result final after)
    (low : (holder.keeper start).nextGeneration ≤ (holder.keeper state).nextGeneration)
    (stands : ∀ item, Stands before dir name item → Stands middle dir name item)
    (quiet : before.Quiet → middle.Quiet) :
    holder.Turned temper most many start before result final after := by
  obtain ⟨orderly, still, ends⟩ := turned
  refine ⟨orderly, Nat.le_trans low still, ?_⟩
  cases result with
  | ok _ =>
      obtain ⟨manifest, staged, above⟩ := ends
      exact ⟨manifest, staged, fun item stood => above item (stands item stood)⟩
  | error error => exact ⟨ends.1, fun since => ends.2 (quiet since)⟩

/-- The last part of beginning a checkpoint is to note what was written. -/
theorem stage_turned {staging : Staging} {generation : Generation} {tried : List Nat}
    (orderly : holder.Orderly temper most many before state)
    (idle : (holder.keeper state).staged = none) (room : most + 1 < generationLimit)
    (writes : Writes dir name before staging generation tried)
    (number : generation.number = (holder.keeper state).nextGeneration)
    (above : ∀ item, Stands before dir name item → item.1 < (holder.keeper state).nextGeneration) :
    Keeping.Ends (do let _ ← holder.onKeeper (CheckpointKeeper.stage staging)) state before
      fun result final after => Changes (Within (dir.child (stagingName name))) NoFile before after ∧
        holder.Turned temper most many state before result final after := by
  have stages := orderly.charge.stage_runs orderly.tree idle room writes number above
  apply Keeping.Ends.bindRuns (Keeping.Runs.onPart stages)
  · rintro error _ after below ⟨_, rfl, rfl, charge⟩ refused
    have within := below.mono (fun _ => Below.within) fun _ _ none => none
    have owned := within.mono (fun _ => owned_staging) fun _ _ none => none
    have orderlyAfter := orderly.reseat owned charge
    rw [holder.seat_keeper] at orderlyAfter
    rw [holder.seat_part]
    refine ⟨within, orderlyAfter, Nat.le_refl _, idle, ?_⟩
    exact fun quiet => absurd quiet refused
  · rintro count _ after below ⟨_, rfl, final, charge⟩
    have within := below.mono (fun _ => Below.within) fun _ _ none => none
    have owned := within.mono (fun _ => owned_staging) fun _ _ none => none
    rw [holder.seat_seat]
    apply Keeping.Ends.of_eq rfl
    refine ⟨within, orderly.reseat owned charge, ?_, generation.manifest, ?_, ?_⟩
    · exact Nat.le_of_eq (by rw [holder.keeper_seat, final])
    · rw [holder.keeper_seat, final]
    · intro item stood
      exact Nat.lt_of_lt_of_eq (above item stood) number.symm

/-- Beginning a checkpoint while none waits. -/
theorem begin_turned (orderly : holder.Orderly temper most few before state)
    (idle : (holder.keeper state).staged = none) (room : most + 1 < generationLimit)
    (more : few ≤ many) {inner : Path → Prop} (apart : Apart dir name inner)
    (fills : ∀ staging keeper middle number, middle.Sound →
      temper.Calm few middle (holder.seat keeper state) →
      Writes dir name middle staging { number, seed, segmentBits := bits, parts := [] } [] →
      Keeping.Runs (fill staging) (holder.seat keeper state) middle
        (fun path => Below (dir.child (stagingName name)) path ∨ inner path) NoFile
        (fun filled final after => holder.FillLeaves temper many keeper final after ∧
          ∃ generation tried, Writes dir name after filled generation tried ∧
            generation.number = number)
        fun final after => holder.FillLeaves temper many keeper final after) :
    Keeping.Ends (holder.begin seed bits fill) state before fun result final after =>
      Changes (fun path => Within (dir.child (stagingName name)) path ∨ inner path) NoFile
        before after ∧ holder.Turned temper most many state before result final after := by
  have begins := orderly.charge.beginStaging_ends orderly.tree idle room seed bits
  apply Keeping.Ends.bind (Keeping.Ends.onPart begins)
  · rintro error _ after ⟨last, rfl, changes, charge, still, low, unfit⟩
    have owned := changes.mono (fun _ => owned_staging) fun _ _ none => none
    rw [holder.seat_seat]
    refine ⟨changes.mono (fun _ => Or.inl) fun _ _ none => none,
      (orderly.reseat owned charge).mono (Nat.le_refl most) more, ?_⟩
    rw [holder.keeper_seat]
    exact ⟨low, still, unfit⟩
  rintro staging _ begun ⟨keeper, rfl, changes, charge, still, low, above, writes⟩
  rw [holder.seat_seat]
  have owned := changes.mono (fun _ => owned_staging) fun _ _ none => none
  have orderlyBegun := orderly.reseat owned charge
  have sinceBegun : Changes (fun path => Within (dir.child (stagingName name)) path ∨ inner path)
      NoFile before begun := changes.mono (fun _ => Or.inl) fun _ _ none => none
  apply Keeping.Ends.bindRuns
    (fills staging keeper begun _ orderlyBegun.tree orderlyBegun.calm writes)
  · rintro error final after filling filled refused
    have within := filling.mono (fun path => Or.imp_left Below.within) fun _ _ none => none
    refine ⟨sinceBegun.trans within, orderlyBegun.filled still apart filling filled, ?_⟩
    rw [filled.1]
    exact ⟨low, still, fun quiet => absurd (changes.quiet quiet) refused⟩
  rintro filled full written filling ⟨there, generation, tried, writesAll, number⟩
  have orderlyFull := orderlyBegun.filled still apart filling there
  obtain ⟨same, -⟩ := there
  have within := filling.mono (fun path => Or.imp_left Below.within) fun _ _ none => none
  have sinceFilled := sinceBegun.trans within
  have stands (item : Nat × Path) : Stands written dir name item ↔ Stands before dir name item :=
    stands_congr sinceFilled ((spares_staging dir name).or apart.spares)
  have stages := stage_turned orderlyFull (same ▸ still) room writesAll (same ▸ number)
    fun item stood => same ▸ above item ((stands item).mp stood)
  apply stages.mono
  rintro result final after ⟨staged, turned⟩
  refine ⟨sinceFilled.trans (staged.mono (fun _ => Or.inl) fun _ _ none => none), ?_⟩
  exact turned.since (same ▸ low) (fun item => (stands item).mpr)
    fun quiet => within.quiet (changes.quiet quiet)

/-! A set has no part in committing but that its keeper does it. -/

theorem commit_apply (holder : Holder dir name σ) (state : σ) (before : Volume) :
    holder.commit state before =
      (((CheckpointKeeper.commit (holder.keeper state) before).1.1.map fun _ => (),
        holder.seat (CheckpointKeeper.commit (holder.keeper state) before).1.2 state),
          (CheckpointKeeper.commit (holder.keeper state) before).2) := by
  rw [commit, Keeping.bind_apply, onKeeper, Keeping.onPart_apply]
  rcases CheckpointKeeper.commit (holder.keeper state) before with ⟨⟨_ | _, last⟩, after⟩
  · rw [holder.seat_seat]
    rfl
  · rw [holder.seat_seat]
    rfl

theorem commit_idle (idle : (holder.keeper state).staged = none) (before : Volume) :
    holder.commit state before = ((.error (.protocol .nothingStaged), state), before) := by
  rw [commit_apply, CheckpointKeeper.commit_idle idle, holder.seat_keeper]
  rfl

/-- While something waits, committing comes at the right time. -/
theorem commit_timely (waits : (holder.keeper state).staged ≠ none) :
    Keeping.Leaves holder.commit state fun result _ => Timely result := by
  refine Keeping.Leaves.bind (fun result _ => Timely result)
    (Keeping.Leaves.onPart (CheckpointKeeper.commit_timely waits)) ?_ fun _ _ timely => timely.again
  exact fun _ _ _ => .pure (.ok ())

theorem commit_refused {manifest : Manifest} (staged : (holder.keeper state).staged = some manifest)
    {errno : Errno} (refused : before.faults before.clock = some errno) :
    ∃ error, holder.commit state before = ((.error error, state), before.ticked) := by
  rw [commit_apply, CheckpointKeeper.commit_refused staged refused, holder.seat_keeper]
  exact ⟨_, rfl⟩

/-- How committing ends that no step of is refused. -/
def Settles (temper : holder.Temper) (most spent : Nat) (manifest : Manifest) (state : σ)
    (before : Volume) (result : Except Error Unit) (final : σ) (after : Volume) : Prop :=
  match result with
  | .ok _ => holder.Orderly temper (most + 1) spent after final ∧
      CheckpointKeeper.Publishes dir name most (holder.keeper state) manifest before
        (holder.keeper final) after
  | .error _ => ¬FitsDirectory (generationName name manifest.generation) ∧ final = state ∧
      after = before.ticked

theorem commit_settles {manifest : Manifest} {spent : Nat}
    (orderly : holder.Orderly temper most spent before state) (quiet : before.Quiet)
    (staged : (holder.keeper state).staged = some manifest) (room : most + 2 < generationLimit) :
    Keeping.Ends holder.commit state before (holder.Settles temper most spent manifest state before) := by
  have commits := orderly.charge.commit_ends orderly.tree quiet staged room
  refine Keeping.Ends.of_eq (holder.commit_apply state before) ?_
  revert commits
  rw [Keeping.Ends]
  rcases CheckpointKeeper.commit (holder.keeper state) before with ⟨⟨_ | _, last⟩, after⟩
  · rintro ⟨unfit, rfl, rfl⟩
    exact ⟨unfit, holder.seat_keeper state, rfl⟩
  · intro publishes
    refine ⟨orderly.reseat publishes.changes publishes.charge, ?_⟩
    rw [holder.keeper_seat]
    exact publishes

end Holder

end FingerprintSet
