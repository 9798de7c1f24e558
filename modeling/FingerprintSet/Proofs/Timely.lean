import FingerprintSet.Proofs.Merge
import FingerprintSet.Proofs.Segment.Whole
import FingerprintSet.Proofs.Storage.Leaving

/-!
# Errors that are no matter of time

Only the keeper of the checkpoints refuses an operation because it comes at the wrong time.  What
a set does around it, merging and reading pages and writing files, may fail for many reasons, but
never for that one, whatever the volume refuses and whatever its files hold.
-/

namespace FingerprintSet

open Storage

variable {α β σ τ : Type}

/-- A result other than the refusal of an operation that came at the wrong time. -/
def Timely (result : Except Error α) : Prop :=
  ∀ violation, result ≠ .error (.protocol violation)

namespace Timely

theorem ok (a : α) : Timely (.ok a : Except Error α) :=
  fun _ impossible => nomatch impossible

theorem error {error : Error} (other : ∀ violation, error ≠ .protocol violation) :
    Timely (.error error : Except Error α) :=
  fun violation same => other violation (Except.error.inj same)

/-- The same error as a result of another kind. -/
theorem again {error : Error} (timely : Timely (.error error : Except Error α)) :
    Timely (.error error : Except Error β) :=
  Timely.error fun violation same => timely violation (congrArg Except.error same)

theorem mapError {ε : Type} {rename : ε → Error} (result : Except ε α)
    (other : ∀ error violation, rename error ≠ .protocol violation) :
    Timely (result.mapError rename) := by
  cases result with
  | ok a => exact ok a
  | error error => exact Timely.error (other error)

end Timely

/-! ## Work on a volume -/

/-- Work on a volume that never ends with such a refusal. -/
def Task.Timely (task : Task α) : Prop :=
  ∀ before, FingerprintSet.Timely (task before).1

namespace Task.Timely

theorem pure (a : α) : Task.Timely (Pure.pure a) :=
  fun _ => .ok a

theorem ofExcept {result : Except Error α} (timely : FingerprintSet.Timely result) :
    Task.Timely (Task.ofExcept result) :=
  fun _ => timely

theorem throw {error : Error} (other : ∀ violation, error ≠ .protocol violation) :
    Task.Timely (throw error : Task α) :=
  fun _ => .error other

theorem bind {task : Task α} {next : α → Task β} (first : Task.Timely task)
    (second : ∀ a, Task.Timely (next a)) : Task.Timely (task >>= next) := by
  intro before
  have here := first before
  rw [bind_apply]
  revert here
  rcases task before with ⟨error | a, after⟩
  · exact fun here => here.again
  · exact fun _ => second a after

theorem tryCatch {task : Task α} {handler : Error → Task α} (first : Task.Timely task)
    (second : ∀ error, (∀ violation, error ≠ .protocol violation) → Task.Timely (handler error)) :
    Task.Timely (MonadExcept.tryCatch task handler) := by
  intro before
  have here := first before
  have caught : (MonadExcept.tryCatch task handler : Task α) before = _ :=
    tryCatch_apply task handler before
  rw [caught]
  revert here
  rcases task before with ⟨error | a, after⟩
  · exact fun here => second error (fun violation same => here violation (congrArg _ same)) after
  · exact fun _ => .ok a

/-- Errors under another name. -/
theorem adapt {ε : Type} {rename : ε → Error} (work : ExceptT ε (StateM Volume) α)
    (other : ∀ error violation, rename error ≠ .protocol violation) :
    Task.Timely (ExceptT.adapt rename work) :=
  fun before => .mapError (work before).1 other

theorem run (activity : Activity) (steps : Access α) : Task.Timely (activity.run steps) :=
  adapt steps fun _ _ impossible => nomatch impossible

/-- A look at the volume before anything else. -/
theorem getVolumeThen {next : Volume → Task α} (timely : ∀ volume, Task.Timely (next volume)) :
    Task.Timely (getThe Volume >>= next) :=
  fun before => timely before before

theorem foldlM {step : β → α → Task β} (each : ∀ b a, Task.Timely (step b a)) (items : List α)
    (b : β) : Task.Timely (items.foldlM step b) := by
  induction items generalizing b with
  | nil => exact pure b
  | cons item items ih =>
      rw [List.foldlM_cons]
      exact (each b item).bind ih

end Task.Timely

/-! ## Work around a state -/

/-- Work around a state that never ends with such a refusal. -/
def Keeping.Timely (work : Keeping σ α) : Prop :=
  ∀ state, Keeping.Leaves work state fun result _ => FingerprintSet.Timely result

namespace Keeping.Timely

theorem pure (a : α) : Keeping.Timely (Pure.pure a : Keeping σ α) :=
  fun _ => .pure (.ok a)

theorem ofExcept {result : Except Error α} (timely : FingerprintSet.Timely result) :
    Keeping.Timely (Keeping.ofExcept result : Keeping σ α) :=
  fun _ => .ofExcept timely

theorem lift {task : Task α} (timely : Task.Timely task) :
    Keeping.Timely (liftM task : Keeping σ α) :=
  fun _ before => timely before

theorem bind {work : Keeping σ α} {next : α → Keeping σ β} (first : Keeping.Timely work)
    (second : ∀ a, Keeping.Timely (next a)) : Keeping.Timely (work >>= next) := by
  intro state
  exact Keeping.Leaves.bind _ (first state) (fun a last _ => second a last) fun _ _ here => here.again

theorem getThen {next : σ → Keeping σ α} (timely : ∀ state, Keeping.Timely (next state)) :
    Keeping.Timely (get >>= next) :=
  fun state => .getThen (timely state state)

theorem modifyThen {change : σ → σ} {next : PUnit → Keeping σ α}
    (timely : Keeping.Timely (next ⟨⟩)) : Keeping.Timely (modify change >>= next) :=
  fun _ => .modifyThen (timely _)

theorem modifyGet (change : σ → α × σ) : Keeping.Timely (modifyGet change : Keeping σ α) :=
  fun _ _ => .ok _

theorem onPart [Inhabited τ] {part : σ → τ} {put : τ → σ → σ} {work : Keeping τ α}
    (timely : Keeping.Timely work) : Keeping.Timely (Keeping.onPart part put work) :=
  fun _ => .onPart (timely _)

theorem tryCatch {work : Keeping σ α} {handler : Error → Keeping σ α} (first : Keeping.Timely work)
    (second : ∀ error, (∀ violation, error ≠ .protocol violation) →
      Keeping.Timely (handler error)) : Keeping.Timely (MonadExcept.tryCatch work handler) := by
  intro state
  refine Keeping.Leaves.tryCatch (first state) (fun _ _ here => here) fun error last here => ?_
  exact second error (fun violation same => here violation (congrArg _ same)) last

/-- The outcome of work is timely if the work is, and that is all that comes of it. -/
theorem outcomeThen {work : Keeping σ α} {next : Except Error α → Keeping σ β}
    (first : Keeping.Timely work)
    (second : ∀ outcome, FingerprintSet.Timely outcome → Keeping.Timely (next outcome)) :
    Keeping.Timely (Keeping.outcome work >>= next) :=
  fun state before => second _ (first state before) _ _

theorem foldlM {step : β → α → Keeping σ β} (each : ∀ b a, Keeping.Timely (step b a))
    (items : List α) (b : β) : Keeping.Timely (items.foldlM step b) := by
  induction items generalizing b with
  | nil => exact pure b
  | cons item items ih =>
      rw [List.foldlM_cons]
      exact (each b item).bind ih

theorem forM {step : α → Keeping σ PUnit} (each : ∀ a, Keeping.Timely (step a)) (items : List α) :
    Keeping.Timely (items.forM step) := by
  induction items with
  | nil => exact pure _
  | cons item items ih => exact (each item).bind fun _ => ih

end Keeping.Timely

/-! ## Reading files -/

/-- A source does not give such a refusal. -/
def Pull.Timely (pull : Pull) : Prop :=
  ∀ violation, pull ≠ .failed (.protocol violation)

namespace SortedFile

theorem Reader.openAt_timely (path : Storage.Path) (kind : Kind) :
    Task.Timely (Reader.openAt path kind) := by
  apply (Task.Timely.run _ _).bind
  intro handle
  have named (defect : Defect) (violation : Violation) :
      Error.corrupt path defect ≠ .protocol violation := fun impossible => nomatch impossible
  apply (Task.Timely.adapt _ fun cause => named (.unreadableHeader cause)).bind
  intro bytes
  apply (Task.Timely.ofExcept (.mapError (Header.decode kind bytes.toList) named)).bind
  intro header
  apply (Task.Timely.run _ _).bind
  intro length
  split
  · exact .pure _
  · exact .throw fun _ impossible => nomatch impossible

theorem Reader.next_timely (reader : Reader) (before : Volume) :
    (reader.next before).1.2.Timely := by
  intro violation
  rw [next_apply]
  split
  · exact fun impossible => nomatch impossible
  · split
    · dsimp only
      split <;> exact fun impossible => nomatch impossible
    · rcases reader.fill before with ⟨_ | _, _⟩ <;> exact fun impossible => nomatch impossible

end SortedFile

namespace Merge

theorem enter_timely (rank : Nat) (source : Source) (lanes : List Lane) (before : Volume) :
    Timely (enter rank source lanes before).1 := by
  have asked : (source.next before).1.2.Timely := by
    cases source with
    | memory fps => cases fps <;> exact fun _ impossible => nomatch impossible
    | file reader => exact reader.next_timely before
  rw [enter_apply]
  revert asked
  rcases source.next before with ⟨⟨next, fp | error | _⟩, after⟩
  · exact fun _ => .ok _
  · exact fun asked => .error fun violation same => asked violation (congrArg _ same)
  · exact fun _ => .ok _

theorem start_timely (sources : List Source) (rank : Nat) (lanes : List Lane) (before : Volume) :
    Timely (start rank lanes sources before).1 := by
  induction sources generalizing rank lanes before with
  | nil => exact .ok _
  | cons source sources ih =>
      have entered := enter_timely rank source lanes before
      rw [start_apply]
      revert entered
      rcases enter rank source lanes before with ⟨error | lanes, after⟩
      · exact id
      · exact fun _ => ih _ _ _

theorem advance_timely (last : Option Fingerprint) (bound : Nat) (lanes : List Lane)
    (before : Volume) : (advance last bound lanes before).1.2.Timely := by
  induction bound generalizing lanes before with
  | zero => cases lanes <;> exact fun _ impossible => nomatch impossible
  | succ bound ih =>
      cases lanes with
      | nil => exact fun _ impossible => nomatch impossible
      | cons lane lanes =>
          have entered := enter_timely lane.rank lane.source lanes before
          rw [advance_apply]
          revert entered
          rcases enter lane.rank lane.source lanes before with ⟨error | lanes, after⟩
          · exact fun entered violation same =>
              entered violation (congrArg Except.error (Pull.failed.inj same))
          · intro _
            dsimp only
            split
            · exact ih _ _
            · exact fun _ impossible => nomatch impossible

theorem next_timely (merge : Merge) (before : Volume) : (merge.next before).1.2.Timely := by
  cases merge with
  | failed => exact fun _ impossible => nomatch impossible
  | running lanes last => exact advance_timely last (laneValues lanes) lanes before
  | fresh sources =>
      have started := start_timely sources 0 [] before
      rw [next_fresh_apply]
      revert started
      rcases start 0 [] sources before with ⟨error | lanes, after⟩
      · exact fun started violation same =>
          started violation (congrArg Except.error (Pull.failed.inj same))
      · exact fun _ => advance_timely _ _ _ _

theorem foldTo_timely {sink : σ → Fingerprint → Task σ} {giveUp : σ → Task Unit}
    (sinks : ∀ state fp, Task.Timely (sink state fp)) (givesUp : ∀ state, Task.Timely (giveUp state))
    (bound : Nat) (merge : Merge) (state : σ) :
    Task.Timely (foldTo sink giveUp bound merge state) := by
  induction bound generalizing merge state with
  | zero => exact .pure state
  | succ bound ih =>
      intro before
      have asked := merge.next_timely before
      rw [foldTo_apply]
      revert asked
      rcases merge.next before with ⟨⟨next, fp | error | _⟩, after⟩
      · exact fun _ => ((sinks state fp).bind fun state => ih next state) after
      · intro asked
        have fails : Task.Timely (throw error : Task σ) :=
          .throw fun violation same => asked violation (congrArg _ same)
        exact ((givesUp state).bind fun _ => fails) after
      · exact fun _ => .ok state

end Merge

/-! ## Writing files -/

namespace SortedFile.Writer

theorem create_timely (path : Storage.Path) (kind : Kind) (durable : Bool) (stride : Nat) :
    Task.Timely (create path kind durable stride) :=
  (Task.Timely.run _ _).bind fun _ => .pure _

theorem abandon_timely (writer : Writer) : Task.Timely writer.abandon :=
  fun _ => .ok ()

theorem orAbandon_timely (writer : Writer) {task : Task α} (timely : Task.Timely task) :
    Task.Timely (writer.orAbandon task) :=
  timely.tryCatch fun _ other => writer.abandon_timely.bind fun _ => .throw other

theorem push_timely (writer : Writer) (fp : Fingerprint) : Task.Timely (writer.push fp) := by
  rw [push]
  split
  · exact (writer.orAbandon_timely (.run _ _)).bind fun _ => .pure _
  · exact .pure _

theorem pushAll_timely (writer : Writer) (fps : List Fingerprint) :
    Task.Timely (writer.pushAll fps) :=
  Task.Timely.foldlM push_timely fps writer

theorem finish_timely (writer : Writer) : Task.Timely writer.finish :=
  (writer.orAbandon_timely (.run _ _)).bind fun _ => (Task.Timely.run _ _).bind fun _ => .pure _

end SortedFile.Writer

/-! ## Merging pages -/

theorem removeIfPresent_timely (path : Storage.Path) : Task.Timely (removeIfPresent path) :=
  .run _ _

theorem CompactionJob.run_timely (job : CompactionJob) : Task.Timely job.run := by
  have writes : Task.Timely job.write := by
    apply (SortedFile.Writer.create_timely _ _ _ _).bind
    intro writer
    apply (Merge.foldTo_timely SortedFile.Writer.push_timely SortedFile.Writer.abandon_timely
      _ _ _).bind
    exact SortedFile.Writer.finish_timely
  apply (writes.tryCatch _).bind
  · exact fun _ => .pure _
  · exact fun error other => (removeIfPresent_timely _).bind fun _ => .throw other

namespace PageStore

theorem openPages_timely (pages : List Page) : Task.Timely (openPages pages) := by
  induction pages with
  | nil => exact .pure _
  | cons page pages ih =>
      exact (SortedFile.Reader.openAt_timely _ _).bind fun _ => ih.bind fun _ => .pure _

theorem compactionJob_timely : Keeping.Timely compactionJob := by
  apply Keeping.Timely.getThen
  intro store
  rw [jobFor]
  split
  · exact .pure _
  · apply Keeping.Timely.getThen
    intro store
    apply (Keeping.Timely.lift (openPages_timely _)).bind
    intro readers
    exact (Keeping.Timely.modifyGet _).bind fun _ => .getThen fun _ => .pure _

theorem install_timely (merged : MergedPage) : Keeping.Timely (install merged) := by
  apply Keeping.Timely.getThen
  intro store
  dsimp only
  split
  · exact .lift (removeIfPresent_timely _)
  · exact .modifyThen (.forM (fun _ => .modifyThen (.lift (removeIfPresent_timely _))) _)

end PageStore

namespace Segment

theorem runCompaction_timely (job : CompactionJob) : Keeping.Timely (runCompaction job) := by
  apply Keeping.Timely.outcomeThen (.lift job.run_timely)
  intro outcome timely
  apply Keeping.Timely.modifyThen
  exact (Keeping.Timely.ofExcept timely).bind fun merged => .onPart (PageStore.install_timely merged)

theorem beginCompact_timely : Keeping.Timely beginCompact := by
  apply Keeping.Timely.getThen
  intro segment
  split
  · exact .pure _
  · apply (Keeping.Timely.onPart PageStore.compactionJob_timely).bind
    intro job
    rw [registerJob]
    split
    · exact .modifyThen (.pure _)
    · exact .pure _

theorem compact_timely : Keeping.Timely compact := by
  apply beginCompact_timely.bind
  intro job
  cases job with
  | none => exact .pure _
  | some job => exact runCompaction_timely job

/-- A scan is as timely as what it does with the fingerprints. -/
theorem scan_timely {sink : σ → Fingerprint → Task σ} {giveUp : σ → Task Unit}
    (sinks : ∀ state fp, Task.Timely (sink state fp)) (givesUp : ∀ state, Task.Timely (giveUp state))
    (state : σ) : Keeping.Timely (scan sink giveUp state) := by
  have takes : Keeping.Timely takeSnapshot := by
    apply Keeping.Timely.getThen
    intro segment
    apply (Keeping.Timely.lift (PageStore.openPages_timely _)).bind
    exact fun _ => .getThen fun _ => .modifyThen (.pure _)
  apply (takes.tryCatch _).bind
  · intro snapshot
    apply Keeping.Timely.outcomeThen (.lift (Merge.foldTo_timely sinks givesUp _ _ _))
    exact fun _ timely => .modifyThen (.ofExcept timely)
  · exact fun error other => (Keeping.Timely.lift (givesUp state)).bind fun _ =>
      .ofExcept (.error other)

end Segment

end FingerprintSet
