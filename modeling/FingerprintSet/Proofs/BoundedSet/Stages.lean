import FingerprintSet.Proofs.BoundedSet.Checkpoint

/-!
# A checkpoint step by step

Writing a checkpoint has a segment to itself only for moments: to prepare a merge, to settle it, to
take a snapshot and to let go of it.  Between these moments it works on files, and other threads may
use all segments.  Here the work is cut into these steps.  Taken one after the other they are the
whole work, and there are only so many of them.
-/

namespace FingerprintSet

open Storage Volume SortedFile

namespace BoundedSet

variable {α β : Type} {set : BoundedSet} {before : Volume} {index : Nat}

theorem onCheckpoints_apply (work : Keeping CheckpointKeeper α) (set : BoundedSet)
    (before : Volume) :
    onCheckpoints work set before =
      (((work set.checkpoints before).1.1,
        { set with checkpoints := (work set.checkpoints before).1.2 }),
        (work set.checkpoints before).2) :=
  rfl

/-! ## Work on one segment in pieces -/

theorem onSegment_apply (index : Nat) (work : Keeping Segment α) (set : BoundedSet)
    (before : Volume) :
    onSegment index work set before =
      (((work (set.segmentAt index) before).1.1,
        set.putSegment index (work (set.segmentAt index) before).1.2),
        (work (set.segmentAt index) before).2) := by
  rw [← putSegment_putSegment index default]
  rfl

theorem onSegment_eq {work : Keeping Segment α} {result : Except Error α} {segment : Segment}
    {after : Volume} (worked : work (set.segmentAt index) before = ((result, segment), after)) :
    onSegment index work set before = ((result, set.putSegment index segment), after) := by
  rw [onSegment_apply, worked]

theorem onSegment_pure (index : Nat) (a : α) (set : BoundedSet) (before : Volume) :
    onSegment index (pure a) set before = ((.ok a, set), before) := by
  rw [onSegment_apply]
  exact congrArg (fun last => ((Except.ok a, last), before)) (putSegment_self set index)

/-- Work on a segment can be interrupted. -/
theorem onSegment_bind (inside : index < set.segments.size) (work : Keeping Segment α)
    (next : α → Keeping Segment β) (before : Volume) :
    onSegment index (work >>= next) set before =
      (onSegment index work >>= fun a => onSegment index (next a)) set before := by
  rw [onSegment_apply, Keeping.bind_apply, Keeping.bind_apply, onSegment_apply]
  rcases work (set.segmentAt index) before with ⟨⟨error | a, last⟩, after⟩
  · rfl
  · dsimp only
    rw [onSegment_apply, segmentAt_putSegment last inside, if_pos rfl, putSegment_putSegment]

theorem onSegment_bindThen {γ : Type} (inside : index < set.segments.size) (work : Keeping Segment α)
    (next : α → Keeping Segment β) (more : β → Keeping BoundedSet γ) (before : Volume) :
    (onSegment index (work >>= next) >>= more) set before =
      (onSegment index work >>= fun a => onSegment index (next a) >>= more) set before := by
  rw [Keeping.bind_congr_left (onSegment_bind inside work next before), bind_assoc]

/-- Work on the volume alone is the same wherever it is done. -/
theorem onSegment_outcome (index : Nat) (task : Task α) (set : BoundedSet) (before : Volume) :
    onSegment index (Keeping.outcome (liftM task)) set before =
      ((.ok (task before).1, set), (task before).2) := by
  rw [onSegment_apply]
  exact congrArg (fun last => ((Except.ok (task before).1, last), (task before).2))
    (putSegment_self set index)

theorem onSegment_ofExcept (index : Nat) (result : Except Error α) (set : BoundedSet)
    (before : Volume) :
    onSegment index (Keeping.ofExcept result) set before = ((result, set), before) := by
  rw [onSegment_apply]
  exact congrArg (fun last => ((result, last), before)) (putSegment_self set index)

/-! ## The steps -/

/-- Where a checkpoint that is being written has got to. -/
inductive Stage
  /-- Nothing is done yet. -/
  | waiting
  /-- The next segment is the first of those that are left. -/
  | between (staging : Staging) (indexes : List Nat)
  /-- A merge of a segment's pages was prepared and not run. -/
  | merging (staging : Staging) (index : Nat) (indexes : List Nat) (job : CompactionJob)
  /-- The merge was run and not settled. -/
  | settling (staging : Staging) (index : Nat) (indexes : List Nat)
      (outcome : Except Error MergedPage)
  /-- The pages of a segment are merged, unless something read them. -/
  | merged (staging : Staging) (index : Nat) (indexes : List Nat)
  /-- A snapshot of a segment is being written to its file, with so many pulls at most to come. -/
  | reading (staging : Staging) (index : Nat) (indexes : List Nat) (bound : Nat) (writer : Writer)
      (snapshot : Merge)
  /-- The snapshot was read and is still held. -/
  | read (staging : Staging) (index : Nat) (indexes : List Nat) (outcome : Except Error Writer)
  | ended (result : Except Error Unit)
  deriving Inhabited

namespace Stage

/-- Take the next step. -/
def advance : Stage → Keeping BoundedSet Stage
  | waiting => do
      let set ← get
      let staging ← onCheckpoints (CheckpointKeeper.beginStaging set.seed set.plan.segmentBits)
      pure (between staging (List.range set.segments.size))
  | between staging [] => do
      let _ ← onCheckpoints (CheckpointKeeper.stage staging)
      pure (ended (.ok ()))
  | between staging (index :: indexes) => do
      match ← onSegment index Segment.beginCompact with
      | none => pure (merged staging index indexes)
      | some job => pure (merging staging index indexes job)
  | merging staging index indexes job => do
      let outcome ← Keeping.outcome (job.run : Task MergedPage)
      pure (settling staging index indexes outcome)
  | settling staging index indexes outcome => do
      onSegment index (Segment.settle outcome)
      pure (merged staging index indexes)
  | merged staging index indexes => do
      let writer ← (staging.segmentWriter index : Task Writer)
      let snapshot ← onSegment index (tryCatch Segment.takeSnapshot fun error => do
        (writer.abandon : Task Unit)
        throw error)
      pure (reading staging index indexes (snapshot.remaining + 1) writer snapshot)
  | reading staging index indexes 0 writer _ => pure (read staging index indexes (.ok writer))
  | reading staging index indexes (bound + 1) writer snapshot => do
      let (snapshot, pull) ← (liftM snapshot.next : Task (Merge × Pull))
      match pull with
      | .ended => pure (read staging index indexes (.ok writer))
      | .failed error => do
          (writer.abandon : Task Unit)
          pure (read staging index indexes (.error error))
      | .value fp => do
          match ← Keeping.outcome (writer.push fp : Task Writer) with
          | .ok writer => pure (reading staging index indexes bound writer snapshot)
          | .error error => pure (read staging index indexes (.error error))
  | read staging index indexes outcome => do
      onSegment index Segment.releaseSnapshot
      let writer ← Keeping.ofExcept outcome
      let written ← (writer.finish : Task Written)
      pure (between (staging.record index written) indexes)
  | ended result => pure (ended result)

/-- What is left of a checkpoint once the file of a segment is filled. -/
def finishSegment (staging : Staging) (index : Nat) (indexes : List Nat) (writer : Writer) :
    Keeping BoundedSet Unit := do
  let written ← (writer.finish : Task Written)
  let staging ← indexes.foldlM stageSegment (staging.record index written)
  let _ ← onCheckpoints (CheckpointKeeper.stage staging)

/-- What is left of a checkpoint once the pages of a segment are merged. -/
def writeSegment (staging : Staging) (index : Nat) (indexes : List Nat) :
    Keeping BoundedSet Unit := do
  let writer ← (staging.segmentWriter index : Task Writer)
  let writer ← onSegment index (Segment.scan Writer.push Writer.abandon writer)
  finishSegment staging index indexes writer

/-- What is left of a checkpoint. -/
def rest : Stage → Keeping BoundedSet Unit
  | waiting => beginCheckpoint
  | between staging indexes => do
      let staging ← indexes.foldlM stageSegment staging
      let _ ← onCheckpoints (CheckpointKeeper.stage staging)
  | merging staging index indexes job => do
      onSegment index (Segment.runCompaction job)
      writeSegment staging index indexes
  | settling staging index indexes outcome => do
      onSegment index (Segment.settle outcome)
      writeSegment staging index indexes
  | merged staging index indexes => writeSegment staging index indexes
  | reading staging index indexes bound writer snapshot => do
      let writer ← onSegment index do
        let outcome ← Keeping.outcome
          (snapshot.foldTo Writer.push Writer.abandon bound writer : Task Writer)
        Segment.releaseSnapshot
        Keeping.ofExcept outcome
      finishSegment staging index indexes writer
  | read staging index indexes outcome => do
      let writer ← onSegment index do
        Segment.releaseSnapshot
        Keeping.ofExcept outcome
      finishSegment staging index indexes writer
  | ended result => Keeping.ofExcept result

/-- The segments that a stage has still to do with. -/
def indexes (set : BoundedSet) : Stage → List Nat
  | waiting => List.range set.segments.size
  | between _ indexes => indexes
  | merging _ index indexes _ | settling _ index indexes _ | merged _ index indexes
  | reading _ index indexes _ _ _ | read _ index indexes _ => index :: indexes
  | ended _ => []

theorem lift_next (snapshot : Merge) (set : BoundedSet) (before : Volume) :
    (liftM (liftM snapshot.next : Task (Merge × Pull)) : Keeping BoundedSet (Merge × Pull)) set
        before =
      ((.ok (snapshot.next before).1, set), (snapshot.next before).2) :=
  rfl

theorem outcome_lift (task : Task α) (set : BoundedSet) (before : Volume) :
    (Keeping.outcome (liftM task) : Keeping BoundedSet (Except Error α)) set before =
      ((.ok (task before).1, set), (task before).2) :=
  rfl

/-- Reading a snapshot to its end is done before anything else on its segment. -/
theorem rest_reading {staging : Staging} {indexes : List Nat} (inside : index < set.segments.size)
    (bound : Nat) (writer : Writer) (snapshot : Merge) (before : Volume) :
    rest (reading staging index indexes bound writer snapshot) set before =
      rest (read staging index indexes
          (snapshot.foldTo Writer.push Writer.abandon bound writer before).1) set
        (snapshot.foldTo Writer.push Writer.abandon bound writer before).2 := by
  rw [rest, onSegment_bindThen inside, Keeping.bind_apply, onSegment_outcome]
  rfl

/-- A step and then the rest are what there was to be done. -/
theorem rest_advance (stage : Stage) (set : BoundedSet) (before : Volume)
    (inside : ∀ index ∈ stage.indexes set, index < set.segments.size) :
    (stage.advance >>= rest) set before = stage.rest set before := by
  cases stage with
  | waiting => simp only [advance, rest, beginCheckpoint, bind_assoc, pure_bind]
  | between staging indexes =>
      cases indexes with
      | nil =>
          simp only [advance, rest, bind_assoc, pure_bind, List.foldlM_nil]
          rfl
      | cons index indexes =>
          have here := inside index List.mem_cons_self
          simp only [advance, rest, stageSegment, List.foldlM_cons, bind_assoc, pure_bind]
          rw [Segment.compact, onSegment_bindThen here]
          apply Keeping.bind_congr_apply
          rintro (_ | job) last after -
          · rw [pure_bind, Keeping.bind_apply, onSegment_pure]
            simp only [rest, writeSegment, finishSegment]
          · rw [pure_bind]
            simp only [rest, writeSegment, finishSegment]
  | merging staging index indexes job =>
      have here := inside index List.mem_cons_self
      simp only [advance, rest, bind_assoc, pure_bind]
      rw [Segment.runCompaction, onSegment_bindThen here, Keeping.bind_apply, Keeping.bind_apply,
        onSegment_outcome]
      rfl
  | settling staging index indexes outcome =>
      simp only [advance, rest, bind_assoc, pure_bind]
  | merged staging index indexes =>
      have here := inside index List.mem_cons_self
      simp only [advance, rest, writeSegment, bind_assoc, pure_bind]
      apply Keeping.bind_congr_apply
      rintro writer last after created
      obtain rfl : set = last := congrArg (fun ended => ended.1.2) created
      rw [Segment.scan, onSegment_bindThen here]
      rfl
  | reading staging index indexes bound writer snapshot =>
      have here := inside index List.mem_cons_self
      rw [rest_reading here]
      cases bound with
      | zero => rfl
      | succ bound =>
          rw [Merge.foldTo_apply, advance, bind_assoc, Keeping.bind_apply, lift_next]
          rcases snapshot.next before with ⟨⟨later, pull⟩, after⟩
          cases pull with
          | ended => rfl
          | failed error => rfl
          | value fp =>
              dsimp only
              rw [bind_assoc, Keeping.bind_apply, outcome_lift, Storage.bind_apply]
              rcases writer.push fp after with ⟨error | pushed, final⟩
              · rfl
              · exact rest_reading here bound pushed later final
  | read staging index indexes outcome =>
      have here := inside index List.mem_cons_self
      simp only [advance, rest, finishSegment, bind_assoc, pure_bind]
      rw [onSegment_bindThen here]
      apply Keeping.bind_congr_apply
      rintro _ last after -
      rw [Keeping.bind_apply, Keeping.bind_apply, onSegment_ofExcept]
      cases outcome <;> rfl
  | ended result =>
      simp only [advance, rest, pure_bind]

/-- How far a stage is from the end: the steps that are left, and the pulls from the snapshot that
is being read. -/
def distance (set : BoundedSet) : Stage → Nat × Nat
  | waiting => (6 * set.segments.size + 2, 0)
  | between _ indexes => (6 * indexes.length + 1, 0)
  | merging _ _ indexes _ => (6 * indexes.length + 6, 0)
  | settling _ _ indexes _ => (6 * indexes.length + 5, 0)
  | merged _ _ indexes => (6 * indexes.length + 4, 0)
  | reading _ _ indexes bound _ _ => (6 * indexes.length + 3, bound)
  | read _ _ indexes _ => (6 * indexes.length + 2, 0)
  | ended _ => (0, 0)

/-- A step goes on to a later stage of a set with as many segments, or it fails. -/
structure Goes (set : BoundedSet) (stage : Stage) (result : Except Error Stage) (last : BoundedSet) :
    Prop where
  count : last.segments.size = set.segments.size
  indexes : ∀ next, result = .ok next → next.indexes last ⊆ stage.indexes set
  nearer : ∀ next, result = .ok next →
    Prod.Lex (· < ·) (· < ·) (next.distance last) (stage.distance set)

/-- Work that adds no segment and takes none away. -/
def Counts (work : Keeping BoundedSet α) : Prop :=
  ∀ set before, (work set before).1.2.segments.size = set.segments.size

theorem counts_onSegment (index : Nat) (work : Keeping Segment α) :
    Counts (onSegment index work) := by
  intro set before
  rw [onSegment_apply]
  exact size_putSegment ..

theorem counts_onCheckpoints (work : Keeping CheckpointKeeper α) : Counts (onCheckpoints work) :=
  fun _ _ => rfl

theorem counts_lift (task : Task α) : Counts (liftM task) :=
  fun _ _ => rfl

theorem counts_outcome (task : Task α) :
    Counts (Keeping.outcome (liftM task) : Keeping BoundedSet (Except Error α)) :=
  fun _ _ => rfl

theorem counts_ofExcept (result : Except Error α) :
    Counts (Keeping.ofExcept result : Keeping BoundedSet α) :=
  fun _ _ => rfl

variable {stage : Stage} {last : BoundedSet}

theorem goes_pure {next : Stage} {after : Volume} (same : last.segments.size = set.segments.size)
    (indexes : next.indexes last ⊆ stage.indexes set)
    (nearer : Prod.Lex (· < ·) (· < ·) (next.distance last) (stage.distance set)) :
    Keeping.Ends (pure next) last after fun result last _ => Goes set stage result last := by
  refine Keeping.Ends.of_eq rfl ⟨same, ?_, ?_⟩
  · rintro _ ⟨⟩
    exact indexes
  · rintro _ ⟨⟩
    exact nearer

theorem goes_bind {work : Keeping BoundedSet α} {next : α → Keeping BoundedSet Stage}
    {middle : BoundedSet} (counts : Counts work) (same : middle.segments.size = set.segments.size)
    (goesOn : ∀ a last after, last.segments.size = set.segments.size →
      Keeping.Ends (next a) last after fun result last _ => Goes set stage result last) :
    Keeping.Ends (work >>= next) middle before fun result last _ => Goes set stage result last := by
  have count := (counts middle before).trans same
  rcases result : work middle before with ⟨⟨error | a, last⟩, after⟩ <;> rw [result] at count
  · have failed : (work >>= next) middle before = ((.error error, last), after) := by
      rw [Keeping.bind_apply, result]
    exact Keeping.Ends.of_eq failed ⟨count, (fun _ none => nomatch none), fun _ none => nomatch none⟩
  · have goes : (work >>= next) middle before = next a last after := by
      rw [Keeping.bind_apply, result]
    exact Keeping.Ends.comesTo goes (goesOn a last after count)

/-- Each step but those of a checkpoint that has ended comes nearer to the end, or it fails. -/
theorem advance_goes (stage : Stage) (set : BoundedSet) (before : Volume)
    (isOpen : ∀ result, stage ≠ ended result) :
    Keeping.Ends stage.advance set before fun result last _ => Goes set stage result last := by
  cases stage with
  | waiting =>
      apply Keeping.Ends.getThen
      apply goes_bind (counts_onCheckpoints _) rfl
      intro staging last after same
      apply goes_pure same (List.Subset.refl _)
      apply Prod.Lex.left
      rw [List.length_range]
      exact Nat.lt_succ_self _
  | between staging indexes =>
      cases indexes with
      | nil =>
          apply goes_bind (counts_onCheckpoints _) rfl
          intro _ last after same
          exact goes_pure same (List.Subset.refl _) (Prod.Lex.left _ _ (Nat.zero_lt_succ _))
      | cons index indexes =>
          apply goes_bind (counts_onSegment index _) rfl
          rintro (_ | job) last after same
          · refine goes_pure same (List.Subset.refl _) (Prod.Lex.left _ _ ?_)
            rw [List.length_cons]
            omega
          · refine goes_pure same (List.Subset.refl _) (Prod.Lex.left _ _ ?_)
            rw [List.length_cons]
            omega
  | merging staging index indexes job =>
      apply goes_bind (counts_outcome _) rfl
      intro outcome last after same
      exact goes_pure same (List.Subset.refl _) (Prod.Lex.left _ _ (Nat.lt_succ_self _))
  | settling staging index indexes outcome =>
      apply goes_bind (counts_onSegment index _) rfl
      intro _ last after same
      exact goes_pure same (List.Subset.refl _) (Prod.Lex.left _ _ (Nat.lt_succ_self _))
  | merged staging index indexes =>
      apply goes_bind (counts_lift _) rfl
      intro writer middle created same
      apply goes_bind (counts_onSegment index _) same
      intro snapshot last after same
      exact goes_pure same (List.Subset.refl _) (Prod.Lex.left _ _ (Nat.lt_succ_self _))
  | reading staging index indexes bound writer snapshot =>
      have drained (outcome : Except Error Writer) (last : BoundedSet) (after : Volume)
          (same : last.segments.size = set.segments.size) :
          Keeping.Ends (pure (read staging index indexes outcome)) last after fun result last _ =>
            Goes set (reading staging index indexes bound writer snapshot) result last :=
        goes_pure same (List.Subset.refl _) (Prod.Lex.left _ _ (Nat.lt_succ_self _))
      cases bound with
      | zero => exact drained _ set before rfl
      | succ bound =>
          apply goes_bind (counts_lift _) rfl
          rintro ⟨later, fp | error | _⟩ middle pulled same
          · apply goes_bind (counts_outcome _) same
            rintro (error | pushed) last after same
            · exact drained _ last after same
            · exact goes_pure same (List.Subset.refl _) (Prod.Lex.right _ (Nat.lt_succ_self _))
          · apply goes_bind (counts_lift _) same
            exact fun _ last after same => drained _ last after same
          · exact drained _ middle pulled same
  | read staging index indexes outcome =>
      apply goes_bind (counts_onSegment index _) rfl
      intro _ middle released same
      apply goes_bind (counts_ofExcept _) same
      intro writer middle taken same
      apply goes_bind (counts_lift _) same
      intro written last after same
      exact goes_pure same (List.subset_cons_self _ _) (Prod.Lex.left _ _ (Nat.lt_succ_self _))
  | ended result => exact absurd rfl (isOpen result)

end Stage

end BoundedSet

end FingerprintSet
