import FingerprintSet.Proofs.BoundedSet.Cut

/-!
# Steps amid a checkpoint

A set in use stays sound whatever step comes next.  A step of the checkpoint leads from one of its
stages to another and moves fingerprints inside the set at most; a step of a call leaves the
checkpoint where it is and adds what it puts.
-/

namespace FingerprintSet

open Storage Volume SortedFile Checkpoint

namespace BoundedSet

variable {dir : Path} {name : String} {latest staged : Option Generation}
  {begun held : List Fingerprint} {set last : BoundedSet} {before after : Volume}
  {staging : Staging} {indexes : List Nat} {generation : Generation}

/-! ## Steps of the checkpoint -/

/-- One more call waits in front of the others on a segment. -/
def withCall (index : Nat) (call : Segment.Call) (calls : Nat → List Segment.Call) :
    Nat → List Segment.Call :=
  Function.update calls index (call :: calls index)

theorem alone_append (index : Nat) (call : Segment.Call) (calls : Nat → List Segment.Call) :
    (fun other => alone index call other ++ calls other) = withCall index call calls := by
  funext other
  rw [alone, withCall, Function.update_apply, Function.update_apply]
  by_cases same : other = index
  · rw [if_pos same, if_pos same, same]
    rfl
  · rw [if_neg same, if_neg same]
    rfl

theorem update_withCall (index : Nat) (call : Segment.Call) (calls : Nat → List Segment.Call)
    (others : List Segment.Call) :
    Function.update (withCall index call calls) index others = Function.update calls index others :=
  Function.update_idem _ _ _

theorem lane_withCall (set : BoundedSet) (calls : Nat → List Segment.Call) (index : Nat)
    (call : Segment.Call) :
    set.lane (withCall index call calls) index = (set.lane calls index).led call := by
  rw [lane, withCall, Function.update_self]
  rfl

theorem update_front (index : Nat) (call : Segment.Call) (calls : Nat → List Segment.Call) :
    Function.update calls index (call :: calls index) =
      fun other => alone index call other ++ calls other :=
  (alone_append index call calls).symm

theorem update_back (index : Nat) (calls : Nat → List Segment.Call) :
    Function.update calls index (calls index) = fun other => [] ++ calls other :=
  Function.update_eq_self index calls

/-- A call that begins waits behind the others, which is as good as in front of them. -/
theorem alone_perm (index : Nat) (call : Segment.Call) (calls : Nat → List Segment.Call)
    (other : Nat) : (alone index call other ++ calls other).Perm
      (Function.update calls index (calls index ++ [call]) other) := by
  rw [alone, Function.update_apply, Function.update_apply]
  by_cases same : other = index
  · rw [if_pos same, if_pos same, same]
    exact (List.perm_append_singleton call (calls index)).symm
  · rw [if_neg same, if_neg same]
    exact List.Perm.refl _

/-- What is known of a set in use between two steps. -/
structure Usage.Sound (dir : Path) (name : String) (latest staged : Option Generation)
    (begun held : List Fingerprint) (homes : Homes) (start volume : Volume)
    (entries : Nat → PageId → List Fingerprint) (own : Nat → List Segment.Call) (usage : Usage) :
    Prop where
  busy : usage.set.Busy homes start volume entries fun index => own index ++ usage.calls index
  holds : ∀ fp, fp ∈ usage.set.contents entries ↔ fp ∈ held
  since : begun ⊆ held
  place : usage.set.overflow = overflowDirectory dir name
  bits : usage.set.plan.segmentBits = usage.set.router.segmentBits
  progress : Progress dir name latest staged begun held usage.set volume usage.stage own

/-- The same is known after a step, and the checkpoint is begun. -/
def Usage.Leads (dir : Path) (name : String) (latest staged : Option Generation)
    (begun held : List Fingerprint) (homes : Homes) (start : Volume) (ended : Usage × Volume) :
    Prop :=
  ended.1.stage.IsBegun ∧
    ∃ entries own, ended.1.Sound dir name latest staged begun held homes start ended.2 entries own

theorem Busy.congr {homes : Homes} {start : Volume} {entries : Nat → PageId → List Fingerprint}
    {calls others : Nat → List Segment.Call} (busy : set.Busy homes start before entries calls)
    (same : ∀ index, (others index).Perm (calls index)) :
    set.Busy homes start before entries others :=
  { busy with lanes := fun index inside => (busy.lanes index inside).congr rfl (same index) }

theorem Arranged.mem_segment_iff {homes : Homes} {entries : Nat → PageId → List Fingerprint}
    (arranged : set.Arranged homes entries) {index : Nat} (inside : index < set.segments.size)
    {fp : Fingerprint} : fp ∈ (set.segmentAt index).all (entries index) ↔
      fp ∈ set.contents entries ∧ set.router.segment fp = index := by
  rw [arranged.mem_contents_iff]
  constructor
  · intro mem
    have here := arranged.routed index inside fp mem
    exact ⟨here.symm ▸ mem, here⟩
  · rintro ⟨mem, rfl⟩
    exact mem

/-- A step of the checkpoint on one segment moves fingerprints inside the set at most. -/
theorem Busy.onLane {homes : Homes} {start : Volume} {entries : Nat → PageId → List Fingerprint}
    {calls others : Nat → List Segment.Call} (busy : set.Busy homes start before entries calls)
    (place : set.overflow = overflowDirectory dir name)
    (holds : ∀ fp, fp ∈ set.contents entries ↔ fp ∈ held) {index : Nat}
    (inside : index < set.segments.size) {move : Segment.Move} (quietly : move.asked = none)
    {lane : Segment.Traffic}
    (performed : (set.lane calls index).perform set.router.bucket move before = (lane, after))
    (isLast : set.putSegment index lane.segment = last)
    (waiting : Function.update calls index lane.calls = others) :
    ∃ lists, last.Busy homes start after lists others ∧
      Changes (Within (overflowDirectory dir name)) NoFile before after ∧
      ∀ fp, fp ∈ last.contents lists ↔ fp ∈ held := by
  subst isLast waiting
  obtain ⟨_, busyNext, changes, gains⟩ := busy.step inside
    (fun fp asks => nomatch quietly.symm.trans asks) performed
  refine ⟨_, busyNext, place ▸ changes, fun fp => ?_⟩
  rw [gains, quietly, holds]
  exact or_iff_left fun none => nomatch none

namespace Usage

variable {homes : Homes} {start : Volume} {entries : Nat → PageId → List Fingerprint}
  {own : Nat → List Segment.Call} {usage : Usage} {index : Nat}

/-- The same where a call of the checkpoint waits in front of the others. -/
theorem Sound.onCall {call : Segment.Call}
    (sound : usage.Sound dir name latest staged begun held homes start before entries
      (alone index call))
    (inside : index < usage.set.segments.size) {move : Segment.Move} (quietly : move.asked = none)
    {others : Nat → List Segment.Call} {lane : Segment.Traffic}
    (performed : ((usage.set.lane usage.calls index).led call).perform usage.set.router.bucket move
      before = (lane, after)) (isLast : usage.set.putSegment index lane.segment = last)
    (waiting : Function.update usage.calls index lane.calls = others) :
    ∃ lists, last.Busy homes start after lists others ∧
      Changes (Within (overflowDirectory dir name)) NoFile before after ∧
      ∀ fp, fp ∈ last.contents lists ↔ fp ∈ held := by
  have busy := sound.busy
  rw [alone_append] at busy
  rw [← lane_withCall] at performed
  rw [← update_withCall index call] at waiting
  exact busy.onLane sound.place sound.holds inside quietly performed isLast waiting

theorem Sound.lane_sound {call : Segment.Call}
    (sound : usage.Sound dir name latest staged begun held homes start before entries
      (alone index call))
    (inside : index < usage.set.segments.size) :
    ((usage.set.lane usage.calls index).led call).Sound homes start before (entries index) := by
  have lanes := sound.busy.lanes index inside
  rw [alone_append, lane_withCall] at lanes
  exact lanes

theorem moved_putSegment (index : Nat) (segment : Segment) (set : BoundedSet) :
    Moved set (set.putSegment index segment) where
  checkpoints := rfl
  router := rfl
  count := size_putSegment index segment set

/-- Where a step of the checkpoint leads to. -/
theorem Sound.reaches
    (sound : usage.Sound dir name latest staged begun held homes start before entries own)
    {others : Nat → PageId → List Fingerprint} {mine : Nat → List Segment.Call}
    {result : Except Error Stage}
    (advanced : usage.stage.advance usage.set before = ((result, last), after))
    (busy : last.Busy homes start after others fun index => mine index ++ usage.calls index)
    (holds : ∀ fp, fp ∈ last.contents others ↔ fp ∈ held)
    (same : last.overflow = usage.set.overflow ∧ last.plan = usage.set.plan ∧
      last.router = usage.set.router)
    (progress : Progress dir name latest staged begun held last after (.reached result) mine)
    (later : (Stage.reached result).IsBegun) :
    Leads dir name latest staged begun held homes start (usage.perform .checkpoint before) := by
  obtain ⟨overflow, plan, router⟩ := same
  rw [perform_checkpoint advanced]
  exact ⟨later, others, mine,
    { busy := busy
      holds := holds
      since := sound.since
      place := overflow.trans sound.place
      bits := by
        show last.plan.segmentBits = last.router.segmentBits
        rw [plan, router]
        exact sound.bits
      progress := progress }⟩

/-- A merge of the next segment's pages is prepared, unless something reads them. -/
theorem Sound.between_leads
    (sound : usage.Sound dir name latest staged begun held homes start before entries fun _ => [])
    (stage : usage.stage = .between staging (index :: indexes))
    (reached : Reached dir name latest staged begun held usage.set staging (index :: indexes)
      generation before) :
    Leads dir name latest staged begun held homes start (usage.perform .checkpoint before) := by
  have inside := reached.inside
  obtain ⟨job, segment, after, result, -, -⟩ := (Segment.beginCompact_runs sound.busy.tree
    (sound.busy.lanes index inside).segment).of_quiet sound.busy.quiet
  have performed :
      (usage.set.lane usage.calls index).perform usage.set.router.bucket .compact before =
        ((usage.set.lane usage.calls index).compactBegun segment (.ok job), after) :=
    Segment.Traffic.perform_compact result
  have begins : onSegment index Segment.beginCompact usage.set before =
      ((.ok job, usage.set.putSegment index segment), after) := onSegment_eq result
  have still {middle : Volume}
      (changes : Changes (Within (overflowDirectory dir name)) NoFile before middle) :=
    (reached.of_changes changes (apart_overflow dir name)).moved
      (moved_putSegment index segment usage.set) (List.Subset.refl held)
  cases job with
  | none =>
      have advanced : usage.stage.advance usage.set before =
          ((.ok (.merged staging index indexes), usage.set.putSegment index segment), after) := by
        rw [stage, Stage.advance, Keeping.bind_apply, begins]
        rfl
      obtain ⟨_, busy, changes, holds⟩ :=
        sound.busy.onLane sound.place sound.holds inside rfl performed rfl
          (update_back index usage.calls)
      exact sound.reaches advanced busy holds ⟨rfl, rfl, rfl⟩ (.merged (still changes)) trivial
  | some job =>
      have advanced : usage.stage.advance usage.set before =
          ((.ok (.merging staging index indexes job), usage.set.putSegment index segment),
            after) := by
        rw [stage, Stage.advance, Keeping.bind_apply, begins]
        rfl
      obtain ⟨_, busy, changes, holds⟩ :=
        sound.busy.onLane sound.place sound.holds inside rfl performed rfl rfl
      exact sound.reaches advanced (busy.congr (alone_perm index _ usage.calls)) holds
        ⟨rfl, rfl, rfl⟩ (.merging (still changes)) trivial

/-- The merge is run. -/
theorem Sound.merging_leads {job : CompactionJob}
    (sound : usage.Sound dir name latest staged begun held homes start before entries
      (alone index (.merging none job)))
    (stage : usage.stage = .merging staging index indexes job)
    (reached : Reached dir name latest staged begun held usage.set staging (index :: indexes)
      generation before) :
    Leads dir name latest staged begun held homes start (usage.perform .checkpoint before) := by
  rcases ran : job.run before with ⟨outcome, after⟩
  have here : ((usage.set.lane usage.calls index).led (.merging none job)).calls[0]? =
      some (.merging none job) := rfl
  obtain ⟨_, busy, changes, holds⟩ := sound.onCall reached.inside rfl
    (Segment.Traffic.perform_run here ran) (putSegment_self usage.set index)
    (update_front index (.settling none outcome) usage.calls)
  have advanced : usage.stage.advance usage.set before =
      ((.ok (.settling staging index indexes outcome), usage.set), after) := by
    rw [stage, Stage.advance, Keeping.bind_apply, Stage.outcome_lift, ran]
    rfl
  exact sound.reaches advanced busy holds ⟨rfl, rfl, rfl⟩
    (.settling (reached.of_changes changes (apart_overflow dir name))) trivial

/-- The merge is settled. -/
theorem Sound.settling_leads {outcome : Except Error MergedPage}
    (sound : usage.Sound dir name latest staged begun held homes start before entries
      (alone index (.settling none outcome)))
    (stage : usage.stage = .settling staging index indexes outcome)
    (reached : Reached dir name latest staged begun held usage.set staging (index :: indexes)
      generation before) :
    Leads dir name latest staged begun held homes start (usage.perform .checkpoint before) := by
  have lane := sound.lane_sound reached.inside
  have waits := lane.calls (.settling none outcome) List.mem_cons_self
  cases outcome with
  | error error => exact absurd sound.busy.begun waits
  | ok merged =>
      obtain ⟨_, segment, after, result, -, -⟩ :=
        (Segment.settle_runs sound.busy.tree lane.segment waits.1).of_quiet sound.busy.quiet
      have here : ((usage.set.lane usage.calls index).led (.settling none (.ok merged))).calls[0]? =
          some (.settling none (.ok merged)) := rfl
      obtain ⟨_, busy, changes, holds⟩ := sound.onCall reached.inside rfl
        (Segment.Traffic.perform_settle here result) rfl (update_back index usage.calls)
      have settles : onSegment index (Segment.settle (.ok merged)) usage.set before =
          ((.ok (), usage.set.putSegment index segment), after) := onSegment_eq result
      have advanced : usage.stage.advance usage.set before =
          ((.ok (.merged staging index indexes), usage.set.putSegment index segment), after) := by
        rw [stage, Stage.advance, Keeping.bind_apply, settles]
        rfl
      have still := (reached.of_changes changes (apart_overflow dir name)).moved
        (moved_putSegment index segment usage.set) (List.Subset.refl held)
      exact sound.reaches advanced busy holds ⟨rfl, rfl, rfl⟩ (.merged still) trivial

/-- The file of the segment is created and the snapshot is taken. -/
theorem Sound.merged_leads
    (sound : usage.Sound dir name latest staged begun held homes start before entries fun _ => [])
    (stage : usage.stage = .merged staging index indexes)
    (reached : Reached dir name latest staged begun held usage.set staging (index :: indexes)
      generation before) :
    Leads dir name latest staged begun held homes start (usage.perform .checkpoint before) := by
  have inside := reached.inside
  have below := sound.busy.index_lt inside
  obtain ⟨tried, writes, known⟩ := reached.writes
  obtain ⟨writer, created, creates, creating, fresh, target⟩ :=
    (writes.segmentWriter_runs reached.tree (reached.new known) below).of_quiet sound.busy.quiet
  have elsewhere (path : Path) (within : Within usage.set.overflow path) :
      ¬At ((dir.child (stagingName name)).child (segmentFile index)) path := by
    rintro rfl
    rw [sound.place] at within
    exact (apart_overflow dir name).owned _ (owned_staging (Path.within_child _ _)) within
  have busyCreated := sound.busy.of_changes creating (fun _ none => none.elim) elsewhere
  have here : (usage.set.segmentAt index).Sound homes created (entries index) :=
    (busyCreated.lanes index inside).segment
  obtain ⟨snapshot, segment, after, result, -, -⟩ :=
    (Segment.takeSnapshot_runs busyCreated.tree here).of_quiet busyCreated.quiet
  have performed :
      (usage.set.lane usage.calls index).perform usage.set.router.bucket .snapshot created =
        ((usage.set.lane usage.calls index).snapshotBegun
          (sorted ((usage.set.segmentAt index).held created)) segment (.ok snapshot), after) :=
    Segment.Traffic.perform_snapshot result
  obtain ⟨_, busy, changes, holds⟩ :=
    busyCreated.onLane sound.place sound.holds inside rfl performed rfl rfl
  have takes (fp : Fingerprint) : fp ∈ sorted ((usage.set.segmentAt index).held created) ↔
      fp ∈ held ∧ usage.set.router.segment fp = index := by
    rw [mem_sorted, here.held_eq, ← sound.holds fp]
    exact busyCreated.mem_segment_iff inside
  have caught : (tryCatch Segment.takeSnapshot fun error => do
        (writer.abandon : Task Unit)
        throw error : Keeping Segment Merge) (usage.set.segmentAt index) created =
      ((.ok snapshot, segment), after) := by
    rw [Keeping.tryCatch_apply, result]
  have advanced : usage.stage.advance usage.set before =
      ((.ok (.reading staging index indexes (snapshot.remaining + 1) writer snapshot),
        usage.set.putSegment index segment), after) := by
    rw [stage, Stage.advance, Keeping.bind_apply, Keeping.lift_apply, creates]
    dsimp only
    rw [Keeping.bind_apply, onSegment_eq caught]
    rfl
  have filling : Filling dir name index before created staging.durable writer [] :=
    ⟨creating.mono (fun _ => Or.inl) fun _ _ none => none, fresh, target⟩
  refine sound.reaches advanced (busy.congr (alone_perm index _ usage.calls)) holds ⟨rfl, rfl, rfl⟩
    (.reading (reached.moved (moved_putSegment index segment usage.set) (List.Subset.refl held))
      (filling.of_changes busyCreated.tree changes) ?_ (List.nil_append _).symm rfl
      (Nat.lt_succ_self _)) trivial
  exact reached.captures.snoc takes sound.since

/-- The next fingerprint of the snapshot is added to the file, or there is none. -/
theorem Sound.reading_leads {bound : Nat} {writer : Writer} {snapshot : Merge} {origin : Volume}
    {taken pushed left : List Fingerprint} {pulls : List Pull}
    (sound : usage.Sound dir name latest staged begun held homes start before entries
      (alone index (.reading taken pulls snapshot)))
    (stage : usage.stage = .reading staging index indexes bound writer snapshot)
    (reached : Reached dir name latest staged begun held usage.set staging (index :: indexes)
      generation origin)
    (filling : Filling dir name index origin before staging.durable writer pushed)
    (captures : Captures usage.set.router begun held
      (generation.add { index, held := taken }).parts)
    (split : taken = pushed ++ left) (pulled : pulls.length = pushed.length)
    (enough : snapshot.remaining < bound) :
    Leads dir name latest staged begun held homes start (usage.perform .checkpoint before) := by
  have inside := reached.inside
  obtain ⟨-, -, streams⟩ := (sound.lane_sound inside).calls (.reading taken pulls snapshot)
    List.mem_cons_self sound.busy.begun
  rw [split, pulled, List.drop_left] at streams
  obtain ⟨later, pull, after, asked, -, given⟩ := Merge.next_gives streams
  have here : ((usage.set.lane usage.calls index).led (.reading taken pulls snapshot)).calls[0]? =
      some (.reading taken pulls snapshot) := rfl
  obtain ⟨_, busy, changes, holds⟩ := sound.onCall inside rfl
    (Segment.Traffic.perform_pull here asked) (putSegment_self usage.set index)
    (update_front index (.reading taken (pulls ++ [pull]) later) usage.calls)
  have fillingStill := filling.of_changes sound.busy.tree changes
  obtain ⟨bound, rfl⟩ := Nat.exists_eq_succ_of_ne_zero (Nat.ne_zero_of_lt enough)
  cases pull with
  | ended =>
      obtain ⟨rfl, -⟩ := given
      rw [List.append_nil] at split
      subst split
      have advanced : usage.stage.advance usage.set before =
          ((.ok (.read staging index indexes (.ok writer)), usage.set), after) := by
        rw [stage, Stage.advance, Keeping.bind_apply, Stage.lift_next, asked]
        rfl
      exact sound.reaches advanced busy holds ⟨rfl, rfl, rfl⟩ (.read reached fillingStill captures)
        trivial
  | failed error => exact absurd sound.busy.quiet given
  | value fp =>
      obtain ⟨rest, rfl, -, fewer⟩ := given
      obtain ⟨filled, final, result, pushing, grown, same⟩ :=
        (Writer.push_runs busy.tree fillingStill.sound fp).of_quiet busy.quiet
      have advanced : usage.stage.advance usage.set before =
          ((.ok (.reading staging index indexes bound filled later), usage.set), final) := by
        rw [stage, Stage.advance, Keeping.bind_apply, Stage.lift_next, asked]
        dsimp only
        rw [Keeping.bind_apply, Stage.outcome_lift, result]
        rfl
      have busyFinal := busy.of_changes pushing
        (fun id only => only ▸ fillingStill.sound.not_isPage) fun _ _ nowhere => nowhere
      have fillingFinal : Filling dir name index origin final staging.durable filled
          (pushed ++ [fp]) :=
        ⟨fillingStill.written pushing, grown, same.trans fillingStill.target⟩
      have splitNext : taken = pushed ++ [fp] ++ rest := by
        rw [split, List.append_assoc]
        rfl
      have pulledNext : (pulls ++ [Pull.value fp]).length = (pushed ++ [fp]).length := by
        rw [List.length_append, List.length_append, pulled]
        rfl
      exact sound.reaches advanced busyFinal holds ⟨rfl, rfl, rfl⟩
        (.reading reached fillingFinal captures splitNext pulledNext
          (Nat.lt_of_lt_of_le fewer (Nat.lt_succ_iff.mp enough))) trivial

/-- The snapshot is let go of, and the file is finished. -/
theorem Sound.read_leads {writer : Writer} {snapshot : Merge} {origin : Volume}
    {taken : List Fingerprint} {pulls : List Pull}
    (sound : usage.Sound dir name latest staged begun held homes start before entries
      (alone index (.reading taken pulls snapshot)))
    (stage : usage.stage = .read staging index indexes (.ok writer))
    (reached : Reached dir name latest staged begun held usage.set staging (index :: indexes)
      generation origin)
    (filling : Filling dir name index origin before staging.durable writer taken)
    (captures : Captures usage.set.router begun held
      (generation.add { index, held := taken }).parts) :
    Leads dir name latest staged begun held homes start (usage.perform .checkpoint before) := by
  have inside := reached.inside
  obtain ⟨ascending, -⟩ := (sound.lane_sound inside).calls (.reading taken pulls snapshot)
    List.mem_cons_self sound.busy.begun
  have performed : ((usage.set.lane usage.calls index).led (.reading taken pulls snapshot)).perform
      usage.set.router.bucket (.release 0) before =
        (((usage.set.lane usage.calls index).led (.reading taken pulls snapshot)).released 0,
          before) :=
    rfl
  obtain ⟨_, busy, -, holds⟩ :=
    sound.onCall inside rfl performed rfl (update_back index usage.calls)
  have releases : onSegment index Segment.releaseSnapshot usage.set before =
      ((.ok (), usage.set.putSegment index (usage.set.segmentAt index).dropReader), before) :=
    onSegment_eq rfl
  obtain ⟨written, after, result, finishing, stored, -, describes⟩ :=
    (Writer.finish_runs busy.tree filling.sound).of_quiet busy.quiet
  have advanced : usage.stage.advance usage.set before =
      ((.ok (.between (staging.record index written) indexes),
        usage.set.putSegment index (usage.set.segmentAt index).dropReader), after) := by
    rw [stage, Stage.advance, Keeping.bind_apply, releases]
    dsimp only
    have kept : (Keeping.ofExcept (.ok writer) : Keeping BoundedSet Writer) = pure writer := rfl
    rw [kept, pure_bind, Keeping.bind_apply, Keeping.lift_apply, result]
    rfl
  have busyFinal := busy.of_changes finishing (fun id only => only ▸ filling.sound.not_isPage)
    fun _ _ nowhere => nowhere
  have moved := reached.moved
    (moved_putSegment index (usage.set.segmentAt index).dropReader usage.set)
    (List.Subset.refl held)
  exact sound.reaches advanced busyFinal holds ⟨rfl, rfl, rfl⟩
    (.between (moved.filed filling finishing stored describes (sound.busy.index_lt inside) ascending
      captures)) trivial

/-- All segments are captured, and the manifest is written. -/
theorem Sound.closing_leads
    (sound : usage.Sound dir name latest staged begun held homes start before entries fun _ => [])
    (stage : usage.stage = .between staging [])
    (reached : Reached dir name latest staged begun held usage.set staging [] generation before) :
    Leads dir name latest staged begun held homes start (usage.perform .checkpoint before) := by
  obtain ⟨tried, writes, -⟩ := reached.writes
  have generationSound : generation.Sound :=
    ⟨reached.number ▸ reached.keeper.next, reached.bits, fun part mem => (writes.parts part mem).1⟩
  obtain ⟨count, keeper, after, result, changes, -, -, stagedSound⟩ :=
    (CheckpointKeeper.stage_runs reached.tree reached.keeper writes generationSound reached.number
      reached.above).of_quiet sound.busy.quiet
  have advanced : usage.stage.advance usage.set before =
      ((.ok (.ended (.ok ())), { usage.set with checkpoints := keeper }), after) := by
    rw [stage, Stage.advance, Keeping.bind_apply, onCheckpoints_apply, result]
    rfl
  have outside (path : Path) (within : Within usage.set.overflow path) :
      ¬Below (dir.child (stagingName name)) path := by
    rw [sound.place] at within
    exact fun below => (apart_overflow dir name).owned path (owned_staging below.within) within
  have busy := sound.busy.of_changes changes (fun _ none => none.elim) outside
  have indexes : generation.parts.map Part.index = List.range usage.set.segments.size := by
    rw [← reached.left, List.append_nil]
  have covers (fp : Fingerprint) :
      usage.set.router.segment fp ∈ generation.parts.map Part.index := by
    rw [indexes, List.mem_range]
    exact busy.segment_lt fp
  exact sound.reaches advanced { busy with } sound.holds ⟨rfl, rfl, rfl⟩
    (.ended reached.free stagedSound
      (reached.captures.cut (indexes ▸ List.nodup_range)
        (fun part mem => (writes.parts part mem).1.ascending) covers)) trivial

/-- The checkpoint is begun: from now on it will hold at least what is held now.  Or it is refused
for a reason. -/
theorem Sound.waiting_leads
    (sound : usage.Sound dir name latest staged begun held homes start before entries fun _ => [])
    (stage : usage.stage = .waiting)
    (keeper : usage.set.checkpoints.Sound dir name latest staged before) :
    Leads dir name latest staged held held homes start (usage.perform .checkpoint before) := by
  have fit : usage.set.plan.segmentBits < UInt32.size := by
    rw [sound.bits]
    exact Nat.lt_of_le_of_lt sound.busy.bits (by decide)
  have soundHeld :
      usage.Sound dir name latest staged held held homes start before entries fun _ => [] :=
    { sound with
      since := List.Subset.refl held
      progress := stage ▸ .waiting keeper }
  have outside (path : Path) (within : Within usage.set.overflow path) :
      ¬Within (dir.child (stagingName name)) path := by
    rw [sound.place] at within
    exact fun inStaging => (apart_overflow dir name).owned path (owned_staging inStaging) within
  have unfolded : Stage.advance .waiting usage.set before =
      (do let staging ← onCheckpoints (CheckpointKeeper.beginStaging usage.set.seed
            usage.set.plan.segmentBits)
          pure (.between staging (List.range usage.set.segments.size)) :
        Keeping BoundedSet Stage) usage.set before := rfl
  have ends := CheckpointKeeper.beginStaging_ends sound.busy.tree keeper usage.set.seed
    usage.set.plan.segmentBits
  rw [Keeping.Ends] at ends
  rcases result : CheckpointKeeper.beginStaging usage.set.seed usage.set.plan.segmentBits
    usage.set.checkpoints before with ⟨⟨error | staging, last⟩, after⟩ <;> rw [result] at ends
  · obtain ⟨rfl, keeperStill, changes, hinders⟩ := ends
    have advanced : usage.stage.advance usage.set before = ((.error error, usage.set), after) := by
      rw [stage, unfolded, Keeping.bind_apply, onCheckpoints_apply, result]
    have busy := sound.busy.of_changes changes (fun _ none => none.elim) outside
    exact soundHeld.reaches advanced busy sound.holds ⟨rfl, rfl, rfl⟩
      (.refused (hinders sound.busy.quiet) keeperStill) trivial
  · obtain ⟨rfl, keeperStill, changes, begins⟩ := ends
    have free := Holder.not_hinders (changes.sound sound.busy.tree) keeperStill begins
    obtain ⟨rfl, -, above, writes⟩ := begins
    have advanced : usage.stage.advance usage.set before =
        ((.ok (.between staging (List.range usage.set.segments.size)), usage.set), after) := by
      rw [stage, unfolded, Keeping.bind_apply, onCheckpoints_apply, result]
      rfl
    have busy := sound.busy.of_changes changes (fun _ none => none.elim) outside
    exact soundHeld.reaches advanced busy sound.holds ⟨rfl, rfl, rfl⟩
      (.between
        { tree := busy.tree
          free := free
          keeper := keeperStill
          writes := ⟨[], writes, List.nil_subset _⟩
          number := rfl
          above := above
          bits := fit
          captures := .nil _ _ _
          left := rfl }) trivial

/-- A checkpoint that has ended stays as it is. -/
theorem perform_ended {result : Except Error Unit} (stage : usage.stage = .ended result)
    (before : Volume) : usage.perform .checkpoint before = (usage, before) := by
  have advanced : usage.stage.advance usage.set before =
      ((.ok (.ended result), usage.set), before) := by
    rw [stage]
    rfl
  rw [perform_checkpoint advanced, Stage.reached, ← stage]

theorem Sound.ended_leads {result : Except Error Unit}
    (sound : usage.Sound dir name latest staged begun held homes start before entries own)
    (stage : usage.stage = .ended result) :
    Leads dir name latest staged begun held homes start (usage.perform .checkpoint before) := by
  rw [perform_ended stage]
  exact ⟨stage ▸ trivial, entries, own, sound⟩

/-- Each step of a checkpoint that is begun goes right. -/
theorem Sound.advances
    (sound : usage.Sound dir name latest staged begun held homes start before entries own)
    (isBegun : usage.stage.IsBegun) :
    Leads dir name latest staged begun held homes start (usage.perform .checkpoint before) := by
  have progress := sound.progress
  generalize here : usage.stage = stage at progress
  cases progress with
  | waiting keeper => exact (here ▸ isBegun : Stage.waiting.IsBegun).elim
  | @between staging indexes generation reached =>
      cases indexes with
      | nil => exact sound.closing_leads here reached
      | cons index indexes => exact sound.between_leads here reached
  | merging reached => exact sound.merging_leads here reached
  | settling reached => exact sound.settling_leads here reached
  | merged reached => exact sound.merged_leads here reached
  | reading reached filling captures split pulled enough =>
      exact sound.reading_leads here reached filling captures split pulled enough
  | read reached filling captures => exact sound.read_leads here reached filling captures
  | refused hinders keeper => exact sound.ended_leads here
  | ended free keeper cut => exact sound.ended_leads here

end Usage

/-! ## Steps of others -/

theorem Arranged.place_lt {homes : Homes} {entries : Nat → PageId → List Fingerprint}
    (arranged : set.Arranged homes entries) {move : Segment.Move} {fp : Fingerprint}
    (asks : move.asked = some fp) (index : Nat) :
    set.router.segment fp = set.place index move ∧ set.place index move < set.segments.size := by
  cases move with
  | put other =>
      cases asks
      exact ⟨rfl, arranged.segment_lt fp⟩
  | _ => contradiction

theorem update_append (own calls : Nat → List Segment.Call) (index : Nat)
    (others : List Segment.Call) :
    Function.update (fun other => own other ++ calls other) index (own index ++ others) =
      fun other => own other ++ Function.update calls index others other := by
  funext other
  rw [Function.update_apply, Function.update_apply]
  by_cases same : other = index
  · rw [if_pos same, if_pos same, same]
  · rw [if_neg same, if_neg same]

namespace Usage

variable {homes : Homes} {start : Volume} {entries : Nat → PageId → List Fingerprint}
  {own : Nat → List Segment.Call} {usage : Usage}

/-- What steps of calls leave alone. -/
structure Aside (dir : Path) (name : String) (usage : Usage) (before : Volume)
    (ended : Usage × Volume) : Prop where
  stage : ended.1.stage = usage.stage
  checkpoints : ended.1.set.checkpoints = usage.set.checkpoints
  changes : Changes (Within (overflowDirectory dir name)) NoFile before ended.2

theorem Aside.refl (dir : Path) (name : String) (usage : Usage) (before : Volume) :
    Aside dir name usage before (usage, before) :=
  ⟨rfl, rfl, .refl before⟩

theorem Aside.trans {middle last : Usage × Volume} (first : Aside dir name usage before middle)
    (second : Aside dir name middle.1 middle.2 last) : Aside dir name usage before last :=
  ⟨second.stage.trans first.stage, second.checkpoints.trans first.checkpoints,
    first.changes.trans second.changes⟩

/-- A step of a call puts at most one fingerprint. -/
theorem Sound.call
    (sound : usage.Sound dir name latest staged begun held homes start before entries own)
    (index : Nat) (move : Segment.Move) :
    Aside dir name usage before (usage.perform (.call index move) before) ∧
      ∃ lists, (usage.perform (.call index move) before).1.Sound dir name latest staged begun
        (held ++ move.asked.toList) homes start (usage.perform (.call index move) before).2
        lists own := by
  by_cases inside : usage.set.place index move < usage.set.segments.size
  · rw [perform_call inside]
    dsimp only
    generalize placed : usage.set.place index move = place at inside
    obtain ⟨later, same, performed⟩ := Segment.Traffic.perform_ahead usage.set.router.bucket
      (usage.set.lane usage.calls place) (own place) move before
    have routed (fp : Fingerprint) (asks : later.asked = some fp) :
        usage.set.router.segment fp = place :=
      placed ▸ (sound.busy.place_lt (same.symm.trans asks) index).1
    obtain ⟨lists, busy, changes, gains⟩ := sound.busy.step inside routed performed
    rw [Segment.Traffic.ahead, update_append] at busy
    have apart : Changes (Within (overflowDirectory dir name)) NoFile before _ :=
      sound.place ▸ changes
    refine ⟨⟨rfl, rfl, apart⟩, _,
      { busy := busy
        holds := fun fp => ?_
        since := List.subset_append_of_subset_left _ sound.since
        place := sound.place
        bits := sound.bits
        progress := sound.progress.of_call sound.busy.tree (moved_putSegment place _ usage.set)
          (List.subset_append_left _ _) apart }⟩
    rw [List.mem_append, Option.mem_toList, ← same]
    exact (gains fp).trans (or_congr_left (sound.holds fp))
  · have none : move.asked = none := by
      cases asks : move.asked with
      | none => rfl
      | some fp => exact absurd (sound.busy.place_lt asks index).2 inside
    have still : usage.perform (.call index move) before = (usage, before) := by
      rw [perform, if_neg inside]
      rfl
    rw [still, none, Option.toList_none, List.append_nil]
    exact ⟨.refl dir name usage before, entries, sound⟩

/-! ## Whole schedules -/

/-- Before its first step and after its last one a checkpoint is left alone. -/
theorem Sound.run_aside
    (sound : usage.Sound dir name latest staged begun held homes start before entries own)
    (steps : List Step) (idle : .checkpoint ∈ steps → ∃ result, usage.stage = .ended result) :
    Aside dir name usage before (run steps usage before) ∧
      ∃ lists, (run steps usage before).1.Sound dir name latest staged begun
        (held ++ Step.puts steps) homes start (run steps usage before).2 lists own := by
  induction steps generalizing usage before entries held with
  | nil => exact ⟨.refl dir name usage before, entries, (List.append_nil held).symm ▸ sound⟩
  | cons step steps ih =>
      cases step with
      | checkpoint =>
          obtain ⟨result, stage⟩ := idle List.mem_cons_self
          have still : run (.checkpoint :: steps) usage before = run steps usage before := by
            rw [run_cons, perform_ended stage]
          rw [still]
          exact ih sound fun _ => ⟨result, stage⟩
      | call index move =>
          obtain ⟨aside, _, next⟩ := sound.call index move
          obtain ⟨later, lists, sound⟩ := ih next fun mem =>
            aside.stage ▸ idle (List.mem_cons_of_mem _ mem)
          refine ⟨aside.trans later, lists, ?_⟩
          rw [Step.puts_call, ← List.append_assoc]
          exact sound

/-- A checkpoint that is begun goes right whatever calls come between its steps. -/
theorem Sound.goes_on
    (sound : usage.Sound dir name latest staged begun held homes start before entries own)
    (isBegun : usage.stage.IsBegun) (steps : List Step) :
    Leads dir name latest staged begun (held ++ Step.puts steps) homes start
      (run steps usage before) := by
  induction steps generalizing usage before entries own held with
  | nil => exact ⟨isBegun, entries, own, (List.append_nil held).symm ▸ sound⟩
  | cons step steps ih =>
      cases step with
      | checkpoint =>
          obtain ⟨still, _, _, next⟩ := sound.advances isBegun
          exact ih next still
      | call index move =>
          obtain ⟨aside, _, next⟩ := sound.call index move
          rw [Step.puts_call, ← List.append_assoc]
          exact ih next (aside.stage.symm ▸ isBegun)

end Usage

/-! ## From rest to rest -/

section Rest

variable {homes : Homes} {start : Volume} {entries : Nat → PageId → List Fingerprint}
  {calls : Nat → List Segment.Call}

theorem Busy.nodup_contents (busy : set.Busy homes start before entries calls) :
    (set.contents entries).Nodup :=
  busy.toArranged.nodup_contents fun index inside => (busy.lanes index inside).segment.distinct

/-- A set on which no call waits is at rest. -/
theorem Busy.rests (busy : set.Busy homes start before entries fun _ => []) :
    set.Sound homes before entries where
  toArranged := busy.toArranged
  rests index inside :=
    have lane := busy.lanes index inside
    ⟨lane.segment, lane.readers, lane.room busy.begun⟩

/-- A set holds fingerprints, whatever calls wait on it. -/
def HeldInUse (dir : Path) (name : String) (volume : Volume) (held : List Fingerprint)
    (set : BoundedSet) : Prop :=
  ∃ homes start entries calls, set.Busy homes start volume entries calls ∧
    (set.contents entries).Perm held ∧ set.overflow = overflowDirectory dir name

/-- A set in use as a holder of fingerprints. -/
def inUse (dir : Path) (name : String) : Holder dir name BoundedSet :=
  { holder dir name with
    Holds := HeldInUse dir name
    holds_perm := by
      rintro volume held other set same ⟨homes, start, entries, calls, busy, perm, place⟩
      exact ⟨homes, start, entries, calls, busy, perm.trans same, place⟩
    holds_seat := by
      rintro volume held set other ⟨homes, start, entries, calls, busy, perm, place⟩
      exact ⟨homes, start, entries, calls, { busy with }, perm, place⟩
    steady := by
      rintro before after held set _ changes ⟨homes, start, entries, calls, busy, perm, place⟩
      refine ⟨homes, start, entries, calls, busy.of_changes changes (fun _ none => none.elim) ?_,
        perm, place⟩
      intro path within owned
      exact (apart_overflow dir name).owned path owned (place ▸ within) }

/-- To commit is to have the keeper commit, whatever calls wait. -/
theorem commitCheckpoint_eq (dir : Path) (name : String) :
    commitCheckpoint = (inUse dir name).commit := rfl

/-- No file is in the place of the pages of a set in use. -/
theorem inUse_isDirectory (holds : (inUse dir name).Holds before held set) :
    before.binding? (overflowDirectory dir name) = some .directory := by
  obtain ⟨homes, start, entries, calls, busy, -, place⟩ := holds
  exact busy.toArranged.overflow_isDirectory busy.tree place
    fun index inside => (busy.lanes index inside).segment.store.isDir

end Rest

namespace Usage

variable {homes : Homes} {start : Volume} {entries : Nat → PageId → List Fingerprint}
  {own : Nat → List Segment.Call} {usage : Usage}

theorem Sound.contents_perm
    (sound : usage.Sound dir name latest staged begun held homes start before entries own) :
    (usage.set.contents entries).Perm (sorted held) := by
  apply (List.perm_ext_iff_of_nodup sound.busy.nodup_contents (sorted_ascending held).nodup).mpr
  exact fun fp => (sound.holds fp).trans mem_sorted.symm

theorem Sound.holds_inUse
    (sound : usage.Sound dir name latest staged begun held homes start before entries own) :
    (inUse dir name).Holds before (sorted held) usage.set :=
  ⟨homes, start, entries, _, sound.busy, sound.contents_perm, sound.place⟩

/-- A schedule with a checkpoint in it, on a set that was at rest. -/
theorem run_leads (tree : before.Sound) (quiet : before.Quiet)
    (keeps : (holder dir name).Keeps latest staged held before set) (earlier during : List Step)
    (waits : .checkpoint ∉ earlier) :
    ∃ homes, Leads dir name latest staged (held ++ Step.puts earlier)
      (held ++ Step.puts earlier ++ Step.puts during) homes before
      (run (earlier ++ .checkpoint :: during) { set } before) := by
  obtain ⟨⟨⟨homes, entries, sound, perm⟩, place, bits⟩, keeper⟩ := keeps
  have begins : Sound dir name latest staged [] held homes before before entries (fun _ => [])
      { set } :=
    { busy := sound.busy tree quiet
      holds := fun fp => perm.mem_iff
      since := List.nil_subset _
      place := place
      bits := bits
      progress := .waiting keeper }
  obtain ⟨aside, lists, waiting⟩ := begins.run_aside earlier fun mem => absurd mem waits
  have progress := waiting.progress
  rw [aside.stage] at progress
  cases progress with
  | waiting keeper =>
      obtain ⟨isBegun, _, _, next⟩ := waiting.waiting_leads aside.stage keeper
      rw [run_append, run_cons]
      exact ⟨homes, next.goes_on isBegun during⟩

/-- What is known of a checkpoint that has ended. -/
theorem Sound.ended {result : Except Error Unit}
    (sound : usage.Sound dir name latest staged begun held homes start before entries own)
    (stage : usage.stage = .ended result) :
    (result = .ok () ↔ ¬CheckpointKeeper.Hinders name latest staged) ∧
      (result = .ok () → ∃ generation, Cut begun held generation.held ∧
        (inUse dir name).Keeps latest (some generation) (sorted held) before usage.set) := by
  have progress := sound.progress
  rw [stage] at progress
  cases progress with
  | refused hinders keeper =>
      refine ⟨⟨fun isOk => ?_, fun free => absurd hinders free⟩, fun isOk => ?_⟩ <;> contradiction
  | ended free keeper cut =>
      exact ⟨⟨fun _ => free, fun _ => rfl⟩, fun _ => ⟨_, cut, sound.holds_inUse, keeper⟩⟩

/-- Once all calls are over as well, the set is at rest again. -/
theorem Sound.keeps_rests
    (sound : usage.Sound dir name latest staged begun held homes start before entries own)
    (stage : usage.stage = .ended (.ok ())) (idle : usage.calls = fun _ => []) :
    ∃ generation,
      (holder dir name).Keeps latest (some generation) (sorted held) before usage.set := by
  have progress := sound.progress
  rw [stage] at progress
  cases progress with
  | @ended generation _ keeper _ =>
      have busy := sound.busy
      rw [idle] at busy
      have holds : HoldsUnder dir name before (sorted held) usage.set :=
        ⟨⟨homes, entries, busy.rests, sound.contents_perm⟩, sound.place, sound.bits⟩
      exact ⟨generation, holds, keeper⟩

/-- What has been staged is left alone by all that follows. -/
theorem Sound.keeps_aside {result : Except Error Unit}
    (sound : usage.Sound dir name latest staged begun held homes start before entries own)
    (stage : usage.stage = .ended result)
    (keeps : (inUse dir name).Keeps latest (some generation) (sorted held) before usage.set)
    (later : List Step) :
    (run later usage before).2.Sound ∧ (run later usage before).2.Quiet ∧
      (inUse dir name).Keeps latest (some generation) (sorted (held ++ Step.puts later))
        (run later usage before).2 (run later usage before).1.set := by
  obtain ⟨aside, _, still⟩ := sound.run_aside later fun _ => ⟨result, stage⟩
  have keeper : usage.set.checkpoints.Sound dir name latest (some generation)
      (run later usage before).2 :=
    keeps.keeper.of_changes sound.busy.tree aside.changes (apart_overflow dir name)
  rw [← aside.checkpoints] at keeper
  exact ⟨still.busy.tree, still.busy.quiet, still.holds_inUse, keeper⟩

end Usage

end BoundedSet

end FingerprintSet
