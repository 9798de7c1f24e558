import FingerprintSet.Proofs.BoundedSet.Limits
import FingerprintSet.Proofs.Segment.Words

/-!
# Bounded sets in words and slices

A set finds the segment and the bucket of a fingerprint by shifting and masking, and the segment has
to be one of its own.  While nothing goes on in a set and its segments have gone through few
operations, all operations have results.
-/

namespace FingerprintSet

open Storage Volume SortedFile Checkpoint Wordwise

/-! ## Routing -/

namespace Router

namespace Wordwise

/-- `Router.segment` in words.  A word is not shifted by all its bits. -/
def segment (router : Router) (fp : Fingerprint) : Option Nat :=
  if router.segmentBits = 0 then
    some 0
  else do
    lowered fp.toNat (← minus 64 router.segmentBits)

/-- `Router.bucket` in words. -/
def bucket (router : Router) (fp : Fingerprint) : Option Nat := do
  let mask ← minus router.buckets 1
  return (Fnv.mix fp router.seed).toNat &&& mask

variable {router : Router}

theorem segment_eq (bits : router.segmentBits ≤ 64) (fp : Fingerprint) :
    segment router fp = some (router.segment fp) := by
  rw [segment]
  split
  · rename_i none
    have whole : router.segment fp = 0 := by
      rw [Router.segment, none]
      exact Nat.div_eq_of_lt fp.toNat_lt
    rw [whole]
  · rw [minus_eq bits]
    simp only [Option.bind_eq_bind, Option.bind_some]
    rw [lowered_eq _ (by omega)]
    rfl

/-- Where the buckets are as many as a power of two, a mask gives the remainder. -/
theorem bucket_eq (width : ∃ bits, router.buckets = Nat.pow 2 bits) (fp : Fingerprint) :
    bucket router fp = some (router.bucket fp) := by
  obtain ⟨bits, count⟩ := width
  have several : 1 ≤ Nat.pow 2 bits := Nat.pow_pos Nat.zero_lt_two
  rw [bucket, Router.bucket, count, minus_eq several]
  exact congrArg some (Nat.and_two_pow_sub_one_eq_mod _ bits)

end Wordwise

end Router

namespace BoundedSet

namespace Wordwise

variable {α : Type}

/-- `BoundedSet.onSegment` in slices: the segment has to be there. -/
def onSegment (index : Nat) (work : Guarded Segment α) : Guarded BoundedSet α := do
  let _ ← Guarded.demand (← get).segments[index]?
  Guarded.onPart (fun set => set.segments.getD index default) (putSegment index) work

/-- `BoundedSet.put` in words. -/
def put (fp : Fingerprint) : Guarded BoundedSet Bool := do
  let router := (← get).router
  let index ← Guarded.demand (Router.Wordwise.segment router fp)
  let bucket ← Guarded.demand (Router.Wordwise.bucket router fp)
  onSegment index (Segment.Wordwise.put bucket fp)

/-- `BoundedSet.contains` in words. -/
def contains (fp : Fingerprint) : Guarded BoundedSet Bool := do
  let router := (← get).router
  let index ← Guarded.demand (Router.Wordwise.segment router fp)
  let bucket ← Guarded.demand (Router.Wordwise.bucket router fp)
  onSegment index (Segment.Wordwise.contains bucket fp)

/-- `BoundedSet.stageSegment` in words. -/
def stageSegment (staging : Staging) (index : Nat) : Guarded BoundedSet Staging := do
  onSegment index Segment.Wordwise.compact
  let writer ← Guarded.plain (liftM (staging.segmentWriter index))
  let writer ← onSegment index (Segment.Wordwise.scan Writer.push Writer.abandon writer)
  let written ← Guarded.plain (liftM writer.finish)
  pure (staging.record index written)

/-- `BoundedSet.beginCheckpoint` in words. -/
def beginCheckpoint : Guarded BoundedSet Unit := do
  let set ← get
  let seed := set.seed
  let bits := set.plan.segmentBits
  let count := set.segments.size
  let staging ← Guarded.plain (onCheckpoints (CheckpointKeeper.beginStaging seed bits))
  let staging ← (List.range count).foldlM stageSegment staging
  let _ ← Guarded.plain (onCheckpoints (CheckpointKeeper.stage staging))

/-- `BoundedSet.observeSegment` in words. -/
def observeSegment (distance : LeastDistance) (index : Nat) : Guarded BoundedSet LeastDistance :=
  onSegment index (Segment.Wordwise.scan (fun state fp => Task.ofExcept (state.observe fp))
    (fun _ => pure ()) distance)

/-- `BoundedSet.leastDistance` in words. -/
def leastDistance : Guarded BoundedSet UInt64 := do
  let count := (← get).segments.size
  let distance ← (List.range count).foldlM observeSegment {}
  pure distance.result

end Wordwise

/-! ## What operations use up -/

/-- Each segment of a set has gone through few operations. -/
structure Paced (spent : Nat → Nat) (set : BoundedSet) : Prop where
  width : ∃ bits, set.router.buckets = Nat.pow 2 bits
  segments : ∀ index < set.segments.size, (set.segmentAt index).Paced (spent index)

variable {dir : Path} {name : String} {before : Volume} {set last : BoundedSet}
  {spent more : Nat → Nat} {used count index : Nat}

theorem Paced.mono (paced : set.Paced spent) (below : ∀ index, spent index ≤ more index) :
    set.Paced more where
  width := paced.width
  segments index inside := (paced.segments index inside).mono (below index)

/-- The keeper of the checkpoints has no part in what the segments have gone through. -/
theorem Paced.reseat (paced : set.Paced spent) (checkpoints : CheckpointKeeper) :
    Paced spent { set with checkpoints } :=
  { paced with }

theorem Paced.replaced (paced : set.Paced spent) (inside : index < set.segments.size)
    {segment : Segment} (there : segment.Paced count) :
    (set.putSegment index segment).Paced (Function.update spent index count) where
  width := paced.width
  segments other below := by
    rw [size_putSegment] at below
    rw [segmentAt_putSegment segment inside, Function.update_apply]
    split
    · exact there
    · exact paced.segments other below

/-- What work on one segment uses up, the set uses up. -/
theorem Paced.onSegment_leaves {α : Type} {work : Keeping Segment α} (paced : set.Paced spent)
    (inside : index < set.segments.size)
    (leaves : Keeping.Leaves work (set.segmentAt index) fun _ last => last.Paced count) :
    Keeping.Leaves (onSegment index work) set fun _ last =>
      last.Paced (Function.update spent index count) := by
  refine (BoundedSet.onSegment_leaves leaves).mono ?_
  rintro _ _ ⟨segment, rfl, there⟩
  exact paced.replaced inside there

/-- Work on a segment that uses up what one operation may. -/
theorem Paced.spends_leaves {α : Type} {work : Keeping Segment α} (paced : set.Paced spent)
    (inside : index < set.segments.size)
    (spends : Segment.SpendsIn 1 2 1 work (set.segmentAt index)) :
    Keeping.Leaves (onSegment index work) set fun _ last =>
      last.Paced (Function.update spent index (spent index + 1)) :=
  paced.onSegment_leaves inside
    (spends.mono fun _ _ spends => (paced.segments index inside).next spends)

theorem Paced.put_leaves (paced : set.Paced fun _ => used) (fp : Fingerprint)
    (inside : set.router.segment fp < set.segments.size) :
    Keeping.Leaves (put fp) set fun _ last => last.Paced fun _ => used + 1 := by
  refine Keeping.Leaves.getThen ((paced.spends_leaves inside (Segment.put_spends _ fp)).mono ?_)
  refine fun _ _ still => still.mono fun index => ?_
  rw [Function.update_apply]
  split <;> omega

theorem Paced.contains_leaves (paced : set.Paced fun _ => used) (fp : Fingerprint)
    (inside : set.router.segment fp < set.segments.size) :
    Keeping.Leaves (contains fp) set fun _ last => last.Paced fun _ => used := by
  have looks : Segment.SpendsIn 0 0 0 (Segment.contains (set.router.bucket fp) fp)
      (set.segmentAt (set.router.segment fp)) := Segment.contains_spends _ fp
  have leaves := looks.mono fun _ _ spends => (paced.segments _ inside).still spends
  refine Keeping.Leaves.getThen ((paced.onSegment_leaves inside leaves).mono ?_)
  refine fun _ _ still => still.mono fun index => Nat.le_of_eq ?_
  rw [Function.update_apply, ite_self]

/-- The first segments have gone through one operation more than the others. -/
def ahead (used count : Nat) : Nat → Nat :=
  fun index => if index < count then used + 1 else used

theorem ahead_zero (used : Nat) : ahead used 0 = fun _ => used :=
  funext fun _ => if_neg (Nat.not_lt_zero _)

theorem ahead_le (used count index : Nat) : ahead used count index ≤ used + 1 := by
  rw [ahead]
  split <;> omega

theorem ahead_le_succ (used count index : Nat) :
    ahead used count index ≤ ahead used (count + 1) index := by
  rw [ahead, ahead]
  split <;> split <;> omega

/-- Merging the pages of the next segment before its file is written. -/
theorem Paced.compact_leaves (paced : set.Paced (ahead used count))
    (inside : count < set.segments.size) :
    Keeping.Leaves (onSegment count Segment.compact) set fun _ last =>
      last.Paced (ahead used (count + 1)) := by
  have compacts := paced.spends_leaves inside (Segment.compact_spends.mono fun _ _ spends =>
    spends.mono (Nat.zero_le 1) (Nat.le_succ 1) (Nat.le_refl 1))
  refine compacts.mono fun _ _ still => still.mono fun index => ?_
  rw [Function.update_apply]
  split
  · rename_i same
    refine Nat.le_of_eq ?_
    rw [same, ahead, ahead, if_neg (Nat.lt_irrefl count), if_pos (Nat.lt_succ_self count)]
  · exact ahead_le_succ used count index

theorem Paced.stageSegment_leaves (paced : set.Paced (ahead used count))
    (inside : count < set.segments.size) (staging : Staging) :
    Keeping.Leaves (stageSegment staging count) set fun _ last =>
      last.Paced (ahead used (count + 1)) :=
  BoundedSet.stageSegment_leaves (paced.compact_leaves inside) staging

/-- A set keeps its segments, whatever is done to them. -/
theorem onSegment_sizes {α : Type} (index : Nat) (work : Keeping Segment α) (set : BoundedSet) :
    Keeping.Leaves (onSegment index work) set fun _ last =>
      last.segments.size = set.segments.size := by
  have ends : Keeping.Leaves work (set.segmentAt index) fun _ _ => True := fun _ => trivial
  refine (onSegment_leaves ends).mono ?_
  rintro _ _ ⟨segment, rfl, -⟩
  exact size_putSegment index segment set

theorem stageSegment_sizes (staging : Staging) (index : Nat) (set : BoundedSet) :
    Keeping.Leaves (stageSegment staging index) set fun _ last =>
      last.segments.size = set.segments.size :=
  BoundedSet.stageSegment_leaves (onSegment_sizes index Segment.compact set) staging

/-- Each segment is merged once while a checkpoint is written. -/
theorem Paced.beginCheckpoint_leaves (paced : set.Paced fun _ => used) :
    Keeping.Leaves beginCheckpoint set fun _ last => last.Paced fun _ => used + 1 := by
  have still {last : BoundedSet} (there : last.Paced fun _ => used) :
      last.Paced fun _ => used + 1 := there.mono fun _ => Nat.le_succ used
  apply Keeping.Leaves.getThen
  refine Keeping.Leaves.bind (fun _ last => (last.Paced fun _ => used) ∧
    last.segments.size = set.segments.size) ?_ ?_ fun _ _ there => still there.1
  · exact fun _ => ⟨paced.reseat _, rfl⟩
  rintro staging begun ⟨there, size⟩
  let kept (count : Nat) (last : BoundedSet) : Prop :=
    last.Paced (ahead used count) ∧ last.segments.size = set.segments.size
  have none : kept 0 begun := ⟨ahead_zero used ▸ there, size⟩
  have later (count : Nat) (last : BoundedSet) (reached : kept count last) : kept (count + 1) last :=
    ⟨reached.1.mono (ahead_le_succ used count), reached.2⟩
  have rounds (count : Nat) (inside : count < set.segments.size) (staging : Staging)
      (last : BoundedSet) (reached : kept count last) :
      Keeping.Leaves (stageSegment staging count) last fun _ next => kept (count + 1) next := by
    have stages := reached.1.stageSegment_leaves (reached.2.symm ▸ inside) staging
    exact stages.and ((stageSegment_sizes staging count last).mono fun _ _ same =>
      same.trans reached.2)
  have stages := Keeping.Leaves.foldRange none later set.segments.size rounds staging
  refine Keeping.Leaves.bind (fun _ last => last.Paced fun _ => used + 1) (stages.mono ?_) ?_
    fun _ _ there => there
  · exact fun _ _ reached => reached.1.mono (ahead_le used _)
  · intro filled last there
    refine Keeping.Leaves.bind (fun _ last => last.Paced fun _ => used + 1) ?_ ?_ fun _ _ there => there
    · exact fun _ => there.reseat _
    · exact fun _ _ there => Keeping.Leaves.pure there

theorem Paced.commitCheckpoint_leaves (paced : set.Paced spent) :
    Keeping.Leaves commitCheckpoint set fun _ last => last.Paced spent := by
  refine Keeping.Leaves.bind (fun _ last => last.Paced spent) ?_ ?_ fun _ _ still => still
  · exact fun _ => paced.reseat _
  · exact fun _ _ still => Keeping.Leaves.pure still

/-! ## Operations of a calm set -/

namespace Wordwise

theorem onSegment_agrees {α : Type} {guarded : Guarded Segment α} {work : Keeping Segment α}
    (inside : index < set.segments.size)
    (agrees : guarded.Agrees work (set.segmentAt index) before) :
    (onSegment index guarded).Agrees (BoundedSet.onSegment index work) set before := by
  have unfolded : onSegment index guarded set before =
      (do
        let _ ← Guarded.demand set.segments[index]?
        Guarded.onPart (fun set => set.segments.getD index default) (putSegment index) guarded :
          Guarded BoundedSet α) set before := rfl
  rw [Guarded.Agrees, unfolded]
  exact Guarded.Agrees.demandThen (Array.getElem?_eq_getElem inside) (Guarded.Agrees.onPart agrees)

section Calm

variable {given : Nat} (calm : Calm dir name given before set)

include calm

theorem put_agrees (volumeSound : before.Sound) (paced : set.Paced fun _ => used)
    (few : used + 1 < entryLimit) (fp : Fingerprint) :
    (put fp).Agrees (BoundedSet.put fp) set before := by
  obtain ⟨homes, entries, idle⟩ := calm
  have inside := idle.segment_lt fp
  have puts := Segment.Wordwise.put_agrees volumeSound (idle.idle _ inside).sound
    (paced.segments _ inside) few fp
  rw [idle.home] at puts
  apply Guarded.Agrees.getThen
  apply Guarded.Agrees.demandThen (Router.Wordwise.segment_eq idle.bits fp)
  apply Guarded.Agrees.demandThen (Router.Wordwise.bucket_eq paced.width fp)
  exact onSegment_agrees inside puts

theorem contains_agrees (paced : set.Paced fun _ => used) (few : used < entryLimit)
    (fp : Fingerprint) : (contains fp).Agrees (BoundedSet.contains fp) set before := by
  obtain ⟨homes, entries, idle⟩ := calm
  have inside := idle.segment_lt fp
  have looks := Segment.Wordwise.contains_agrees (idle.idle _ inside).sound
    (paced.segments _ inside) few fp
  rw [idle.home] at looks
  apply Guarded.Agrees.getThen
  apply Guarded.Agrees.demandThen (Router.Wordwise.segment_eq idle.bits fp)
  apply Guarded.Agrees.demandThen (Router.Wordwise.bucket_eq paced.width fp)
  exact onSegment_agrees inside looks

theorem scanSegment_agrees {σ : Type} (paced : set.Paced spent) (inside : index < set.segments.size)
    (sink : σ → Fingerprint → Task σ) (giveUp : σ → Task Unit) (state : σ) (after : Volume) :
    (onSegment index (Segment.Wordwise.scan sink giveUp state)).Agrees
      (BoundedSet.onSegment index (Segment.scan sink giveUp state)) set after := by
  obtain ⟨homes, entries, idle⟩ := calm
  have segment := idle.idle index inside
  exact onSegment_agrees inside (Segment.Wordwise.scan_agrees segment.sound.table
    (paced.segments index inside).slots segment.readers sink giveUp state after)

theorem stageSegment_agrees (volumeSound : before.Sound) (numbers : given + 1 < numberLimit)
    (paced : set.Paced (ahead used count)) (few : used + 1 < entryLimit)
    (inside : count < set.segments.size) (staging : Staging) :
    (stageSegment staging count).Agrees (BoundedSet.stageSegment staging count) set before := by
  obtain ⟨homes, entries, idle⟩ := id calm
  have segment := idle.idle count inside
  have here := paced.segments count inside
  rw [ahead, if_neg (Nat.lt_irrefl count)] at here
  have merges := idle.segment_runs volumeSound inside (Nat.le_succ _)
    (fun _ mem => absurd mem List.not_mem_nil) (segment.compact_runs volumeSound numbers)
  apply (onSegment_agrees inside (Segment.Wordwise.compact_agrees volumeSound segment.sound here
    few)).bindRuns (merges.leaving (paced.compact_leaves inside))
  rintro _ merged middle changes ⟨⟨follows, calmStill⟩, pacedStill⟩
  have there : count < merged.segments.size := follows.2.symm ▸ inside
  apply Guarded.Agrees.plainThen
  intro writer created _
  apply (scanSegment_agrees calmStill pacedStill there _ _ writer created).bind
  intro filled last after _
  apply Guarded.Agrees.plainThen
  exact fun _ _ _ => Guarded.Agrees.pure _ _ _

end Calm

/-- Whatever is refused while a checkpoint is written, each segment is staged by a calm set. -/
theorem beginCheckpoint_agrees {most given : Nat}
    (orderly : (holder dir name).Orderly (temper dir name) most given before set)
    (room : most + 1 < generationLimit) (numbers : given + segmentLimit < numberLimit)
    (paced : set.Paced fun _ => used) (few : used + 1 < entryLimit) :
    beginCheckpoint.Agrees BoundedSet.beginCheckpoint set before := by
  apply Guarded.Agrees.getThen
  by_cases idle : set.checkpoints.staged = none
  swap
  · apply (Guarded.Agrees.plain _ _ _).bind
    intro staging last after ended
    rw [onCheckpoints, Keeping.onPart_apply, CheckpointKeeper.beginStaging_busy idle] at ended
    exact nomatch (Prod.mk.inj (Prod.mk.inj ended).1).1
  have begins := orderly.charge.beginStaging_ends orderly.tree idle room set.seed set.plan.segmentBits
  apply (Guarded.Agrees.plain _ _ _).bindEnds (Keeping.Ends.onPart begins)
  rintro staging _ begun ⟨keeper, rfl, changes, charge, -, -, -, writes⟩
  have orderlyBegun := orderly.reseat (changes.mono (fun _ => owned_staging) fun _ _ none => none)
    charge
  let start : BoundedSet := { set with checkpoints := keeper }
  let reaches (count : Nat) (staging : Staging) (last : BoundedSet) (volume : Volume) : Prop :=
    volume.Sound ∧ Fills dir name keeper.nextGeneration given start count staging last volume ∧
      last.Paced (ahead used count)
  have none : reaches 0 staging start begun :=
    ⟨orderlyBegun.tree, ⟨⟨.refl start, orderlyBegun.calm⟩, _, [], writes, rfl, by simp⟩,
      ahead_zero used ▸ paced.reseat keeper⟩
  have stages : ((List.range set.segments.size).foldlM stageSegment staging).Agrees
      ((List.range set.segments.size).foldlM BoundedSet.stageSegment staging) start begun := by
    apply Guarded.Agrees.foldRange reaches none
    · rintro count inside staging last volume ⟨sound, ⟨⟨follows, calm⟩, -⟩, pacedStill⟩
      have low : count < segmentLimit := by
        obtain ⟨homes, entries, still⟩ := id calm
        exact Nat.lt_of_lt_of_le (follows.2.symm ▸ inside) still.few
      exact stageSegment_agrees calm sound (by omega) pacedStill few (follows.2.symm ▸ inside) staging
    · rintro count inside staging last volume ⟨sound, fills, pacedStill⟩
      have insideStart : count < start.segments.size := inside
      have stages := (stageSegment_fills sound numbers insideStart fills).leaving
        (pacedStill.stageSegment_leaves (fills.1.1.2.symm ▸ inside) staging)
      apply Keeping.Ends.of_runs stages
      · rintro next last after changes ⟨fillsNext, pacedNext⟩ _ ⟨⟩
        exact ⟨changes.sound sound, fillsNext, pacedNext⟩
      · exact fun _ _ _ _ _ _ _ impossible => nomatch impossible
  apply stages.bind
  intro filled last after _
  exact (Guarded.Agrees.plain _ _ _).bind fun _ _ _ _ => Guarded.Agrees.pure _ _ _

/-- Going through a set leaves it as it was. -/
theorem leastDistance_agrees {given : Nat} (calm : Calm dir name given before set)
    (paced : set.Paced spent) :
    leastDistance.Agrees BoundedSet.leastDistance set before := by
  apply Guarded.Agrees.getThen
  have observes : ((List.range set.segments.size).foldlM observeSegment {}).Agrees
      ((List.range set.segments.size).foldlM BoundedSet.observeSegment {}) set before := by
    apply Guarded.Agrees.foldRange (fun _ _ last _ => last = set) rfl
    · rintro index inside distance _ volume rfl
      exact scanSegment_agrees calm paced inside _ _ distance volume
    · rintro index inside distance still volume rfl
      have same := onSegment_scan_leaves (fun state fp => Task.ofExcept (LeastDistance.observe state fp))
        (fun _ => pure ()) distance index still
      rw [Keeping.Ends]
      exact fun _ _ => same volume
  exact observes.bind fun _ _ _ _ => Guarded.Agrees.pure _ _ _

end Wordwise

end BoundedSet

end FingerprintSet
