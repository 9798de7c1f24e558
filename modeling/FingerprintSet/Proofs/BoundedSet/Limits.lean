import FingerprintSet.Proofs.BoundedSet.Turns
import FingerprintSet.Proofs.Plan.Budget
import FingerprintSet.Proofs.Segment.Limits
import FingerprintSet.Proofs.Total

/-!
# The limits of a bounded set

What a bounded set takes up in memory, whatever it is given and however often it is asked: the plan
bounds its tables, what is pending in them and the copies that snapshots make, and the settings bound
its page indexes and open files.
-/

namespace FingerprintSet

open Storage

variable {plan : Plan} {storage : StorageSettings} {before after : Volume}

/-! ## Segments that were just created -/

theorem PageStore.create_eq {directory : Path} {limits : StoreLimits} {store : PageStore}
    (created : PageStore.create directory limits before = (.ok store, after)) :
    store =
      { directory, limits
        pages := []
        handles := .empty limits.openHandles
        nextId := 0
        entries := 0
        compactions := 0 } := by
  obtain ⟨_, middle, -, made⟩ := exists_of_bind_ok created
  split at made
  · exact nomatch (Prod.mk.inj made).1
  · split at made
    · exact nomatch (Prod.mk.inj made).1
    · exact (Except.ok.inj (Prod.mk.inj made).1).symm

theorem PageStore.create_limited {directory : Path} {limits : StoreLimits} {store : PageStore}
    (created : PageStore.create directory limits before = (.ok store, after)) :
    store.Limited limits 0 ∧ store.Numbered := by
  rw [PageStore.create_eq created]
  exact ⟨⟨rfl, rfl, Nat.zero_le _, Nat.zero_le _, Nat.le_refl 0⟩, List.nodup_nil, by simp [ids]⟩

theorem Segment.create_tidy (shaped : plan.Shaped) {index : Nat} {overflow : Path}
    {segment : Segment}
    (created : Segment.create index plan storage overflow before = (.ok segment, after)) :
    segment.Tidy plan storage := by
  obtain ⟨store, middle, made, built⟩ := exists_of_bind_ok created
  obtain ⟨limited, numbered⟩ := PageStore.create_limited made
  obtain rfl := Except.ok.inj (Prod.mk.inj built).1
  exact
    { table := BucketTable.empty_shaped shaped.wide shaped.narrow
      width := rfl
      fullest := Nat.zero_le _
      capacity := rfl
      maxPages := rfl
      pending := Nat.le_trans (Nat.le_of_eq Std.TreeSet.size_emptyc) (Nat.zero_le _)
      store := limited.mono (Nat.zero_le _)
      numbered
      readers := rfl }

namespace BoundedSet

/-- What holds of each segment that is created holds of all of them. -/
theorem createSegments_each {good : Segment → Prop} {overflow : Path} {segments : Array Segment}
    (creates : ∀ {index segment before after},
      Segment.create index plan storage overflow before = (.ok segment, after) → good segment)
    (created : createSegments plan storage overflow before = (.ok segments, after)) :
    segments.size = plan.segmentCount ∧
      ∀ index < segments.size, good (segments.getD index default) := by
  rw [createSegments] at created
  generalize plan.segmentCount = count at created ⊢
  induction count generalizing segments after with
  | zero =>
      obtain rfl := Except.ok.inj (Prod.mk.inj created).1
      exact ⟨rfl, fun index below => absurd below (Nat.not_lt_zero _)⟩
  | succ count ih =>
      rw [List.range_succ, List.foldlM_append] at created
      obtain ⟨earlier, middle, first, rest⟩ := exists_of_bind_ok created
      obtain ⟨size, each⟩ := ih first
      rw [List.foldlM_cons] at rest
      obtain ⟨pushed, later, push, done⟩ := exists_of_bind_ok rest
      obtain ⟨segment, _, made, joined⟩ := exists_of_bind_ok push
      obtain rfl := Except.ok.inj (Prod.mk.inj joined).1
      obtain rfl := Except.ok.inj (Prod.mk.inj done).1
      refine ⟨by rw [Array.size_push, size], fun index below => ?_⟩
      rw [Array.getD_eq_getD_getElem?, Array.getElem?_push]
      split
      · exact creates made
      · rename_i different
        rw [← Array.getD_eq_getD_getElem?]
        rw [Array.size_push] at below
        exact each index (by omega)

variable {set last : BoundedSet} {index : Nat}

/-! ## What operations leave -/

/-- A set whose segments are tidy. -/
structure Tidy (plan : Plan) (storage : StorageSettings) (set : BoundedSet) : Prop where
  planned : set.plan = plan
  count : set.segments.size = plan.segmentCount
  bits : set.router.segmentBits = plan.segmentBits
  buckets : set.router.buckets = plan.bucketsPerSegment
  segments : ∀ index < set.segments.size, (set.segmentAt index).Tidy plan storage

theorem Tidy.replaced (tidy : set.Tidy plan storage) (inside : index < set.segments.size)
    {segment : Segment} (there : segment.Tidy plan storage) :
    (set.putSegment index segment).Tidy plan storage where
  planned := tidy.planned
  count := (size_putSegment index segment set).trans tidy.count
  bits := tidy.bits
  buckets := tidy.buckets
  segments other below := by
    rw [size_putSegment] at below
    rw [segmentAt_putSegment segment inside]
    split
    · exact there
    · exact tidy.segments other below

/-- Going through a set leaves it as it was. -/
theorem leastDistance_leaves (set : BoundedSet) :
    Keeping.Leaves leastDistance set fun _ last => last = set := by
  apply Keeping.Leaves.getThen
  have rounds (start : LeastDistance) :
      Keeping.Leaves ((List.range set.segments.size).foldlM observeSegment start) set
        fun _ last => last = set := by
    refine Keeping.Leaves.foldlM (fun distance index _ current same => ?_) ?_ start
    · exact same ▸ onSegment_scan_leaves _ _ distance index current
    · rfl
  refine Keeping.Leaves.bind _ (rounds {}) ?_ fun _ _ same => same
  exact fun _ _ same => Keeping.Leaves.pure same

/-- The keeper of the checkpoints has no part in what the segments are. -/
theorem Tidy.onCheckpoints_leaves {α : Type} (tidy : set.Tidy plan storage)
    (work : Keeping CheckpointKeeper α) :
    Keeping.Leaves (onCheckpoints work) set fun _ last => last.Tidy plan storage :=
  fun _ => { tidy with }

section Operations

variable (tidy : set.Tidy plan storage)

include tidy

theorem Tidy.segment_lt (shaped : plan.Shaped) (fp : Fingerprint) :
    set.router.segment fp < set.segments.size := by
  have bits : set.router.segmentBits ≤ 64 := by
    rw [tidy.bits]
    exact Nat.le_trans shaped.bits (by decide)
  have below := Router.segment_lt bits fp
  rw [tidy.bits] at below
  rw [tidy.count]
  exact below

theorem Tidy.bucket_lt (shaped : plan.Shaped) (fp : Fingerprint) :
    set.router.bucket fp < plan.bucketsPerSegment := by
  rw [Router.bucket, tidy.buckets]
  exact Nat.mod_lt _ shaped.buckets

theorem Tidy.put_leaves (shaped : plan.Shaped) (buffered : 0 < plan.pendingCapacity)
    (two : 2 ≤ storage.maxPagesPerSegment.toNat) (fp : Fingerprint) :
    Keeping.Leaves (put fp) set fun result last => ∀ known, result = .ok known →
      last.Tidy plan storage := by
  have inside := tidy.segment_lt shaped fp
  have puts := (tidy.segments _ inside).put_leaves buffered two (tidy.bucket_lt shaped fp) fp
  refine Keeping.Leaves.getThen ((onSegment_leaves puts).mono ?_)
  rintro result _ ⟨segment, rfl, leaves⟩ known answered
  exact tidy.replaced inside (leaves known answered)

theorem Tidy.contains_leaves (shaped : plan.Shaped) (fp : Fingerprint) :
    Keeping.Leaves (contains fp) set fun _ last => last.Tidy plan storage := by
  have inside := tidy.segment_lt shaped fp
  have segment := tidy.segments _ inside
  have looks := Segment.contains_within segment.toWithin (set.router.bucket fp) fp
  refine Keeping.Leaves.getThen ((onSegment_leaves looks).mono ?_)
  rintro result _ ⟨last, rfl, within, readers⟩
  exact tidy.replaced inside ⟨within, readers.trans segment.readers⟩

theorem Tidy.compact_leaves (inside : index < set.segments.size) :
    Keeping.Leaves (onSegment index Segment.compact) set fun _ last => last.Tidy plan storage := by
  refine (onSegment_leaves (tidy.segments index inside).compact_leaves).mono ?_
  rintro _ _ ⟨segment, rfl, there⟩
  exact tidy.replaced inside there

theorem Tidy.stageSegment_leaves (inside : index < plan.segmentCount) (staging : Staging) :
    Keeping.Leaves (stageSegment staging index) set fun _ last => last.Tidy plan storage :=
  BoundedSet.stageSegment_leaves (tidy.compact_leaves (tidy.count ▸ inside)) staging

theorem Tidy.beginCheckpoint_leaves :
    Keeping.Leaves beginCheckpoint set fun _ last => last.Tidy plan storage := by
  apply Keeping.Leaves.getThen
  refine Keeping.Leaves.bind _ (tidy.onCheckpoints_leaves _) ?_ fun _ _ still => still
  intro staging begun still
  have rounds : Keeping.Leaves ((List.range set.segments.size).foldlM stageSegment staging) begun
      fun _ last => last.Tidy plan storage := by
    refine Keeping.Leaves.foldlM (fun staging index mem current there => ?_) still staging
    exact there.stageSegment_leaves (tidy.count ▸ List.mem_range.mp mem) staging
  refine Keeping.Leaves.bind _ rounds ?_ fun _ _ still => still
  intro filled last there
  refine Keeping.Leaves.bind _ (there.onCheckpoints_leaves _) ?_ fun _ _ still => still
  exact fun _ _ still => Keeping.Leaves.pure still

theorem Tidy.commitCheckpoint_leaves :
    Keeping.Leaves commitCheckpoint set fun _ last => last.Tidy plan storage := by
  refine Keeping.Leaves.bind _ (tidy.onCheckpoints_leaves _) ?_ fun _ _ still => still
  exact fun _ _ still => Keeping.Leaves.pure still

theorem Tidy.leastDistance_leaves :
    Keeping.Leaves leastDistance set fun _ last => last.Tidy plan storage :=
  (BoundedSet.leastDistance_leaves set).mono fun _ _ same => same ▸ tidy

end Operations

/-! ## Sets that arise -/

/-- The sets that settings and their plan lead to.  One is there as soon as its segments are, and a
checkpoint is restored to it by puts; one has been opened; and operations go on with it.  A put counts
only if it is answered, and every other operation may end as it likes.  Each is done on a volume of
its own.  While a checkpoint is written there is a set for each segment whose pages were merged, and
of these segments the snapshots are taken. -/
inductive Arises (settings : Settings) (plan : Plan) : BoundedSet → Prop
  | created {set : BoundedSet} {before after : Volume} (planned : set.plan = plan)
      (routes : set.router = routerFor plan set.seed)
      (result : createSegments plan settings.storage set.overflow before =
        (.ok set.segments, after)) : Arises settings plan set
  | opened {set : BoundedSet} {seed : UInt64} {dir : Path} {name : String} {before after : Volume}
      (result : openAt settings seed dir name before = (.ok set, after)) : Arises settings plan set
  | put {set last : BoundedSet} {fp : Fingerprint} {known : Bool} {before after : Volume}
      (arises : Arises settings plan set)
      (result : put fp set before = ((.ok known, last), after)) : Arises settings plan last
  | contains {set : BoundedSet} (arises : Arises settings plan set) (fp : Fingerprint)
      (before : Volume) : Arises settings plan (contains fp set before).1.2
  | merged {set : BoundedSet} {index : Nat} (arises : Arises settings plan set)
      (inside : index < set.segments.size) (before : Volume) :
      Arises settings plan (onSegment index Segment.compact set before).1.2
  | beginCheckpoint {set : BoundedSet} (arises : Arises settings plan set) (before : Volume) :
      Arises settings plan (beginCheckpoint set before).1.2
  | commitCheckpoint {set : BoundedSet} (arises : Arises settings plan set) (before : Volume) :
      Arises settings plan (commitCheckpoint set before).1.2
  | leastDistance {set : BoundedSet} (arises : Arises settings plan set) (before : Volume) :
      Arises settings plan (leastDistance set before).1.2

variable {settings : Settings}

theorem pages_of_validate (accepted : storage.validate = .ok ()) :
    2 ≤ storage.maxPagesPerSegment.toNat := by
  rw [StorageSettings.validate] at accepted
  split at accepted
  · contradiction
  · split at accepted
    · contradiction
    · rename_i several
      exact UInt64.le_iff_toNat_le.mp (UInt64.not_lt.mp several)

theorem budgeted_of_compute {memory : MemorySettings} (planned : Plan.compute memory = .ok plan) :
    plan.Budgeted := by
  obtain ⟨accepted, reserved⟩ := Plan.withReserve_of_compute planned
  exact (Plan.withReserve_budgeted accepted reserved).1

section

variable (planned : Plan.compute settings.memory = .ok plan)
  (accepted : settings.storage.validate = .ok ())

include planned accepted

/-- Whatever is restored, it is restored by puts. -/
theorem openAt_tidy {seed : UInt64} {dir : Path} {name : String}
    (result : openAt settings seed dir name before = (.ok set, after)) :
    set.Tidy plan settings.storage := by
  have shaped := Plan.compute_shaped planned
  rw [openAt_eq accepted planned] at result
  obtain ⟨keeper, taken, -, opened⟩ := exists_of_bind_ok result
  obtain ⟨segments, laid, laying, filled⟩ := exists_of_bind_ok opened
  obtain ⟨_, cleared, -, making⟩ := exists_of_bind_ok laying
  obtain ⟨_, made, -, creating⟩ := exists_of_bind_ok making
  obtain ⟨size, segmentsTidy⟩ := createSegments_each (Segment.create_tidy shaped) creating
  have puts (current : BoundedSet) (fp : Fingerprint) (tidy : current.Tidy plan settings.storage) :=
    tidy.put_leaves shaped (budgeted_of_compute planned).buffered (pages_of_validate accepted) fp
  exact Holder.restored_leaves (Tidy plan settings.storage) puts
    { planned := rfl, count := size, bits := rfl, buckets := rfl, segments := segmentsTidy } filled

/-- Every set that arises is tidy. -/
theorem Arises.tidy (arises : Arises settings plan set) : set.Tidy plan settings.storage := by
  have shaped := Plan.compute_shaped planned
  induction arises with
  | created planned routes result =>
      obtain ⟨count, segments⟩ := createSegments_each (Segment.create_tidy shaped) result
      exact
        { planned, count, segments
          bits := congrArg Router.segmentBits routes
          buckets := congrArg Router.buckets routes }
  | opened result => exact openAt_tidy planned accepted result
  | @put set last fp known before after _ result tidy =>
      have leaves := tidy.put_leaves shaped (budgeted_of_compute planned).buffered
        (pages_of_validate accepted) fp before
      rw [result] at leaves
      exact leaves known rfl
  | contains _ fp before tidy => exact tidy.contains_leaves shaped fp before
  | merged _ inside before tidy => exact tidy.compact_leaves inside before
  | beginCheckpoint _ before tidy => exact tidy.beginCheckpoint_leaves before
  | commitCheckpoint _ before tidy => exact tidy.commitCheckpoint_leaves before
  | leastDistance _ before tidy => exact tidy.leastDistance_leaves before

end

/-- A set that is opened in an empty directory and then put to. -/
def filled (settings : Settings) (fps : List Fingerprint) : Task BoundedSet := do
  let set ← openAt settings 7 [] "fps"
  Keeping.build set (fps.forM fun fp => do let _ ← put fp)

theorem Arises.puts_leaves (arises : Arises settings plan set) (fps : List Fingerprint) :
    Keeping.Leaves (fps.forM fun fp => do let _ ← BoundedSet.put fp) set fun result last =>
      ∀ done, result = .ok done → Arises settings plan last := by
  induction fps generalizing set with
  | nil => exact Keeping.Leaves.pure fun _ _ => arises
  | cons fp fps ih =>
      have puts : Keeping.Leaves (do let _ ← BoundedSet.put fp : Keeping BoundedSet Unit) set
          fun result last => ∀ done, result = .ok done → Arises settings plan last := by
        refine Keeping.Leaves.bind (fun result last =>
          ∀ known, result = .ok known → Arises settings plan last) ?_ ?_ fun _ _ _ => by simp
        · intro before
          rcases ended : BoundedSet.put fp set before with ⟨⟨result, last⟩, after⟩
          rintro known rfl
          exact arises.put ended
        · exact fun known last answered => Keeping.Leaves.pure fun _ _ => answered known rfl
      refine Keeping.Leaves.bind _ puts ?_ fun _ _ _ => by simp
      exact fun _ last answered => ih (answered _ rfl)

/-- What is evaluated of a set that was filled is so of one that arises. -/
theorem exists_filled {α : Type} {fps : List Fingerprint} {tell : BoundedSet → α} {told : α}
    (evaluated : (filled settings fps {}).1.toOption.map tell = some told) :
    ∃ set after, filled settings fps {} = (.ok set, after) ∧ tell set = told ∧
      ∀ plan, Arises settings plan set := by
  rcases result : filled settings fps {} with ⟨error | set, after⟩ <;> rw [result] at evaluated
  · contradiction
  · obtain ⟨start, middle, opening, building⟩ := exists_of_bind_ok result
    exact ⟨set, after, rfl, Option.some.inj evaluated, fun plan =>
      ((Arises.opened opening).puts_leaves fps).of_build building⟩

/-! ## Counts of a whole set -/

/-- A count that is added up part by part. -/
theorem foldl_add (count : SegmentStats → Nat)
    (adds : ∀ first second, count (first.add second) = count first + count second)
    (parts : List Segment) (start : SegmentStats) :
    count ((parts.map Segment.stats).foldl SegmentStats.add start) =
      count start + total (fun segment => count segment.stats) parts := by
  induction parts generalizing start with
  | nil => rfl
  | cons part parts ih =>
      rw [List.map_cons, List.foldl_cons, ih, adds, total_cons, Nat.add_assoc]

theorem stats_indexBytes (set : BoundedSet) :
    set.stats.indexBytes = total (fun segment => segment.stats.indexBytes) set.segments.toList :=
  (foldl_add SegmentStats.indexBytes (fun _ _ => rfl) _ .zero).trans (Nat.zero_add _)

theorem stats_openPages (set : BoundedSet) :
    set.stats.openPages = total (fun segment => segment.stats.openPages) set.segments.toList :=
  (foldl_add SegmentStats.openPages (fun _ _ => rfl) _ .zero).trans (Nat.zero_add _)

theorem foldl_max_le {most start : Nat} {counts : List Nat} (low : start ≤ most)
    (each : ∀ count ∈ counts, count ≤ most) : counts.foldl max start ≤ most :=
  List.foldlRecOn (motive := (· ≤ most)) counts max low fun _ below count mem =>
    Nat.max_le.mpr ⟨below, each count mem⟩

theorem stats_maxOccupancy (set : BoundedSet) : set.stats.maxOccupancy = set.maxOccupancy := by
  have folded (parts : List Segment) (start : SegmentStats) :
      ((parts.map Segment.stats).foldl SegmentStats.add start).maxOccupancy =
        (parts.map fun segment => segment.stats.maxOccupancy).foldl max start.maxOccupancy := by
    induction parts generalizing start with
    | nil => rfl
    | cons part parts ih => exact ih (start.add part.stats)
  exact folded set.segments.toList .zero

/-! ## What settings and plan bound -/

theorem exists_segmentAt {segment : Segment} (mem : segment ∈ set.segments) :
    ∃ index < set.segments.size, set.segmentAt index = segment := by
  obtain ⟨index, inside, rfl⟩ := Array.getElem_of_mem mem
  refine ⟨index, inside, ?_⟩
  rw [segmentAt, Array.getD_eq_getD_getElem?, Array.getElem?_eq_getElem inside]
  rfl

theorem Tidy.of_mem (tidy : set.Tidy plan storage) {segment : Segment} (mem : segment ∈ set.segments) :
    segment.Tidy plan storage := by
  obtain ⟨index, inside, rfl⟩ := exists_segmentAt mem
  exact tidy.segments index inside

/-- A plan bounds everything in memory but the page indexes.  No table grows beyond its slots, no
bucket beyond its width, and what is pending is written before it is more than a page can be made of;
in the middle of a put, when a bucket has given up a part and before that is written, it can be more
by what a bucket holds.  So a copy of a segment has the size that was set aside for it. -/
theorem memory_within_plan (planned : Plan.compute settings.memory = .ok plan)
    (accepted : settings.storage.validate = .ok ()) (arises : Arises settings plan set) :
    (∀ segment ∈ set.segments,
      segment.table.toList.length ≤ plan.segmentCapacity ∧
      segment.stats.inMemory ≤ plan.segmentCapacity ∧
      (∀ bucket, segment.table.occupied bucket ≤ plan.bucketEntries) ∧
      segment.stats.maxOccupancy ≤ plan.bucketEntries ∧
      segment.pending.size < plan.pendingCapacity ∧
      (∀ fp, (segment.absorb (set.router.bucket fp) fp).pending.size ≤
        plan.pendingCapacity + plan.bucketEntries) ∧
      segment.memoryCopy.length * Plan.fingerprintBytes ≤ plan.snapshotBytes) ∧
    set.maxOccupancy ≤ plan.bucketEntries ∧ set.stats.maxOccupancy ≤ plan.bucketEntries := by
  have tidy := arises.tidy planned accepted
  have shaped := Plan.compute_shaped planned
  have buffered := (budgeted_of_compute planned).buffered
  have fullest : set.maxOccupancy ≤ plan.bucketEntries := by
    apply foldl_max_le (Nat.zero_le _)
    intro count mem
    obtain ⟨segment, there, rfl⟩ := List.mem_map.mp mem
    exact (tidy.of_mem (Array.mem_toList_iff.mp there)).fullest
  refine ⟨fun segment mem => ?_, fullest, Nat.le_trans (Nat.le_of_eq (stats_maxOccupancy set)) fullest⟩
  have within := tidy.of_mem mem
  have held : segment.table.toList.length ≤ plan.segmentCapacity :=
    Nat.le_trans within.table.length_toList_le (Nat.le_of_eq (congrArg _ within.width))
  have waiting : segment.pending.size < plan.pendingCapacity := by
    have most := within.pending
    omega
  refine ⟨held, Nat.le_trans (Nat.le_of_eq within.table.counted) held, fun bucket => ?_, within.fullest, waiting, fun fp => ?_, ?_⟩
  · exact Nat.le_trans (within.table.fits bucket) (Nat.le_of_eq within.width)
  · have most := (within.toWithin.absorb (tidy.bucket_lt shaped fp) fp).pending
    omega
  · have copied : segment.memoryCopy.length = segment.table.toList.length + segment.pending.size := by
      rw [Segment.memoryCopy, List.length_mergeSort, List.length_append, Std.TreeSet.length_toList]
    rw [copied, Plan.snapshotBytes]
    exact Nat.mul_le_mul_right _ (Nat.add_le_add held (Nat.le_of_lt waiting))

theorem eq_ok_of_toOption {ε α : Type} {result : Except ε α} {a : α}
    (computed : result.toOption = some a) : result = .ok a := by
  cases result with
  | error => exact nomatch computed
  | ok => exact congrArg _ (Option.some.inj computed)

/-- Two segments with a bucket of three fingerprints each, and one file that may stay open. -/
def spreadSettings : Settings where
  kind := .disk
  memory :=
    { budgetBytes := 576
      segmentBits := 1
      bucketEntries := 3
      reserveRatio := 0.5 }
  storage :=
    { pageIndexStride := 2
      maxPagesPerSegment := 4
      maxOpenPages := 1
      syncWrites := false }
  log := .standard

/-- The plan for these settings. -/
def spreadPlan : Plan where
  budgetBytes := 576
  segmentBits := 1
  bucketsPerSegment := 1
  bucketEntries := 3
  pendingCapacity := 1
  reserveBytes := 288
  indexBytes := 256

theorem compute_spread : Plan.compute spreadSettings.memory = .ok spreadPlan :=
  eq_ok_of_toOption (by decide +kernel)

/-- A bucket of three was full, and gave up two fingerprints that are in a page now. -/
theorem memory_within_plan_spread :
    ∃ set after, filled spreadSettings [1, 2, 3, 4] {} = (.ok set, after) ∧
      set.stats.pages = 1 ∧ set.stats.onDisk = 2 ∧ set.stats.maxOccupancy = 3 ∧
      set.stats.maxOccupancy ≤ spreadPlan.bucketEntries ∧
      ∀ segment ∈ set.segments, segment.stats.inMemory ≤ 3 ∧ segment.pending.size < 1 := by
  have evaluated : (filled spreadSettings [1, 2, 3, 4] {}).1.toOption.map
      (fun set => (set.stats.pages, set.stats.onDisk, set.stats.maxOccupancy)) =
        some (1, 2, 3) := by
    decide +kernel
  obtain ⟨set, after, result, told, arises⟩ := exists_filled evaluated
  obtain ⟨pages, rest⟩ := Prod.mk.inj told
  obtain ⟨onDisk, fullest⟩ := Prod.mk.inj rest
  obtain ⟨segments, -, most⟩ := memory_within_plan compute_spread rfl (arises spreadPlan)
  refine ⟨set, after, result, pages, onDisk, fullest, most, fun segment mem => ?_⟩
  obtain ⟨-, inMemory, -, -, pending, -⟩ := segments segment mem
  exact ⟨inMemory, pending⟩

/-- Page indexes are thinned to the share that a plan gives them, but every page keeps one entry.  So
the share is enough as long as no segment has more pages than its part of the share has entries, and
however many pages the settings allow, each costs one entry at most beyond that. -/
theorem indexes_within_share (planned : Plan.compute settings.memory = .ok plan)
    (accepted : settings.storage.validate = .ok ()) (arises : Arises settings plan set) :
    (∀ segment ∈ set.segments,
      segment.store.indexEntries ≤ max plan.indexEntriesPerSegment segment.store.pageCount ∧
      segment.store.pageCount ≤ settings.storage.maxPagesPerSegment.toNat) ∧
    Plan.minIndexEntries ≤ plan.indexEntriesPerSegment ∧
    ((∀ segment ∈ set.segments, segment.store.pageCount ≤ plan.indexEntriesPerSegment) →
      set.stats.indexBytes ≤ set.plan.indexBytes) ∧
    (settings.storage.maxPagesPerSegment.toNat ≤ plan.indexEntriesPerSegment →
      set.stats.indexBytes ≤ set.plan.indexBytes) := by
  have tidy := arises.tidy planned accepted
  have each (segment : Segment) (mem : segment ∈ set.segments) :
      segment.store.indexEntries ≤ max plan.indexEntriesPerSegment segment.store.pageCount ∧
        segment.store.pageCount ≤ settings.storage.maxPagesPerSegment.toNat := by
    have limited := (tidy.of_mem mem).store
    exact ⟨limited.indexed, limited.few⟩
  have share (few : ∀ segment ∈ set.segments,
      segment.store.pageCount ≤ plan.indexEntriesPerSegment) :
      set.stats.indexBytes ≤ set.plan.indexBytes := by
    have bytes : ∀ segment ∈ set.segments.toList, segment.stats.indexBytes ≤
        plan.indexEntriesPerSegment * Plan.fingerprintBytes := by
      intro segment mem
      have here := Array.mem_toList_iff.mp mem
      have most := Nat.le_trans (each segment here).1 (Nat.max_le.mpr ⟨Nat.le_refl _, few segment here⟩)
      exact Nat.mul_le_mul_right _ most
    rw [stats_indexBytes, tidy.planned]
    refine Nat.le_trans (total_le bytes) ?_
    rw [Array.length_toList, tidy.count, Nat.mul_comm]
    exact plan.indexEntries_le
  refine ⟨each, (budgeted_of_compute planned).indexed, share, fun roomy => share fun segment mem => ?_⟩
  exact Nat.le_trans (each segment mem).2 roomy

/-- One bucket of one fingerprint: each that it gives up is written as a page of its own. -/
def crowdedSettings : Settings where
  kind := .disk
  memory :=
    { budgetBytes := 288
      segmentBits := 0
      bucketEntries := 1
      reserveRatio := 0.5 }
  storage :=
    { pageIndexStride := 1
      maxPagesPerSegment := 17
      maxOpenPages := 8
      syncWrites := false }
  log := .standard

/-- The plan for these settings. -/
def crowdedPlan : Plan where
  budgetBytes := 288
  segmentBits := 0
  bucketsPerSegment := 1
  bucketEntries := 1
  pendingCapacity := 1
  reserveBytes := 144
  indexBytes := 128

theorem compute_crowded : Plan.compute crowdedSettings.memory = .ok crowdedPlan :=
  eq_ok_of_toOption (by decide +kernel)

/-- Sixteen pages fill the share of sixteen entries. -/
theorem indexes_within_share_crowded :
    ∃ set after,
      filled crowdedSettings [1, 2, 3, 4, 5, 6, 7, 8, 9, 10, 11, 12, 13, 14, 15, 16, 17] {} =
        (.ok set, after) ∧
      set.stats.pages = 16 ∧ set.stats.indexBytes = 128 ∧
      set.stats.indexBytes ≤ set.plan.indexBytes := by
  have evaluated :
      (filled crowdedSettings [1, 2, 3, 4, 5, 6, 7, 8, 9, 10, 11, 12, 13, 14, 15, 16, 17]
        {}).1.toOption.map (fun set => (set.stats.pages, set.stats.indexBytes,
          set.segments.toList.map fun segment => segment.store.pageCount)) =
        some (16, 128, [16]) := by
    decide +kernel
  obtain ⟨set, after, result, told, arises⟩ := exists_filled evaluated
  obtain ⟨pages, rest⟩ := Prod.mk.inj told
  obtain ⟨indexBytes, counts⟩ := Prod.mk.inj rest
  obtain ⟨-, -, share, -⟩ := indexes_within_share compute_crowded rfl (arises crowdedPlan)
  refine ⟨set, after, result, pages, indexBytes, share fun segment mem => ?_⟩
  have count : segment.store.pageCount ∈ [16] := by
    rw [← counts]
    exact List.mem_map_of_mem (Array.mem_toList_iff.mpr mem)
  rw [List.mem_singleton.mp count]
  decide

/-- A page more is one entry too many. -/
theorem indexes_beyond_share :
    ∃ set after,
      filled crowdedSettings [1, 2, 3, 4, 5, 6, 7, 8, 9, 10, 11, 12, 13, 14, 15, 16, 17, 18] {} =
        (.ok set, after) ∧
      Plan.compute crowdedSettings.memory = .ok set.plan ∧
      crowdedSettings.storage.validate = .ok () ∧ Arises crowdedSettings set.plan set ∧
      set.plan.indexBytes = 128 ∧ set.stats.indexBytes = 136 := by
  have evaluated :
      (filled crowdedSettings [1, 2, 3, 4, 5, 6, 7, 8, 9, 10, 11, 12, 13, 14, 15, 16, 17, 18]
        {}).1.toOption.map (fun set => (set.plan, set.stats.indexBytes)) =
        some (crowdedPlan, 136) := by
    decide +kernel
  obtain ⟨set, after, result, told, arises⟩ := exists_filled evaluated
  obtain ⟨plan, indexBytes⟩ := Prod.mk.inj told
  refine ⟨set, after, result, ?_, rfl, arises _, ?_, indexBytes⟩
  · rw [plan]
    exact compute_crowded
  · rw [plan]
    rfl

/-- Every segment has an even share of the files that may stay open, but never none.  So a set has no
more files open than the settings allow, or one for each segment where that is more. -/
theorem open_pages_within_limit (planned : Plan.compute settings.memory = .ok plan)
    (accepted : settings.storage.validate = .ok ()) (arises : Arises settings plan set) :
    (∀ segment ∈ set.segments,
      segment.stats.openPages ≤ max (settings.storage.maxOpenPages.toNat / plan.segmentCount) 1) ∧
    set.stats.openPages ≤ max settings.storage.maxOpenPages.toNat plan.segmentCount ∧
    (plan.segmentCount ≤ settings.storage.maxOpenPages.toNat →
      set.stats.openPages ≤ settings.storage.maxOpenPages.toNat) := by
  have tidy := arises.tidy planned accepted
  have some := plan.segmentCount_pos
  have share : settings.storage.openPagesPerSegment plan.segmentCount =
      max (settings.storage.maxOpenPages.toNat / plan.segmentCount) 1 := by
    rw [StorageSettings.openPagesPerSegment, Nat.max_eq_left some]
  have each (segment : Segment) (mem : segment ∈ set.segments) :
      segment.stats.openPages ≤ max (settings.storage.maxOpenPages.toNat / plan.segmentCount) 1 :=
    Nat.le_trans (tidy.of_mem mem).store.opened (Nat.le_of_eq share)
  have all : set.stats.openPages ≤ max settings.storage.maxOpenPages.toNat plan.segmentCount := by
    rw [stats_openPages]
    refine Nat.le_trans (total_le fun segment mem => each segment (Array.mem_toList_iff.mp mem)) ?_
    rw [Array.length_toList, tidy.count, ← Nat.mul_max_mul_left, Nat.mul_one]
    exact Nat.max_le.mpr ⟨Nat.le_trans (Nat.mul_div_le _ _) (Nat.le_max_left _ _), Nat.le_max_right _ _⟩
  exact ⟨each, all, fun roomy => Nat.le_trans all (Nat.max_le.mpr ⟨Nat.le_refl _, roomy⟩)⟩

/-- One page is open in one of two segments. -/
theorem open_pages_within_limit_spread :
    ∃ set after, filled spreadSettings [1, 2, 3, 4, 2] {} = (.ok set, after) ∧
      set.stats.openPages = 1 ∧ set.stats.openPages ≤ 2 := by
  have evaluated : (filled spreadSettings [1, 2, 3, 4, 2] {}).1.toOption.map
      (fun set => set.stats.openPages) = some 1 := by
    decide +kernel
  obtain ⟨set, after, result, told, arises⟩ := exists_filled evaluated
  exact ⟨set, after, result, told, (open_pages_within_limit compute_spread rfl (arises spreadPlan)).2.1⟩

/-- Each of two segments keeps a page open, where one is the limit. -/
theorem open_pages_beyond_limit :
    ∃ set after,
      filled spreadSettings [1, 2, 3, 4, 2, 9223372036854775809, 9223372036854775810,
        9223372036854775811, 9223372036854775812, 9223372036854775810] {} = (.ok set, after) ∧
      Plan.compute spreadSettings.memory = .ok set.plan ∧
      spreadSettings.storage.validate = .ok () ∧ Arises spreadSettings set.plan set ∧
      spreadSettings.storage.maxOpenPages = 1 ∧ set.stats.openPages = 2 := by
  have evaluated :
      (filled spreadSettings [1, 2, 3, 4, 2, 9223372036854775809, 9223372036854775810,
        9223372036854775811, 9223372036854775812, 9223372036854775810] {}).1.toOption.map
        (fun set => (set.plan, set.stats.openPages)) = some (spreadPlan, 2) := by
    decide +kernel
  obtain ⟨set, after, result, told, arises⟩ := exists_filled evaluated
  obtain ⟨plan, openPages⟩ := Prod.mk.inj told
  refine ⟨set, after, result, ?_, rfl, arises _, rfl, openPages⟩
  rw [plan]
  exact compute_spread

end BoundedSet

end FingerprintSet
