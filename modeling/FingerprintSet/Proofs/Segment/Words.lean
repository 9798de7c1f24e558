import FingerprintSet.Proofs.BucketTable.Words
import FingerprintSet.Proofs.PageStore.Words
import FingerprintSet.Proofs.Segment.Limits

/-!
# Segments in words and slices

A segment counts what it holds, what it has evicted and who reads its pages.  All these counts are
words as long as few operations have gone by: what a segment holds bounds what is in its table and in
its pages, and each operation uses up two page numbers at most.
-/

namespace FingerprintSet

open Storage Volume SortedFile Wordwise

namespace Segment

namespace Wordwise

variable {α σ : Type}

/-- `Segment.create` in words.  The pending set has room for what a bucket gives up beyond a page. -/
def create (index : Nat) (plan : Plan) (storage : StorageSettings) (overflow : Path) :
    GuardedTask Segment := do
  let store ← PageStore.Wordwise.create (overflow.child (directoryName index))
    (storeLimits plan storage)
  let table ← GuardedTask.demand
    (BucketTable.Wordwise.empty plan.bucketsPerSegment plan.bucketEntries)
  let _ ← GuardedTask.demand (plus plan.pendingCapacity plan.bucketEntries)
  pure
    { index, store, table
      pending := ∅
      activeReaders := 0
      evictions := 0
      size := 0
      pendingCapacity := plan.pendingCapacity
      maxPages := storage.maxPagesPerSegment.toNat }

/-- Work around the segment's store. -/
def onStore (work : Guarded PageStore α) : Guarded Segment α :=
  Guarded.onPart (·.store) (fun store segment => { segment with store }) work

/-- `Segment.inMemory` in words. -/
def inMemory (segment : Segment) (bucket : Nat) (fp : Fingerprint) : Option Bool := do
  return (← BucketTable.Wordwise.contains segment.table bucket fp) || segment.pending.contains fp

/-- `Segment.contains` in words. -/
def contains (bucket : Nat) (fp : Fingerprint) : Guarded Segment Bool := do
  let segment ← get
  if ← Guarded.demand (inMemory segment bucket fp) then
    pure true
  else
    onStore (PageStore.Wordwise.probe fp)

/-- `Segment.absorb` in words. -/
def absorb (segment : Segment) (bucket : Nat) (fp : Fingerprint) : Option Segment := do
  let evicted ← BucketTable.Wordwise.evicted segment.table bucket
  return { segment with
    table := ← BucketTable.Wordwise.insert segment.table bucket fp
    pending := evicted.foldl (fun pending old => pending.insert old) segment.pending
    evictions := ← plus segment.evictions evicted.length
    size := ← plus segment.size 1 }

/-- `Segment.addReader` in words. -/
def addReader (segment : Segment) : Option Segment := do
  return { segment with activeReaders := ← plus segment.activeReaders 1 }

/-- `Segment.dropReader` in words. -/
def dropReader (segment : Segment) : Option Segment := do
  return { segment with activeReaders := ← minus segment.activeReaders 1 }

/-- `Segment.registerJob` in words. -/
def registerJob (job : Option CompactionJob) : Guarded Segment Unit :=
  if job.isSome then Guarded.update addReader else pure ()

/-- `Segment.flushPending` in words. -/
def flushPending : Guarded Segment (Option CompactionJob) := do
  let batch := (← get).pending.toList
  onStore (PageStore.Wordwise.append batch)
  modify fun segment => { segment with pending := ∅ }
  if 0 < (← get).activeReaders then
    pure none
  else
    let maxPages := (← get).maxPages
    let job ← onStore (PageStore.Wordwise.tieredCompactionJob maxPages)
    registerJob job
    pure job

/-- `Segment.beginPut` in words. -/
def beginPut (bucket : Nat) (fp : Fingerprint) : Guarded Segment PutStep := do
  if ← contains bucket fp then
    pure .known
  else
    Guarded.update fun segment => absorb segment bucket fp
    if (← get).isPendingFull then
      return .added (← flushPending)
    else
      pure (.added none)

/-- `Segment.settle` in words. -/
def settle (outcome : Except Error MergedPage) : Guarded Segment Unit := do
  Guarded.update dropReader
  let merged ← Guarded.plain (Keeping.ofExcept outcome)
  onStore (PageStore.Wordwise.install merged)

/-- `Segment.runCompaction` in words. -/
def runCompaction (job : CompactionJob) : Guarded Segment Unit := do
  let outcome ← Guarded.plain (Keeping.outcome (job.run : Task MergedPage))
  settle outcome

/-- `Segment.put` in words. -/
def put (bucket : Nat) (fp : Fingerprint) : Guarded Segment Bool := do
  match ← beginPut bucket fp with
  | .known => pure true
  | .added none => pure false
  | .added (some job) =>
      runCompaction job
      pure false

/-- `Segment.beginCompact` in words. -/
def beginCompact : Guarded Segment (Option CompactionJob) := do
  if 0 < (← get).activeReaders then
    pure none
  else
    let job ← onStore PageStore.Wordwise.compactionJob
    registerJob job
    pure job

/-- `Segment.compact` in words. -/
def compact : Guarded Segment Unit := do
  match ← beginCompact with
  | none => pure ()
  | some job => runCompaction job

/-- `Segment.memoryCopy` in words. -/
def memoryCopy (segment : Segment) : Option (List Fingerprint) := do
  return ((← BucketTable.Wordwise.toList segment.table) ++ segment.pending.toList).mergeSort
    fun a b => a ≤ b

/-- `Segment.takeSnapshot` in words. -/
def takeSnapshot : Guarded Segment Merge := do
  let readers ← Guarded.plain (liftM (PageStore.openPages (← get).store.pages))
  let memory ← Guarded.demand (memoryCopy (← get))
  Guarded.update addReader
  pure (.fresh (.memory memory :: readers.map .file))

/-- `Segment.scan` in words. -/
def scan (sink : σ → Fingerprint → Task σ) (giveUp : σ → Task Unit) (state : σ) :
    Guarded Segment σ := do
  let snapshot ← tryCatch takeSnapshot fun error => Guarded.plain do
    (giveUp state : Task Unit)
    throw error
  let outcome ← Guarded.plain (Keeping.outcome (snapshot.fold sink giveUp state : Task σ))
  Guarded.update dropReader
  Guarded.plain (Keeping.ofExcept outcome)

end Wordwise

/-! ## What few operations leave -/

/-- A segment that has room for few fingerprints in its table and has gone through few operations. -/
structure Paced (spent : Nat) (segment : Segment) : Prop where
  slots : segment.table.slots.size < UInt64.size
  size : segment.size ≤ spent
  numbers : segment.store.nextId ≤ 2 * spent
  merges : segment.store.compactions ≤ spent

variable {homes : Homes} {before : Volume} {entries : PageId → List Fingerprint}
  {segment last : Segment} {fp : Fingerprint} {spent : Nat}

theorem Paced.mono {more : Nat} (paced : segment.Paced spent) (below : spent ≤ more) :
    segment.Paced more where
  slots := paced.slots
  size := Nat.le_trans paced.size below
  numbers := Nat.le_trans paced.numbers (Nat.mul_le_mul_left 2 below)
  merges := Nat.le_trans paced.merges below

/-- What no operation uses up. -/
theorem Paced.still (paced : segment.Paced spent) (spends : segment.Spends 0 0 0 last) :
    last.Paced spent where
  slots := spends.slots ▸ paced.slots
  size := Nat.le_trans spends.size paced.size
  numbers := Nat.le_trans spends.store.numbers paced.numbers
  merges := Nat.le_trans spends.store.merges paced.merges

/-- What one operation uses up at most. -/
theorem Paced.next (paced : segment.Paced spent) (spends : segment.Spends 1 2 1 last) :
    last.Paced (spent + 1) where
  slots := spends.slots ▸ paced.slots
  size := Nat.le_trans spends.size (Nat.add_le_add_right paced.size 1)
  numbers := Nat.le_trans spends.store.numbers (Nat.add_le_add_right paced.numbers 2)
  merges := Nat.le_trans spends.store.merges (Nat.add_le_add_right paced.merges 1)

theorem Paced.nextId_lt (paced : segment.Paced spent) (few : spent ≤ entryLimit) :
    segment.store.nextId < numberLimit :=
  Nat.lt_of_le_of_lt (Nat.le_trans paced.numbers (Nat.mul_le_mul_left 2 few)) (by decide)

theorem Paced.number_fits (paced : segment.Paced spent) (few : spent ≤ entryLimit) :
    segment.store.nextId + 1 < UInt64.size :=
  Nat.lt_of_le_of_lt
    (Nat.succ_le_succ (Nat.le_trans paced.numbers (Nat.mul_le_mul_left 2 few))) (by decide)

theorem Paced.merge_fits (paced : segment.Paced spent) (few : spent ≤ entryLimit) :
    segment.store.compactions + 1 < UInt64.size :=
  Nat.lt_of_le_of_lt (Nat.succ_le_succ (Nat.le_trans paced.merges few)) (by decide)

/-- All that a segment holds is in its table, pending or in its pages. -/
theorem Sound.places (sound : segment.Sound homes before entries) :
    segment.table.toList.length + segment.pending.toList.length +
      (segment.store.contents entries).length = segment.size := by
  rw [sound.counted, all, List.length_append, List.length_append]

namespace Wordwise

theorem create_agrees {index : Nat} {plan : Plan} {storage : StorageSettings}
    (short : storage.pageIndexStride.toNat * entryLength < UInt64.size)
    (small : plan.segmentCapacity < UInt64.size)
    (room : plan.pendingCapacity + plan.bucketEntries < UInt64.size) (overflow : Path)
    (before : Volume) :
    (create index plan storage overflow).Agrees (Segment.create index plan storage overflow)
      before := by
  apply (PageStore.Wordwise.create_agrees short (overflow.child (directoryName index)) before).bind
  intro store after _
  apply GuardedTask.Agrees.demandThen (BucketTable.Wordwise.empty_eq small)
  apply GuardedTask.Agrees.demandThen (plus_eq room)
  exact GuardedTask.Agrees.pure _ _

theorem onStore_agrees {α : Type} {guarded : Guarded PageStore α} {work : Keeping PageStore α}
    (agrees : guarded.Agrees work segment.store before) :
    (onStore guarded).Agrees (Segment.onStore work) segment before :=
  Guarded.Agrees.onPart agrees

theorem addReader_eq (room : segment.activeReaders + 1 < UInt64.size) :
    addReader segment = some segment.addReader := by
  rw [addReader, plus_eq room]
  rfl

theorem dropReader_eq (reads : 1 ≤ segment.activeReaders) :
    dropReader segment = some segment.dropReader := by
  rw [dropReader, minus_eq reads]
  rfl

section Steps

variable (sound : segment.Sound homes before entries) (paced : segment.Paced spent)
  (few : spent < entryLimit)

include sound paced

theorem inMemory_eq (fp : Fingerprint) :
    inMemory segment (homes.home fp) fp = some (segment.inMemory (homes.home fp) fp) := by
  rw [inMemory, BucketTable.Wordwise.contains_eq sound.table (homes.inside fp) paced.slots]
  rfl

include few

theorem contains_agrees (fp : Fingerprint) :
    (contains (homes.home fp) fp).Agrees (Segment.contains (homes.home fp) fp) segment before := by
  apply Guarded.Agrees.getThen
  apply Guarded.Agrees.demandThen (inMemory_eq sound paced fp)
  split
  · exact Guarded.Agrees.pure _ _ _
  · have places := sound.places
    have size := paced.size
    have roomy := sound.store.pages_roomy (by omega)
    exact onStore_agrees (PageStore.Wordwise.probe_agrees roomy fp before)

theorem absorb_eq (fp : Fingerprint) :
    absorb segment (homes.home fp) fp = some (segment.absorb (homes.home fp) fp) := by
  have limit : entryLimit < UInt64.size := by decide
  have inside := homes.inside fp
  have size := paced.size
  have places := sound.places
  have evicted := sound.evicted
  have stored := sound.store.counted
  rw [Std.TreeSet.length_toList] at places
  -- What a bucket gives up was in the table.
  have given : (segment.table.evicted (homes.home fp)).length ≤ segment.table.toList.length := by
    rw [BucketTable.evicted, List.length_take, ← sound.table.counted]
    exact Nat.le_trans (Nat.min_le_left _ _)
      (BucketTable.Wordwise.surplus_le_size sound.table inside)
  rw [absorb, BucketTable.Wordwise.evicted_eq sound.table inside paced.slots,
    BucketTable.Wordwise.insert_eq sound.table inside paced.slots]
  simp only [Option.bind_eq_bind, Option.bind_some]
  rw [plus_eq (by omega), plus_eq (by omega)]
  rfl

end Steps

/-! ## Flushing -/

/-- A merge that is prepared while nothing reads the pages is the one reader. -/
theorem registered_agrees {guarded : Guarded PageStore (Option CompactionJob)}
    {work : Keeping PageStore (Option CompactionJob)} (idle : segment.activeReaders = 0)
    (agrees : guarded.Agrees work segment.store before) :
    (do let job ← onStore guarded; registerJob job; pure job : Guarded Segment _).Agrees
      (do let job ← Segment.onStore work; Segment.registerJob job; pure job) segment before := by
  have readers : Keeping.Leaves (Segment.onStore work) segment fun _ last =>
      last.activeReaders = 0 :=
    Keeping.Leaves.onPart fun _ => idle
  apply (onStore_agrees agrees).bindLeaves readers
  intro job last after alone
  have one : last.activeReaders + 1 < UInt64.size := by
    rw [alone]
    decide
  rw [registerJob, Segment.registerJob]
  split
  · exact Guarded.Agrees.updateThen (addReader_eq one) (Guarded.Agrees.pure _ _ _)
  · exact Guarded.Agrees.pure _ _ _

theorem flushPending_agrees (volumeSound : before.Sound) (sound : segment.Sound homes before entries)
    (paced : segment.Paced spent) (few : spent < entryLimit) :
    flushPending.Agrees Segment.flushPending segment before := by
  have places := sound.places
  have size := paced.size
  have low := Nat.le_of_lt few
  apply Guarded.Agrees.getThen
  have appends := PageStore.Wordwise.append_agrees volumeSound sound.store
    (ascending_toList segment.pending) (paced.nextId_lt low) (by omega) (paced.number_fits low)
  apply (onStore_agrees appends).bindLeaves (onStore_spends (PageStore.append_spends _))
  intro _ written after used
  apply Guarded.Agrees.modifyThen
  apply Guarded.Agrees.getThen
  split
  · exact Guarded.Agrees.pure _ _ _
  · rename_i idle
    apply Guarded.Agrees.getThen
    have more := paced.next (used.mono (Nat.zero_le 1) (Nat.le_succ 1) (Nat.zero_le 1))
    exact registered_agrees (Nat.eq_zero_of_not_pos idle)
      (PageStore.Wordwise.tieredCompactionJob_agrees (more.number_fits few) written.maxPages after)

/-! ## Operations -/

theorem beginPut_agrees (volumeSound : before.Sound) (sound : segment.Sound homes before entries)
    (paced : segment.Paced spent) (few : spent + 1 < entryLimit) (fp : Fingerprint) :
    (beginPut (homes.home fp) fp).Agrees (Segment.beginPut (homes.home fp) fp) segment before := by
  have fewer := Nat.lt_of_succ_lt few
  have looks := (contains_runs volumeSound sound fp).leaving (contains_spends (homes.home fp) fp)
  apply (contains_agrees sound paced fewer fp).bindRuns looks
  rintro answer looked middle changes ⟨⟨moves, -, -, decides⟩, spends⟩
  cases answer with
  | true => exact Guarded.Agrees.pure _ _ _
  | false =>
      have new : fp ∉ segment.all entries := fun mem => Bool.false_ne_true (decides.mpr mem)
      have newStill : fp ∉ looked.all entries := fun mem => new (moves.holds.mem_iff.mp mem)
      have pacedStill := paced.still spends
      apply Guarded.Agrees.updateThen (absorb_eq moves.sound pacedStill fewer fp)
      apply Guarded.Agrees.getThen
      split
      · have absorbed := pacedStill.next ((absorb_spends looked (homes.home fp) fp).mono
          (Nat.le_refl 1) (Nat.zero_le 2) (Nat.zero_le 1))
        have flushes := flushPending_agrees (changes.sound volumeSound)
          (moves.sound.absorb newStill) absorbed few
        exact flushes.bind fun _ _ _ _ => Guarded.Agrees.pure _ _ _
      · exact Guarded.Agrees.pure _ _ _

/-- A merge that was prepared and counted as a reader is run and settled. -/
theorem runCompaction_agrees (volumeSound : before.Sound)
    (sound : segment.Sound homes before entries) (paced : segment.Paced spent)
    (few : spent < entryLimit) {job : CompactionJob} {used : FileId → Prop}
    (prepared : job.Prepared before used entries segment.store)
    (reads : segment.activeReaders = 1) :
    (runCompaction job).Agrees (Segment.runCompaction job) segment before := by
  have low := Nat.le_of_lt few
  have places := sound.places
  have size := paced.size
  have dropped := dropReader_eq (Nat.le_of_eq reads.symm)
  have numbered := Nat.lt_trans prepared.numbered (paced.nextId_lt low)
  apply Guarded.Agrees.outcomeMeets
    (CompactionJob.run_runs volumeSound sound.store.isDir numbered prepared)
  · rintro merged after ⟨changes, ready, -⟩
    apply Guarded.Agrees.updateThen dropped
    apply Guarded.Agrees.okThen
    have store := (sound.of_target volumeSound prepared changes).store
    have distinct := sound.distinct.sublist (List.sublist_append_right _ _)
    have stored : (segment.store.contents entries).length < entryLimit := by omega
    have installs : (PageStore.Wordwise.install merged).Agrees (PageStore.install merged)
        segment.dropReader.store after :=
      PageStore.Wordwise.install_agrees store ready distinct stored (paced.merge_fits low)
    exact onStore_agrees installs
  · intro error after _
    exact Guarded.Agrees.updateThen dropped (Guarded.Agrees.plain _ _ _)

theorem put_agrees (volumeSound : before.Sound) (sound : segment.Sound homes before entries)
    (paced : segment.Paced spent) (few : spent + 1 < entryLimit) (fp : Fingerprint) :
    (put (homes.home fp) fp).Agrees (Segment.put (homes.home fp) fp) segment before := by
  have room := paced.nextId_lt (Nat.le_of_lt (Nat.lt_of_succ_lt few))
  have begins := (beginPut_runs volumeSound sound room fp).leaving (beginPut_spends (homes.home fp) fp)
  apply (beginPut_agrees volumeSound sound paced few fp).bindRuns begins
  rintro step last middle changes ⟨leaves, spends⟩
  cases step with
  | known => exact Guarded.Agrees.pure _ _ _
  | added job =>
      cases job with
      | none => exact Guarded.Agrees.pure _ _ _
      | some job =>
          obtain ⟨-, others, moves, ⟨-, reads, prepared, -⟩, -⟩ := leaves
          have pacedStill := paced.next (spends.mono (Nat.le_refl 1) (Nat.le_refl 2) (Nat.zero_le 1))
          have runs := runCompaction_agrees (changes.sound volumeSound) moves.sound pacedStill few
            prepared reads
          exact runs.bind fun _ _ _ _ => Guarded.Agrees.pure _ _ _

theorem beginCompact_agrees (paced : segment.Paced spent) (few : spent ≤ entryLimit)
    (before : Volume) : beginCompact.Agrees Segment.beginCompact segment before := by
  apply Guarded.Agrees.getThen
  split
  · exact Guarded.Agrees.pure _ _ _
  · rename_i idle
    exact registered_agrees (Nat.eq_zero_of_not_pos idle)
      (PageStore.Wordwise.compactionJob_agrees (paced.number_fits few) before)

theorem compact_agrees (volumeSound : before.Sound) (sound : segment.Sound homes before entries)
    (paced : segment.Paced spent) (few : spent + 1 < entryLimit) :
    compact.Agrees Segment.compact segment before := by
  have low := Nat.le_of_lt (Nat.lt_of_succ_lt few)
  have begins := (beginCompact_runs volumeSound sound).leaving beginCompact_spends
  apply (beginCompact_agrees paced low before).bindRuns begins
  rintro job last middle changes ⟨⟨others, moves, offers, -⟩, spends⟩
  cases job with
  | none => exact Guarded.Agrees.pure _ _ _
  | some job =>
      obtain ⟨-, reads, prepared, -⟩ := offers
      have pacedStill := paced.next (spends.mono (Nat.zero_le 1) (Nat.le_succ 1) (Nat.zero_le 1))
      exact runCompaction_agrees (changes.sound volumeSound) moves.sound pacedStill few prepared reads

/-! ## Snapshots -/

theorem memoryCopy_eq {buckets : Nat} (shaped : segment.table.Shaped buckets)
    (small : segment.table.slots.size < UInt64.size) :
    memoryCopy segment = some segment.memoryCopy := by
  rw [memoryCopy, BucketTable.Wordwise.toList_eq shaped small]
  rfl

/-- The pages have no part in whether a scan has a result. -/
theorem scan_agrees {σ : Type} {buckets : Nat} (shaped : segment.table.Shaped buckets)
    (small : segment.table.slots.size < UInt64.size) (idle : segment.activeReaders = 0)
    (sink : σ → Fingerprint → Task σ) (giveUp : σ → Task Unit) (state : σ) (before : Volume) :
    (scan sink giveUp state).Agrees (Segment.scan sink giveUp state) segment before := by
  have one : segment.activeReaders + 1 < UInt64.size := by
    rw [idle]
    decide
  have takes : takeSnapshot.Agrees Segment.takeSnapshot segment before := by
    apply Guarded.Agrees.getThen
    apply Guarded.Agrees.plainThen
    intro readers after _
    apply Guarded.Agrees.getThen
    apply Guarded.Agrees.demandThen (memoryCopy_eq shaped small)
    exact Guarded.Agrees.updateThen (addReader_eq one) (Guarded.Agrees.pure _ _ _)
  have tries : Keeping.Leaves (tryCatch Segment.takeSnapshot fun error => do
      (giveUp state : Task Unit)
      throw error) segment fun result last => result.isOk → last = segment.addReader := by
    refine Keeping.Leaves.tryCatch takeSnapshot_leaves (fun _ _ same _ => same) ?_
    intro error last _
    refine Keeping.Leaves.bind (fun _ _ => True) (Keeping.Leaves.lift fun _ => trivial) ?_ ?_
    · exact fun _ _ _ => Keeping.Leaves.ofExcept fun impossible => nomatch impossible
    · exact fun _ _ _ impossible => nomatch impossible
  apply (takes.tryCatch fun _ _ _ _ => Guarded.Agrees.plain _ _ _).bindLeaves tries
  intro snapshot taken middle same
  obtain rfl := same rfl
  apply (Guarded.Agrees.plain _ _ _).bindLeaves
    (Keeping.Leaves.outcome (Keeping.Leaves.lift fun _ => rfl) :
      Keeping.Leaves _ segment.addReader fun _ last => last = segment.addReader)
  rintro outcome _ after rfl
  exact Guarded.Agrees.updateThen (dropReader_eq (Nat.le_add_left 1 _)) (Guarded.Agrees.plain _ _ _)

end Wordwise

end Segment

end FingerprintSet
