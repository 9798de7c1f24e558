import FingerprintSet.Proofs.PageStore.Numbers
import FingerprintSet.Proofs.Segment.Outcomes
import FingerprintSet.Proofs.Segment.Schedule

/-!
# Readers of pages

A merge is prepared only while nothing reads the pages, and the count of readers tells whether
something does.  It counts the snapshots that are held and the merge that is not settled: no
more, or nothing would be merged any more, and no less, or a page could go while a merge takes
it in.  None of this depends on the volume, so it holds whatever the volume refuses and whatever
becomes of it between two steps.
-/

namespace FingerprintSet

open Storage

namespace Segment

variable {segment last : Segment} {traffic : Traffic}

/-- A step that has the segment to itself leaves pages as they are or adds some.  If it leaves
a merge to run, nothing read the pages before, and the merge counts as a reader. -/
structure Yields (segment : Segment) (job : Option CompactionJob) (last : Segment) : Prop where
  adds : segment.store.Adds last.store
  readers : last.activeReaders = segment.activeReaders + if job.isSome then 1 else 0
  alone : job.isSome → segment.activeReaders = 0
  prepared : ∀ prepared, job = some prepared →
    last.store.Replaceable prepared.replaced prepared.targetId

theorem Yields.none (adds : segment.store.Adds last.store)
    (readers : last.activeReaders = segment.activeReaders) : segment.Yields none last where
  adds := adds
  readers := readers
  alone := by simp
  prepared := by simp

/-- The merge that a put is left with. -/
def PutStep.job : PutStep → Option CompactionJob
  | .known => .none
  | .added job => job

theorem Yields.trans {middle : Segment} {job : Option CompactionJob}
    (first : segment.Yields .none middle) (second : middle.Yields job last) :
    segment.Yields job last where
  adds := first.adds.trans second.adds
  readers := second.readers.trans (congrArg (· + _) first.readers)
  alone waits := first.readers.symm.trans (second.alone waits)
  prepared := second.prepared

/-- A prepared merge is counted where nothing was counted before. -/
theorem registered_yields (alone : segment.activeReaders = 0)
    {result : Except Error (Option CompactionJob)} {store : PageStore}
    (prepared : segment.store.Prepared result store) :
    segment.Yields (offered id result) (segment.registered result store) where
  adds := prepared.1
  readers := rfl
  alone _ := alone
  prepared job waits := by
    cases result with
    | ok job => exact prepared.2 _ (congrArg Except.ok waits)
    | error => contradiction

theorem Flushing.yields {result : Except Error (Option CompactionJob)}
    (flushing : segment.Flushing result last) (numbered : segment.store.Numbered) :
    segment.Yields (offered id result) last := by
  cases flushing with
  | refused appending => exact .none appending.adds rfl
  | busy _ appending => exact .none appending.adds rfl
  | @idle written store result idle appending tiering =>
      have writes : segment.Yields .none { segment with store := written, pending := ∅ } :=
        .none appending.adds rfl
      refine writes.trans (registered_yields ?_ ?_)
      · exact idle
      · exact tiering.leaves (appending.adds.numbered numbered)

theorem PutBeginning.yields {bucket : Nat} {fp : Fingerprint} {result : Except Error PutStep}
    (beginning : segment.PutBeginning bucket fp result last) (numbered : segment.store.Numbered) :
    segment.Yields (offered PutStep.job result) last := by
  cases beginning with
  | failed error rehandled => exact .none rehandled.same.adds rfl
  | known rehandled => exact .none rehandled.same.adds rfl
  | absorbed rehandled => exact .none rehandled.same.adds rfl
  | @flushed store result last rehandled full flushing =>
      have absorbed : segment.Yields .none (absorb { segment with store } bucket fp) :=
        .none rehandled.same.adds rfl
      have flushed := absorbed.trans (flushing.yields (rehandled.same.adds.numbered numbered))
      cases result <;> exact flushed

theorem Compacting.yields {result : Except Error (Option CompactionJob)}
    (compacting : segment.Compacting result last) (numbered : segment.store.Numbered) :
    segment.Yields (offered id result) last := by
  cases compacting with
  | busy => exact .none (PageStore.Adds.refl _) rfl
  | idle idle preparing => exact registered_yields idle (preparing.all_leaves numbered)

/-- A snapshot is counted if it could be taken. -/
theorem takeSnapshot_counts :
    Keeping.Leaves takeSnapshot segment fun result last =>
      last.store = segment.store ∧
        last.activeReaders = segment.activeReaders + if result.isOk then 1 else 0 := by
  apply Keeping.Leaves.getThen
  refine Keeping.Leaves.bind (fun _ last => last = segment)
    (Keeping.Leaves.lift fun _ => rfl) ?_ ?_
  · rintro readers last rfl
    apply Keeping.Leaves.getThen
    exact Keeping.Leaves.modifyThen (Keeping.Leaves.pure ⟨rfl, rfl⟩)
  · rintro error last rfl
    exact ⟨rfl, rfl⟩

/-- A settled merge is counted no more, whatever came of it, and what it merged is taken in. -/
theorem Settling.counts {outcome : Except Error MergedPage} {result : Except Error Unit}
    (settling : segment.Settling outcome result last) (numbered : segment.store.Numbered)
    (replaceable : ∀ merged, outcome = .ok merged →
      segment.store.Replaceable merged.replaced merged.id) :
    last.activeReaders = segment.activeReaders - 1 ∧ last.store.Numbered := by
  cases settling with
  | failed => exact ⟨rfl, numbered⟩
  | installed merges installing =>
      exact ⟨rfl, installing.numbered numbered (replaceable _ merges)⟩

/-! ## Calls that wait -/

/-- The pages that a merge takes in are there, and it is known under which number they go on. -/
def Call.Placed (store : PageStore) : Call → Prop
  | .merging _ job => store.Replaceable job.replaced job.targetId
  | .settling _ (.ok merged) => store.Replaceable merged.replaced merged.id
  | .settling _ (.error _) => True
  | .reading .. => True

theorem Call.Placed.of_adds {store later : PageStore} {call : Call} (placed : call.Placed store)
    (adds : store.Adds later) : call.Placed later := by
  cases call with
  | merging ticket job => exact PageStore.Replaceable.of_adds placed adds
  | settling ticket outcome =>
      cases outcome with
      | ok merged => exact PageStore.Replaceable.of_adds placed adds
      | error error => trivial
  | reading => trivial

/-- A snapshot stays as it is, whatever becomes of the store. -/
theorem Call.placed_of_reading {store : PageStore} {call : Call} (reads : call.isMerge = false) :
    call.Placed store := by
  cases call with
  | merging => contradiction
  | settling => contradiction
  | reading => trivial

namespace Traffic

/-- Snapshots that are held. -/
def snapshots (traffic : Traffic) : Nat :=
  traffic.calls.countP fun call => !call.isMerge

/-- The count of readers is in step with the calls that wait. -/
structure Balanced (traffic : Traffic) : Prop where
  numbered : traffic.segment.store.Numbered
  readers : traffic.segment.activeReaders = traffic.calls.length
  single : traffic.merges ≤ 1
  placed : ∀ call ∈ traffic.calls, call.Placed traffic.segment.store

theorem snapshots_add_merges (traffic : Traffic) :
    traffic.snapshots + traffic.merges = traffic.calls.length := by
  rw [Nat.add_comm, snapshots, merges, List.length_eq_countP_add_countP Call.isMerge]
  simp

/-- What one step of some call can do. -/
inductive Step (traffic next : Traffic) : Prop
  /-- A step that had the segment to itself, and may have prepared a merge. -/
  | offered {job : Option CompactionJob} (ticket : Option Ticket)
      (yields : traffic.segment.Yields job next.segment)
      (calls : next.calls = traffic.calls ++ job.toList.map (Call.merging ticket))
  /-- A snapshot was taken. -/
  | joined {call : Call} (reads : call.isMerge = false)
      (store : next.segment.store = traffic.segment.store)
      (readers : next.segment.activeReaders = traffic.segment.activeReaders + 1)
      (calls : next.calls = traffic.calls ++ [call])
  /-- A call that waits went on and waits again. -/
  | moved {slot : Nat} {call later : Call} (here : traffic.calls[slot]? = some call)
      (same : later.isMerge = call.isMerge) (placed : later.Placed traffic.segment.store)
      (segment : next.segment = traffic.segment) (calls : next.calls = traffic.calls.set slot later)
  /-- A call came to its end. -/
  | ended {slot : Nat} {call : Call} (here : traffic.calls[slot]? = some call)
      (calls : next.calls = traffic.calls.eraseIdx slot)
      (readers : next.segment.activeReaders = traffic.segment.activeReaders - 1)
      (numbered : next.segment.store.Numbered)
      (still : ∀ other ∈ next.calls, other ∈ traffic.calls → other.Placed next.segment.store)

theorem Step.refl (traffic : Traffic) : traffic.Step traffic :=
  .offered none (.none (PageStore.Adds.refl _) rfl) (List.append_nil _).symm

/-- A step that prepares a merge finds no reader. -/
theorem Step.alone {next : Traffic} (step : traffic.Step next) :
    next.merges ≤ traffic.merges ∨ traffic.segment.activeReaders = 0 := by
  cases step with
  | @offered job ticket yields calls =>
      cases job with
      | none =>
          rw [Option.toList_none, List.map_nil, List.append_nil] at calls
          exact Or.inl (Nat.le_of_eq (congrArg (List.countP Call.isMerge) calls))
      | some job => exact Or.inr (yields.alone rfl)
  | joined reads store readers calls =>
      rw [merges, calls, List.countP_append, List.countP_singleton, reads]
      exact Or.inl (Nat.le_refl _)
  | moved here same placed segment calls =>
      obtain ⟨front, back, split, set, -⟩ := exists_split here
      rw [merges_split (calls.trans (set _)), same, ← merges_split split]
      exact Or.inl (Nat.le_refl _)
  | ended here calls readers numbered still =>
      obtain ⟨front, back, split, -, erase⟩ := exists_split here
      rw [merges_split split, merges, calls, erase]
      exact Or.inl (Nat.le_add_right _ _)

namespace Balanced

theorem idle (balanced : traffic.Balanced) (none : traffic.segment.activeReaders = 0) :
    traffic.calls = [] := by
  rw [← List.length_eq_zero_iff, ← balanced.readers]
  exact none

/-- The count of readers stays in step. -/
theorem after (balanced : traffic.Balanced) {next : Traffic} (step : traffic.Step next) :
    next.Balanced := by
  cases step with
  | @offered job ticket yields calls =>
      refine ⟨yields.adds.numbered balanced.numbered, ?_, ?_, ?_⟩
      · rw [yields.readers, calls, balanced.readers, List.length_append]
        cases job <;> rfl
      · cases job with
        | none =>
            rw [Option.toList_none, List.map_nil, List.append_nil] at calls
            rw [merges, calls]
            exact balanced.single
        | some job =>
            rw [merges, calls, balanced.idle (yields.alone rfl)]
            exact Nat.le_refl 1
      · rw [calls]
        intro call mem
        rcases List.mem_append.mp mem with old | new
        · exact (balanced.placed call old).of_adds yields.adds
        · obtain ⟨prepared, isJob, rfl⟩ := List.mem_map.mp new
          exact yields.prepared prepared (Option.mem_toList.mp isJob)
  | joined reads store readers calls =>
      refine ⟨store ▸ balanced.numbered, ?_, ?_, ?_⟩
      · rw [readers, calls, balanced.readers, List.length_append, List.length_singleton]
      · rw [merges, calls, List.countP_append, List.countP_singleton, reads]
        exact balanced.single
      · rw [calls, store]
        intro call mem
        rcases List.mem_append.mp mem with old | new
        · exact balanced.placed call old
        · rw [List.mem_singleton.mp new]
          exact Call.placed_of_reading reads
  | @moved slot call later here same placed segment calls =>
      obtain ⟨front, back, split, set, -⟩ := exists_split here
      have calls : next.calls = front ++ later :: back := calls.trans (set later)
      refine ⟨segment ▸ balanced.numbered, ?_, ?_, fun other mem => ?_⟩
      · rw [calls, segment, balanced.readers, split, List.length_append, List.length_append,
          List.length_cons, List.length_cons]
      · rw [merges_split calls, same, ← merges_split split]
        exact balanced.single
      · have old := balanced.placed other
        rw [split] at old
        rw [calls] at mem
        rw [segment]
        rcases List.mem_append.mp mem with mem | mem
        · exact old (List.mem_append_left _ mem)
        · rcases List.mem_cons.mp mem with rfl | mem
          · exact placed
          · exact old (List.mem_append_right _ (List.mem_cons_of_mem _ mem))
  | ended here calls readers numbered still =>
      obtain ⟨front, back, split, -, erase⟩ := exists_split here
      have rest : next.calls = front ++ back := calls.trans erase
      refine ⟨numbered, ?_, ?_, fun other mem => still other mem ?_⟩
      · rw [readers, balanced.readers, split, rest]
        simp only [List.length_append, List.length_cons]
        omega
      · have single := balanced.single
        rw [merges_split split] at single
        rw [merges, rest]
        omega
      · rw [rest] at mem
        rw [split]
        rcases List.mem_append.mp mem with mem | mem
        · exact List.mem_append_left _ mem
        · exact List.mem_append_right _ (List.mem_cons_of_mem _ mem)

/-- Where one call is a merge, those that are left when it is settled are snapshots. -/
theorem reads (balanced : traffic.Balanced) {slot : Nat} {call : Call}
    (here : traffic.calls[slot]? = some call) (isMerge : call.isMerge = true) :
    ∀ other ∈ traffic.calls.eraseIdx slot, other.isMerge = false := by
  obtain ⟨front, back, split, -, erase⟩ := exists_split here
  have single := balanced.single
  rw [merges_split split, if_pos isMerge] at single
  rw [erase]
  intro other mem
  exact Bool.eq_false_iff.mpr (List.countP_eq_zero.mp (by omega) other mem)

section Steps

variable (balanced : traffic.Balanced) (home : Fingerprint → Nat) (before : Volume)
include balanced

theorem put_step (fp : Fingerprint) :
    traffic.Step (traffic.perform home (.put fp) before).1 := by
  have beginning := @beginPut_outcome traffic.segment (home fp) fp before
  rcases taken : beginPut (home fp) fp traffic.segment before with ⟨⟨result, last⟩, after⟩
  rw [taken] at beginning
  have yields := beginning.yields balanced.numbered
  rw [perform_put taken]
  rcases result with error | known | none | job
  · exact .offered none yields (List.append_nil _).symm
  · exact .offered none yields (List.append_nil _).symm
  · exact .offered none yields (List.append_nil _).symm
  · exact .offered _ yields rfl

theorem compact_step : traffic.Step (traffic.perform home .compact before).1 := by
  have compacting := @beginCompact_outcome traffic.segment before
  rcases taken : beginCompact traffic.segment before with ⟨⟨result, last⟩, after⟩
  rw [taken] at compacting
  have yields := compacting.yields balanced.numbered
  rw [perform_compact taken]
  rcases result with error | none | job
  · exact .offered none yields (List.append_nil _).symm
  · exact .offered none yields (List.append_nil _).symm
  · exact .offered _ yields rfl

omit balanced in
theorem snapshot_step : traffic.Step (traffic.perform home .snapshot before).1 := by
  have counts := @takeSnapshot_counts traffic.segment before
  rcases taken : takeSnapshot traffic.segment before with ⟨⟨result, last⟩, after⟩
  rw [taken] at counts
  rw [perform_snapshot taken]
  cases result with
  | error error =>
      have adds := PageStore.Adds.of_same (congrArg PageStore.ids counts.1)
        (Nat.le_of_eq (congrArg PageStore.nextId counts.1).symm)
      exact .offered none (.none adds counts.2) (List.append_nil _).symm
  | ok snapshot => exact .joined rfl counts.1 counts.2 rfl

theorem run_step {slot : Nat} {ticket : Option Ticket} {job : CompactionJob}
    (here : traffic.calls[slot]? = some (.merging ticket job)) :
    traffic.Step (traffic.perform home (.run slot) before).1 := by
  rcases ran : job.run before with ⟨outcome, after⟩
  rw [perform_run here ran]
  refine @Step.moved _ _ _ _ (.settling ticket outcome) here rfl ?_ rfl rfl
  cases outcome with
  | error error => trivial
  | ok merged =>
      obtain ⟨replaced, id⟩ := PageStore.run_numbers (congrArg Prod.fst ran)
      have placed := balanced.placed _ (List.mem_of_getElem? here)
      show traffic.segment.store.Replaceable merged.replaced merged.id
      rw [replaced, id]
      exact placed

theorem settle_step {slot : Nat} {ticket : Option Ticket} {outcome : Except Error MergedPage}
    (here : traffic.calls[slot]? = some (.settling ticket outcome)) :
    traffic.Step (traffic.perform home (.settle slot) before).1 := by
  have replaceable (merged : MergedPage) (same : outcome = .ok merged) :
      traffic.segment.store.Replaceable merged.replaced merged.id := by
    subst same
    exact balanced.placed _ (List.mem_of_getElem? here)
  have settling := @settle_outcome traffic.segment outcome before
  rcases taken : Segment.settle outcome traffic.segment before with ⟨⟨result, last⟩, after⟩
  rw [taken] at settling
  have counts := settling.counts balanced.numbered replaceable
  rw [perform_settle here taken]
  exact .ended here rfl counts.1 counts.2 fun other mem _ =>
    Call.placed_of_reading (balanced.reads here rfl other mem)

/-- Each step is of one of these kinds, whichever it is and whatever volume it is taken on. -/
theorem step (move : Move) : traffic.Step (traffic.perform home move before).1 := by
  have performed := performs home traffic before move
  generalize same : traffic.perform home move before = next at performed ⊢
  cases performed with
  | put => exact same ▸ balanced.put_step home before _
  | @contains fp result last after taken =>
      obtain ⟨store, rehandled, same⟩ := @contains_outcome traffic.segment (home fp) fp before
      rw [taken] at same
      subst same
      exact .offered none (.none rehandled.same.adds rfl) (List.append_nil _).symm
  | compact => exact same ▸ balanced.compact_step home before
  | snapshot => exact same ▸ snapshot_step home before
  | run here => exact same ▸ balanced.run_step home before here
  | settle here => exact same ▸ balanced.settle_step home before here
  | @pull slot taken pulls snapshot later pull after here pulled =>
      exact @Step.moved _ _ _ _ (.reading taken (pulls ++ [pull]) later) here rfl trivial rfl rfl
  | release here =>
      exact .ended here rfl rfl balanced.numbered fun other _ old => balanced.placed other old
  | idle => exact .refl traffic

end Steps

end Balanced

end Traffic

/-! ## Reachable states -/

/-- A segment of given dimensions and the calls on it, as they can be found between two steps.
Every step is taken on a volume of its own: whatever the volume refuses, and whatever other work
made of it since the step before. -/
inductive Reached (index : Nat) (plan : Plan) (storage : StorageSettings) (overflow : Path) :
    Traffic → Prop
  | created {segment : Segment} {before after : Volume}
      (result : create index plan storage overflow before = (.ok segment, after)) :
      Reached index plan storage overflow { segment }
  | performed {traffic : Traffic} (reached : Reached index plan storage overflow traffic)
      (home : Fingerprint → Nat) (move : Move) (before : Volume) :
      Reached index plan storage overflow (traffic.perform home move before).1

section

variable {index : Nat} {plan : Plan} {storage : StorageSettings} {overflow : Path}

/-- What a schedule leads to can be reached. -/
theorem Reached.run (reached : Reached index plan storage overflow traffic)
    (home : Fingerprint → Nat) (moves : List Move) (before : Volume) :
    Reached index plan storage overflow (Traffic.run home moves traffic before).1 := by
  induction moves generalizing traffic before with
  | nil => exact reached
  | cons move moves ih => exact ih (reached.performed home move before) _

theorem create_empty {before after : Volume}
    (result : create index plan storage overflow before = (.ok segment, after)) :
    segment.store.pages = [] ∧ segment.activeReaders = 0 := by
  rw [create, Storage.bind_apply] at result
  split at result
  · rename_i store middle made
    obtain ⟨same, -⟩ := Prod.mk.inj result
    obtain rfl := Except.ok.inj same
    refine ⟨?_, rfl⟩
    rw [PageStore.create, Storage.bind_apply] at made
    split at made
    · split at made
      · exact absurd (congrArg Prod.fst made) nofun
      · split at made
        · exact absurd (congrArg Prod.fst made) nofun
        · obtain ⟨same, -⟩ := Prod.mk.inj made
          obtain rfl := Except.ok.inj same
          rfl
    · exact absurd (congrArg Prod.fst made) nofun
  · exact absurd (congrArg Prod.fst result) nofun

theorem Reached.balanced (reached : Reached index plan storage overflow traffic) :
    traffic.Balanced := by
  induction reached with
  | created result =>
      obtain ⟨pages, idle⟩ := create_empty result
      refine ⟨⟨?_, ?_⟩, idle, Nat.zero_le 1, fun _ none => absurd none List.not_mem_nil⟩ <;>
        rw [PageStore.ids, pages]
      · exact List.nodup_nil
      · exact fun _ none => absurd none List.not_mem_nil
  | performed reached home move before balanced =>
      exact balanced.after (balanced.step home before move)

/-- In every state that can be reached: the count of readers is that of the snapshots held and
of the merges not settled, so there is one to take off for every call that ends, and none when
all have ended, which they can.  At most one merge is not settled, one is prepared only where
nothing reads, and when one is settled all the pages it replaces are there. -/
theorem readers_in_step (reached : Reached index plan storage overflow traffic) :
    traffic.segment.activeReaders = traffic.snapshots + traffic.merges ∧
      (∀ call ∈ traffic.calls, 0 < traffic.segment.activeReaders) ∧
      (traffic.calls = [] → traffic.segment.activeReaders = 0) ∧
      (∀ home before, ∃ moves,
        let last := (Traffic.run home moves traffic before).1
        last.calls = [] ∧ last.segment.activeReaders = 0) ∧
      traffic.merges ≤ 1 ∧
      (∀ home move before,
        traffic.merges < (traffic.perform home move before).1.merges →
          traffic.snapshots = 0 ∧ traffic.merges = 0) ∧
      ∀ (slot : Nat) ticket merged, traffic.calls[slot]? = some (.settling ticket (.ok merged)) →
        (∀ id ∈ merged.replaced, id ∈ traffic.segment.store.ids) ∧
          (traffic.segment.store.replacedBy merged).length = merged.replaced.length := by
  have balanced := reached.balanced
  have count := balanced.readers.trans traffic.snapshots_add_merges.symm
  refine ⟨count, ?_, ?_, ?_, balanced.single, ?_, ?_⟩
  · intro call mem
    rw [balanced.readers]
    exact List.length_pos_of_mem mem
  · intro none
    rw [balanced.readers, none, List.length_nil]
  · intro home before
    obtain ⟨moves, none⟩ := Traffic.run_empties home traffic before
    refine ⟨moves, none, ?_⟩
    rw [(reached.run home moves before).balanced.readers, none, List.length_nil]
  · intro home move before more
    rcases (balanced.step home before move).alone with fewer | none
    · exact absurd more (Nat.not_lt.mpr fewer)
    · rw [count] at none
      exact Nat.add_eq_zero_iff.mp none
  · intro slot ticket merged here
    have replaceable : traffic.segment.store.Replaceable merged.replaced merged.id :=
      balanced.placed (.settling ticket (.ok merged)) (List.mem_of_getElem? here)
    exact ⟨replaceable.live,
      (PageStore.all_found_iff balanced.numbered.distinct replaceable.distinct).mpr
        replaceable.live⟩

end

/-- What schedules lead to on a site can be reached. -/
theorem Site.reached (site : Site) (created : site.create.1.isOk = true) (moves : List Move) :
    Reached site.index site.plan site.storage site.overflow (site.after moves).1 := by
  refine Reached.run ?_ site.home moves _
  rw [Site.begun]
  split
  · rename_i result
    exact .created result
  · rename_i result
    rw [result] at created
    contradiction

/-- The third put leaves a merge, a snapshot is taken while it waits, and writing the merged
page fails. -/
theorem readers_in_step_failing :
    let site := Site.small fun tick => if tick = 22 then some .inputOutput else none
    let traffic := (site.after [.put 1, .put 2, .put 3, .snapshot, .run 0]).1
    site.create.1.isOk = true ∧ (traffic.snapshots = 1 ∧ traffic.merges = 1) ∧
      traffic.segment.activeReaders = traffic.snapshots + traffic.merges := by
  intro site traffic
  have created : site.create.1.isOk = true := by decide +kernel
  have waiting : traffic.snapshots = 1 ∧ traffic.merges = 1 := by decide +kernel
  have reached : Reached site.index site.plan site.storage site.overflow traffic :=
    site.reached created _
  clear_value traffic
  exact ⟨created, waiting, (readers_in_step reached).1⟩

end Segment

end FingerprintSet
