import FingerprintSet.Proofs.Segment.Held
import FingerprintSet.Proofs.Segment.Whole

/-!
# Calls on a segment that come between one another

Any number of threads put, test, merge and read one segment.  A call is made of the steps that
have the segment to themselves and of the file work between them, and the steps of different
calls come in any order.  A schedule is the list of these steps; it says at each place which
call goes on.  A call between two of its steps waits in a slot.

What is true after any schedule follows from one invariant.  A merge is prepared only while no
other call waits, so there is never more than one, and the pages it replaces are there until it
is settled.  A snapshot reads files that are open, and nothing writes into these.
-/

namespace FingerprintSet

open Storage Volume SortedFile

namespace Segment

/-- The question of a put or a membership test. -/
structure Ticket where
  /-- Puts that had taken their step before. -/
  turn : Nat
  fp : Fingerprint
  deriving DecidableEq, Repr, Inhabited

/-- A call between two of its steps. -/
inductive Call
  /-- A merge was prepared and not run.  A put waits for it, or else a call to merge all. -/
  | merging (ticket : Option Ticket) (job : CompactionJob)
  /-- A merge was run and not settled. -/
  | settling (ticket : Option Ticket) (outcome : Except Error MergedPage)
  /-- A snapshot of what the segment held, with what was pulled from it so far. -/
  | reading (taken : List Fingerprint) (pulls : List Pull) (snapshot : Merge)
  deriving Inhabited

/-- What a call came to. -/
inductive Answer
  | put (ticket : Ticket) (result : Except Error Bool)
  | contains (ticket : Ticket) (result : Except Error Bool)
  | compact (result : Except Error Unit)
  /-- No snapshot was taken. -/
  | snapshot (error : Error)
  deriving Inhabited

/-- A segment and the calls on it. -/
structure Traffic where
  segment : Segment
  /-- The fingerprints of all puts that have taken their step, in this order. -/
  turns : List Fingerprint := []
  calls : List Call := []
  answers : List Answer := []
  deriving Inhabited

/-- One step of some call.  The first four begin a call. -/
inductive Move
  | put (fp : Fingerprint)
  | contains (fp : Fingerprint)
  | compact
  | snapshot
  /-- Run a merge. -/
  | run (slot : Nat)
  /-- Settle a merge that was run. -/
  | settle (slot : Nat)
  /-- Pull once from a snapshot. -/
  | pull (slot : Nat)
  /-- Let go of a snapshot. -/
  | release (slot : Nat)
  deriving DecidableEq, Repr, Inhabited

/-- What a call that waited for a merge comes to when the merge is settled. -/
def Answer.ofMerge (result : Except Error Unit) : Option Ticket → Answer
  | some ticket => .put ticket (result.map fun _ => false)
  | none => .compact result

namespace Traffic

/-- What a put or test that begins now asks. -/
def ticket (traffic : Traffic) (fp : Fingerprint) : Ticket where
  turn := traffic.turns.length
  fp := fp

/-- A call has come to something. -/
def reply (traffic : Traffic) (answer : Answer) : Traffic :=
  { traffic with answers := traffic.answers ++ [answer] }

/-- A call waits between two of its steps. -/
def hold (traffic : Traffic) (call : Call) : Traffic :=
  { traffic with calls := traffic.calls ++ [call] }

/-- A put has taken its step. -/
def putBegun (traffic : Traffic) (fp : Fingerprint) (segment : Segment)
    (result : Except Error PutStep) : Traffic :=
  let begun := { traffic with segment, turns := traffic.turns ++ [fp] }
  match result with
  | .error error => begun.reply (.put (traffic.ticket fp) (.error error))
  | .ok .known => begun.reply (.put (traffic.ticket fp) (.ok true))
  | .ok (.added none) => begun.reply (.put (traffic.ticket fp) (.ok false))
  | .ok (.added (some job)) => begun.hold (.merging (some (traffic.ticket fp)) job)

/-- A membership test has taken its step. -/
def tested (traffic : Traffic) (fp : Fingerprint) (segment : Segment)
    (result : Except Error Bool) : Traffic :=
  { traffic with segment }.reply (.contains (traffic.ticket fp) result)

/-- A full merge was asked for. -/
def compactBegun (traffic : Traffic) (segment : Segment)
    (result : Except Error (Option CompactionJob)) : Traffic :=
  let begun := { traffic with segment }
  match result with
  | .error error => begun.reply (.compact (.error error))
  | .ok none => begun.reply (.compact (.ok ()))
  | .ok (some job) => begun.hold (.merging none job)

/-- A snapshot was asked for when the segment held `taken`. -/
def snapshotBegun (traffic : Traffic) (taken : List Fingerprint) (segment : Segment)
    (result : Except Error Merge) : Traffic :=
  let begun := { traffic with segment }
  match result with
  | .error error => begun.reply (.snapshot error)
  | .ok snapshot => begun.hold (.reading taken [] snapshot)

/-- A merge is settled, and who waited for it gets an answer. -/
def settled (traffic : Traffic) (slot : Nat) (ticket : Option Ticket) (segment : Segment)
    (result : Except Error Unit) : Traffic :=
  { traffic with segment, calls := traffic.calls.eraseIdx slot }.reply (.ofMerge result ticket)

/-- A call has taken a step and waits on. -/
def goesOn (traffic : Traffic) (slot : Nat) (call : Call) : Traffic :=
  { traffic with calls := traffic.calls.set slot call }

/-- A snapshot is let go of. -/
def released (traffic : Traffic) (slot : Nat) : Traffic :=
  { traffic with segment := traffic.segment.dropReader, calls := traffic.calls.eraseIdx slot }

/-- Take one step.  A step that the call in its slot cannot take changes nothing. -/
def perform (home : Fingerprint → Nat) (traffic : Traffic) : Move → StateM Volume Traffic
  | .put fp => do
      let (result, segment) ← (beginPut (home fp) fp traffic.segment : StateM Volume _)
      pure (traffic.putBegun fp segment result)
  | .contains fp => do
      let (result, segment) ← (Segment.contains (home fp) fp traffic.segment : StateM Volume _)
      pure (traffic.tested fp segment result)
  | .compact => do
      let (result, segment) ← (beginCompact traffic.segment : StateM Volume _)
      pure (traffic.compactBegun segment result)
  | .snapshot => do
      let taken := sorted (traffic.segment.held (← get))
      let (result, segment) ← (takeSnapshot traffic.segment : StateM Volume _)
      pure (traffic.snapshotBegun taken segment result)
  | .run slot => do
      match traffic.calls[slot]? with
      | some (.merging ticket job) =>
          let outcome ← (job.run : StateM Volume _)
          pure (traffic.goesOn slot (.settling ticket outcome))
      | _ => pure traffic
  | .settle slot => do
      match traffic.calls[slot]? with
      | some (.settling ticket outcome) =>
          let (result, segment) ← (Segment.settle outcome traffic.segment : StateM Volume _)
          pure (traffic.settled slot ticket segment result)
      | _ => pure traffic
  | .pull slot => do
      match traffic.calls[slot]? with
      | some (.reading taken pulls snapshot) =>
          let (snapshot, pull) ← snapshot.next
          pure (traffic.goesOn slot (.reading taken (pulls ++ [pull]) snapshot))
      | _ => pure traffic
  | .release slot =>
      match traffic.calls[slot]? with
      | some (.reading ..) => pure (traffic.released slot)
      | _ => pure traffic

/-- Take the steps of a schedule. -/
def run (home : Fingerprint → Nat) : List Move → Traffic → StateM Volume Traffic
  | [], traffic => pure traffic
  | move :: moves, traffic => do run home moves (← traffic.perform home move)

theorem run_cons (home : Fingerprint → Nat) (move : Move) (moves : List Move)
    (traffic : Traffic) (before : Volume) :
    run home (move :: moves) traffic before =
      run home moves (traffic.perform home move before).1 (traffic.perform home move before).2 :=
  rfl

theorem run_append (home : Fingerprint → Nat) (first second : List Move) (traffic : Traffic)
    (before : Volume) :
    run home (first ++ second) traffic before =
      run home second (run home first traffic before).1 (run home first traffic before).2 := by
  induction first generalizing traffic before with
  | nil => rfl
  | cons move first ih => rw [List.cons_append, run_cons, run_cons, ih]

theorem perform_put {home : Fingerprint → Nat} {traffic : Traffic} {fp : Fingerprint}
    {before after : Volume} {result : Except Error PutStep} {last : Segment}
    (taken : beginPut (home fp) fp traffic.segment before = ((result, last), after)) :
    traffic.perform home (.put fp) before = (traffic.putBegun fp last result, after) := by
  have unfolded : traffic.perform home (.put fp) before =
      (traffic.putBegun fp (beginPut (home fp) fp traffic.segment before).1.2
        (beginPut (home fp) fp traffic.segment before).1.1,
        (beginPut (home fp) fp traffic.segment before).2) := rfl
  rw [unfolded, taken]

theorem perform_contains {home : Fingerprint → Nat} {traffic : Traffic} {fp : Fingerprint}
    {before after : Volume} {result : Except Error Bool} {last : Segment}
    (taken : Segment.contains (home fp) fp traffic.segment before = ((result, last), after)) :
    traffic.perform home (.contains fp) before = (traffic.tested fp last result, after) := by
  have unfolded : traffic.perform home (.contains fp) before =
      (traffic.tested fp (Segment.contains (home fp) fp traffic.segment before).1.2
        (Segment.contains (home fp) fp traffic.segment before).1.1,
        (Segment.contains (home fp) fp traffic.segment before).2) := rfl
  rw [unfolded, taken]

theorem perform_compact {home : Fingerprint → Nat} {traffic : Traffic} {before after : Volume}
    {result : Except Error (Option CompactionJob)} {last : Segment}
    (taken : beginCompact traffic.segment before = ((result, last), after)) :
    traffic.perform home .compact before = (traffic.compactBegun last result, after) := by
  have unfolded : traffic.perform home .compact before =
      (traffic.compactBegun (beginCompact traffic.segment before).1.2
        (beginCompact traffic.segment before).1.1,
        (beginCompact traffic.segment before).2) := rfl
  rw [unfolded, taken]

theorem perform_snapshot {home : Fingerprint → Nat} {traffic : Traffic} {before after : Volume}
    {result : Except Error Merge} {last : Segment}
    (taken : takeSnapshot traffic.segment before = ((result, last), after)) :
    traffic.perform home .snapshot before =
      (traffic.snapshotBegun (sorted (traffic.segment.held before)) last result, after) := by
  have unfolded : traffic.perform home .snapshot before =
      (traffic.snapshotBegun (sorted (traffic.segment.held before))
        (takeSnapshot traffic.segment before).1.2 (takeSnapshot traffic.segment before).1.1,
        (takeSnapshot traffic.segment before).2) := rfl
  rw [unfolded, taken]

theorem perform_settle {home : Fingerprint → Nat} {traffic : Traffic} {slot : Nat}
    {ticket : Option Ticket} {outcome : Except Error MergedPage} {before after : Volume}
    {result : Except Error Unit} {last : Segment}
    (here : traffic.calls[slot]? = some (.settling ticket outcome))
    (taken : Segment.settle outcome traffic.segment before = ((result, last), after)) :
    traffic.perform home (.settle slot) before =
      (traffic.settled slot ticket last result, after) := by
  have unfolded : traffic.perform home (.settle slot) before =
      (traffic.settled slot ticket (Segment.settle outcome traffic.segment before).1.2
        (Segment.settle outcome traffic.segment before).1.1,
        (Segment.settle outcome traffic.segment before).2) := by
    rw [perform, here]
    rfl
  rw [unfolded, taken]

theorem perform_run {home : Fingerprint → Nat} {traffic : Traffic} {slot : Nat}
    {ticket : Option Ticket} {job : CompactionJob} {before after : Volume}
    {outcome : Except Error MergedPage}
    (here : traffic.calls[slot]? = some (.merging ticket job))
    (ran : job.run before = (outcome, after)) :
    traffic.perform home (.run slot) before =
      (traffic.goesOn slot (.settling ticket outcome), after) := by
  have unfolded : traffic.perform home (.run slot) before =
      (traffic.goesOn slot (.settling ticket (job.run before).1), (job.run before).2) := by
    rw [perform, here]
    rfl
  rw [unfolded, ran]

theorem perform_pull {home : Fingerprint → Nat} {traffic : Traffic} {slot : Nat}
    {taken : List Fingerprint} {pulls : List Pull} {snapshot later : Merge} {pull : Pull}
    {before after : Volume} (here : traffic.calls[slot]? = some (.reading taken pulls snapshot))
    (pulled : snapshot.next before = ((later, pull), after)) :
    traffic.perform home (.pull slot) before =
      (traffic.goesOn slot (.reading taken (pulls ++ [pull]) later), after) := by
  have unfolded : traffic.perform home (.pull slot) before =
      (traffic.goesOn slot (.reading taken (pulls ++ [(snapshot.next before).1.2])
        (snapshot.next before).1.1), (snapshot.next before).2) := by
    rw [perform, here]
    rfl
  rw [unfolded, pulled]

theorem perform_release {home : Fingerprint → Nat} {traffic : Traffic} {slot : Nat}
    {taken : List Fingerprint} {pulls : List Pull} {snapshot : Merge} (before : Volume)
    (here : traffic.calls[slot]? = some (.reading taken pulls snapshot)) :
    traffic.perform home (.release slot) before = (traffic.released slot, before) := by
  rw [perform, here]
  rfl

end Traffic

/-- The slot of the call that takes the step, where one has to be there. -/
def Move.slot? : Move → Option Nat
  | .run slot | .settle slot | .pull slot | .release slot => some slot
  | .put _ | .contains _ | .compact | .snapshot => none

namespace Traffic

/-- All that a step can come to, and what it takes for it. -/
inductive Performs (home : Fingerprint → Nat) (traffic : Traffic) (before : Volume) :
    Move → Traffic × Volume → Prop
  | put {fp : Fingerprint} {result : Except Error PutStep} {last : Segment} {after : Volume}
      (taken : beginPut (home fp) fp traffic.segment before = ((result, last), after)) :
      Performs home traffic before (.put fp) (traffic.putBegun fp last result, after)
  | contains {fp : Fingerprint} {result : Except Error Bool} {last : Segment} {after : Volume}
      (taken : Segment.contains (home fp) fp traffic.segment before = ((result, last), after)) :
      Performs home traffic before (.contains fp) (traffic.tested fp last result, after)
  | compact {result : Except Error (Option CompactionJob)} {last : Segment} {after : Volume}
      (taken : beginCompact traffic.segment before = ((result, last), after)) :
      Performs home traffic before .compact (traffic.compactBegun last result, after)
  | snapshot {result : Except Error Merge} {last : Segment} {after : Volume}
      (taken : takeSnapshot traffic.segment before = ((result, last), after)) :
      Performs home traffic before .snapshot
        (traffic.snapshotBegun (sorted (traffic.segment.held before)) last result, after)
  | run {slot : Nat} {ticket : Option Ticket} {job : CompactionJob}
      {outcome : Except Error MergedPage} {after : Volume}
      (here : traffic.calls[slot]? = some (.merging ticket job))
      (ran : job.run before = (outcome, after)) :
      Performs home traffic before (.run slot)
        (traffic.goesOn slot (.settling ticket outcome), after)
  | settle {slot : Nat} {ticket : Option Ticket} {outcome : Except Error MergedPage}
      {result : Except Error Unit} {last : Segment} {after : Volume}
      (here : traffic.calls[slot]? = some (.settling ticket outcome))
      (taken : Segment.settle outcome traffic.segment before = ((result, last), after)) :
      Performs home traffic before (.settle slot) (traffic.settled slot ticket last result, after)
  | pull {slot : Nat} {taken : List Fingerprint} {pulls : List Pull} {snapshot later : Merge}
      {pull : Pull} {after : Volume}
      (here : traffic.calls[slot]? = some (.reading taken pulls snapshot))
      (pulled : snapshot.next before = ((later, pull), after)) :
      Performs home traffic before (.pull slot)
        (traffic.goesOn slot (.reading taken (pulls ++ [pull]) later), after)
  | release {slot : Nat} {taken : List Fingerprint} {pulls : List Pull} {snapshot : Merge}
      (here : traffic.calls[slot]? = some (.reading taken pulls snapshot)) :
      Performs home traffic before (.release slot) (traffic.released slot, before)
  /-- No call that can take the step is in the slot. -/
  | idle {move : Move} {slot : Nat} (slotted : move.slot? = some slot) :
      Performs home traffic before move (traffic, before)

theorem performs (home : Fingerprint → Nat) (traffic : Traffic) (before : Volume) (move : Move) :
    Performs home traffic before move (traffic.perform home move before) := by
  have idle {slot : Nat} (slotted : move.slot? = some slot)
      (none : traffic.perform home move before = (traffic, before)) :
      Performs home traffic before move (traffic.perform home move before) :=
    none ▸ .idle slotted
  cases move with
  | put fp => exact .put rfl
  | contains fp => exact .contains rfl
  | compact => exact .compact rfl
  | snapshot => exact .snapshot rfl
  | run slot =>
      rcases here : traffic.calls[slot]? with _ | ⟨ticket, job⟩ | _ | _
      · exact idle rfl (by rw [perform, here]; rfl)
      · exact perform_run here rfl ▸ .run here rfl
      · exact idle rfl (by rw [perform, here]; rfl)
      · exact idle rfl (by rw [perform, here]; rfl)
  | settle slot =>
      rcases here : traffic.calls[slot]? with _ | _ | ⟨ticket, outcome⟩ | _
      · exact idle rfl (by rw [perform, here]; rfl)
      · exact idle rfl (by rw [perform, here]; rfl)
      · exact perform_settle here rfl ▸ .settle here rfl
      · exact idle rfl (by rw [perform, here]; rfl)
  | pull slot =>
      rcases here : traffic.calls[slot]? with _ | _ | _ | ⟨taken, pulls, snapshot⟩
      · exact idle rfl (by rw [perform, here]; rfl)
      · exact idle rfl (by rw [perform, here]; rfl)
      · exact idle rfl (by rw [perform, here]; rfl)
      · exact perform_pull here rfl ▸ .pull here rfl
  | release slot =>
      rcases here : traffic.calls[slot]? with _ | _ | _ | ⟨taken, pulls, snapshot⟩
      · exact idle rfl (by rw [perform, here]; rfl)
      · exact idle rfl (by rw [perform, here]; rfl)
      · exact idle rfl (by rw [perform, here]; rfl)
      · exact perform_release before here ▸ .release here

/-! ## What is known between steps -/

end Traffic

/-- Whether a call is a merge that is not settled. -/
def Call.isMerge : Call → Bool
  | .merging .. | .settling .. => true
  | .reading .. => false

/-- What the next pull from a stream of some fingerprints gives after so many. -/
def pullAt (taken : List Fingerprint) (place : Nat) : Pull :=
  match taken[place]? with
  | some fp => .value fp
  | none => .ended

/-- What is known of a call that waits. -/
def Call.Sound (start volume : Volume) (entries : PageId → List Fingerprint) (segment : Segment) :
    Call → Prop
  | .merging _ job =>
      job.Prepared volume (IsPage volume) entries segment.store ∧
        (∀ id ∈ job.replaced, id ∈ segment.store.ids) ∧ 2 ≤ job.replaced.length
  | .settling _ (.ok merged) =>
      merged.Ready volume entries segment.store ∧
        (∀ id ∈ merged.replaced, id ∈ segment.store.ids) ∧ 2 ≤ merged.replaced.length
  | .settling _ (.error _) => ¬start.Quiet
  | .reading taken pulls snapshot => start.Quiet →
      Ascending taken ∧ pulls = (List.range pulls.length).map (pullAt taken) ∧
        snapshot.Streams volume (IsPage volume) (taken.drop pulls.length)

namespace Traffic

/-- Merges that are not settled. -/
def merges (traffic : Traffic) : Nat :=
  traffic.calls.countP Call.isMerge

/-- What is known of a segment and the calls on it since a volume on which the schedule of
refusals may have been quiet. -/
structure Sound (homes : Homes) (start volume : Volume) (entries : PageId → List Fingerprint)
    (traffic : Traffic) : Prop where
  tree : volume.Sound
  quiet : start.Quiet → volume.Quiet
  segment : traffic.segment.Sound homes volume entries
  readers : traffic.segment.activeReaders = traffic.calls.length
  calls : ∀ call ∈ traffic.calls, call.Sound start volume entries traffic.segment
  single : traffic.merges ≤ 1
  room : start.Quiet → traffic.segment.Room entries traffic.merges

end Traffic

section

variable {start before after : Volume} {entries others : PageId → List Fingerprint}
  {segment last : Segment} {paths : Path → Prop} {files : FileId → Prop} {call : Call}

/-- A call that waits is not disturbed by a step that only adds pages. -/
theorem Call.Sound.of_changes (sound : call.Sound start before entries segment)
    (volumeSound : before.Sound) (grows : segment.store.Extends entries others last.store)
    (changes : Changes paths files before after) (pages : ∀ id, files id → ¬IsPage before id)
    (outside : ∀ id, id < segment.store.nextId → ¬paths (segment.store.pagePath id)) :
    call.Sound start after others last := by
  cases call with
  | merging ticket job =>
      obtain ⟨prepared, live, several⟩ := sound
      have apart : ¬paths job.target := prepared.target ▸ outside _ prepared.numbered
      have absent := grows.not_mem prepared.numbered prepared.absent
      exact ⟨prepared.paged grows.toContinues absent changes pages apart,
        fun id mem => grows.mem (live id mem), several⟩
  | settling ticket outcome =>
      cases outcome with
      | ok merged =>
          obtain ⟨ready, live, several⟩ := sound
          have apart : ¬paths merged.written.path := ready.path ▸ outside _ ready.numbered
          have absent := grows.not_mem ready.numbered ready.absent
          exact ⟨ready.of_changes volumeSound grows.toContinues absent changes pages apart,
            fun id mem => grows.mem (live id mem), several⟩
      | error error => exact sound
  | reading taken pulls snapshot =>
      intro quiet
      obtain ⟨ascending, pulled, streams⟩ := sound quiet
      exact ⟨ascending, pulled, streams.paged changes pages⟩

/-- A snapshot is not disturbed by any step. -/
theorem Call.Sound.of_reading (sound : call.Sound start before entries segment)
    (reads : call.isMerge = false) (changes : Changes paths NoFile before after) :
    call.Sound start after others last := by
  cases call with
  | merging => contradiction
  | settling => contradiction
  | reading taken pulls snapshot =>
      intro quiet
      obtain ⟨ascending, pulled, streams⟩ := sound quiet
      exact ⟨ascending, pulled, streams.paged changes fun _ none => none.elim⟩

end

namespace Traffic

variable {homes : Homes} {start before after : Volume} {entries others : PageId → List Fingerprint}
  {traffic next : Traffic} {paths : Path → Prop}

/-- The calls that wait go on waiting while a step adds pages and maybe a call. -/
theorem Sound.begun {gained : List Fingerprint} {more : List Call}
    (sound : traffic.Sound homes start before entries) (changes : Changes paths NoFile before after)
    (outside : ∀ id, id < traffic.segment.store.nextId →
      ¬paths (traffic.segment.store.pagePath id))
    (moves : Moves homes after entries traffic.segment gained others next.segment)
    (calls : next.calls = traffic.calls ++ more)
    (each : ∀ call ∈ more, call.Sound start after others next.segment)
    (readers : next.segment.activeReaders = traffic.segment.activeReaders + more.length)
    (single : next.merges ≤ 1) (room : start.Quiet → next.segment.Room others next.merges) :
    next.Sound homes start after others where
  tree := changes.sound sound.tree
  quiet quiet := changes.quiet (sound.quiet quiet)
  segment := moves.sound
  readers := by rw [readers, sound.readers, calls, List.length_append]
  calls := by
    rw [calls]
    intro call mem
    rcases List.mem_append.mp mem with old | new
    · exact (sound.calls call old).of_changes sound.tree moves.grows changes
        (fun _ none => none.elim) outside
    · exact each call new
  single := single
  room := room

/-- Where one call is a merge, the others are not. -/
theorem Sound.reads {front back : List Call} {call : Call}
    (sound : traffic.Sound homes start before entries)
    (split : traffic.calls = front ++ call :: back) (isMerge : call.isMerge = true) :
    ∀ other ∈ front ++ back, other.isMerge = false := by
  have single := sound.single
  rw [merges, split, List.countP_append, List.countP_cons, if_pos isMerge] at single
  have none : (front ++ back).countP Call.isMerge = 0 := by
    rw [List.countP_append]
    omega
  intro other mem
  exact Bool.eq_false_iff.mpr (List.countP_eq_zero.mp none other mem)

theorem merges_split {front back : List Call} {call : Call}
    (split : traffic.calls = front ++ call :: back) :
    traffic.merges = (front ++ back).countP Call.isMerge + if call.isMerge then 1 else 0 := by
  rw [merges, split, List.countP_append, List.countP_cons, List.countP_append, Nat.add_assoc]

/-- What one call does in its slot is done when the other calls can go on waiting. -/
theorem Sound.stepped {front back more : List Call} {call : Call}
    (sound : traffic.Sound homes start before entries) (changes : Changes paths NoFile before after)
    (split : traffic.calls = front ++ call :: back)
    (segment : next.segment.Sound homes after others)
    (calls : next.calls = front ++ (more ++ back))
    (still : ∀ other ∈ front ++ back, other.Sound start before entries traffic.segment →
      other.Sound start after others next.segment)
    (each : ∀ other ∈ more, other.Sound start after others next.segment)
    (readers : next.segment.activeReaders + 1 = traffic.segment.activeReaders + more.length)
    (single : (front ++ back).countP Call.isMerge + more.countP Call.isMerge ≤ 1)
    (room : start.Quiet → next.segment.Room others
      ((front ++ back).countP Call.isMerge + more.countP Call.isMerge)) :
    next.Sound homes start after others := by
  have merges : next.merges = (front ++ back).countP Call.isMerge + more.countP Call.isMerge := by
    rw [Traffic.merges, calls, List.countP_append, List.countP_append, List.countP_append]
    omega
  have old (other : Call) (mem : other ∈ front ++ back) :
      other.Sound start after others next.segment := by
    apply still other mem (sound.calls other _)
    rw [split]
    rcases List.mem_append.mp mem with mem | mem
    · exact List.mem_append_left _ mem
    · exact List.mem_append_right _ (List.mem_cons_of_mem _ mem)
  exact
    { tree := changes.sound sound.tree
      quiet := fun quiet => changes.quiet (sound.quiet quiet)
      segment := segment
      readers := by
        have length := sound.readers
        rw [split, List.length_append, List.length_cons] at length
        rw [calls, List.length_append, List.length_append]
        omega
      calls := by
        rw [calls]
        intro other mem
        rcases List.mem_append.mp mem with mem | mem
        · exact old other (List.mem_append_left _ mem)
        · rcases List.mem_append.mp mem with mem | mem
          · exact each other mem
          · exact old other (List.mem_append_right _ mem)
      single := merges ▸ single
      room := merges ▸ room }

end Traffic

/-! ## What the answers are -/

/-- Whether the ticket is that of a put which has taken its step. -/
def Ticket.Taken (turns : List Fingerprint) (ticket : Ticket) : Prop :=
  turns[ticket.turn]? = some ticket.fp

/-- Whether a put of the same fingerprint took its step before. -/
def Ticket.known (turns : List Fingerprint) (ticket : Ticket) : Bool :=
  decide (ticket.fp ∈ turns.take ticket.turn)

/-- Puts and tests tell whether a put of the same fingerprint came before; nothing fails. -/
def Answer.Right (turns : List Fingerprint) : Answer → Prop
  | .put ticket result => ticket.Taken turns ∧ result = .ok (ticket.known turns)
  | .contains ticket result => ticket.turn ≤ turns.length ∧ result = .ok (ticket.known turns)
  | .compact result => result = .ok ()
  | .snapshot _ => False

/-- The put that a call belongs to. -/
def Call.asker : Call → Option Ticket
  | .merging ticket _ | .settling ticket _ => ticket
  | .reading .. => none

/-- A put that waits for a merge took in its fingerprint. -/
def Call.Right (turns : List Fingerprint) (call : Call) : Prop :=
  ∀ ticket, call.asker = some ticket → ticket.Taken turns ∧ ticket.known turns = false

theorem Ticket.Taken.turn_lt {turns : List Fingerprint} {ticket : Ticket}
    (taken : ticket.Taken turns) : ticket.turn < turns.length :=
  (List.getElem?_eq_some_iff.mp taken).1

theorem Ticket.Taken.append {turns : List Fingerprint} {ticket : Ticket}
    (taken : ticket.Taken turns) (more : List Fingerprint) : ticket.Taken (turns ++ more) := by
  rw [Taken, List.getElem?_append_left taken.turn_lt]
  exact taken

theorem Ticket.known_append {turns : List Fingerprint} {ticket : Ticket}
    (before : ticket.turn ≤ turns.length) (more : List Fingerprint) :
    ticket.known (turns ++ more) = ticket.known turns := by
  rw [known, known, List.take_append_of_le_length before]

/-- Later puts change no answer. -/
theorem Answer.Right.append {turns : List Fingerprint} {answer : Answer}
    (right : answer.Right turns) (more : List Fingerprint) : answer.Right (turns ++ more) := by
  cases answer with
  | put ticket result =>
      obtain ⟨taken, result⟩ := right
      exact ⟨taken.append more, by rw [result, Ticket.known_append (Nat.le_of_lt taken.turn_lt)]⟩
  | contains ticket result =>
      obtain ⟨before, result⟩ := right
      rw [Right, List.length_append, Ticket.known_append before]
      exact ⟨Nat.le_add_right_of_le before, result⟩
  | compact result => exact right
  | snapshot error => exact right

theorem Call.Right.append {turns : List Fingerprint} {call : Call} (right : call.Right turns)
    (more : List Fingerprint) : call.Right (turns ++ more) := by
  intro ticket asks
  obtain ⟨taken, new⟩ := right ticket asks
  exact ⟨taken.append more, by rw [Ticket.known_append (Nat.le_of_lt taken.turn_lt), new]⟩

namespace Traffic

/-- A put was answered or waits for a merge. -/
def Accounts (traffic : Traffic) (ticket : Ticket) : Prop :=
  (∃ result, .put ticket result ∈ traffic.answers) ∨
    ∃ call ∈ traffic.calls, call.asker = some ticket

/-- The segment holds what was put, every answer was right and no put is forgotten. -/
structure Told (entries : PageId → List Fingerprint) (traffic : Traffic) : Prop where
  held : ∀ fp, fp ∈ traffic.segment.all entries ↔ fp ∈ traffic.turns
  answers : ∀ answer ∈ traffic.answers, answer.Right traffic.turns
  calls : ∀ call ∈ traffic.calls, call.Right traffic.turns
  complete : ∀ ticket : Ticket, ticket.Taken traffic.turns → traffic.Accounts ticket

variable {homes : Homes} {start before after : Volume} {entries others : PageId → List Fingerprint}
  {traffic next : Traffic} {paths : Path → Prop}

/-- What was told stays right, so only what a step adds matters. -/
theorem Told.grows {asked : List Fingerprint} {given : List Answer} (told : traffic.Told entries)
    (turns : next.turns = traffic.turns ++ asked) (answers : next.answers = traffic.answers ++ given)
    (held : ∀ fp, fp ∈ next.segment.all others ↔ fp ∈ next.turns)
    (right : ∀ answer ∈ given, answer.Right next.turns)
    (calls : ∀ call ∈ next.calls, call ∈ traffic.calls ∨ call.Right next.turns)
    (kept : ∀ call ∈ traffic.calls, ∀ ticket, call.asker = some ticket → next.Accounts ticket)
    (new : ∀ ticket : Ticket, ticket.Taken next.turns →
      ticket.Taken traffic.turns ∨ next.Accounts ticket) : next.Told others where
  held := held
  answers := by
    rw [answers]
    intro answer mem
    rcases List.mem_append.mp mem with old | new
    · rw [turns]
      exact (told.answers answer old).append asked
    · exact right answer new
  calls := by
    intro call mem
    rcases calls call mem with old | new
    · rw [turns]
      exact (told.calls call old).append asked
    · exact new
  complete := by
    intro ticket taken
    rcases new ticket taken with old | accounts
    · rcases told.complete ticket old with ⟨result, answered⟩ | ⟨call, mem, asks⟩
      · exact Or.inl ⟨result, answers ▸ List.mem_append_left _ answered⟩
      · exact kept call mem ticket asks
    · exact accounts

/-- A step that begins a call. -/
theorem Told.begun {asked : List Fingerprint} {given : List Answer} {more : List Call}
    (told : traffic.Told entries) (turns : next.turns = traffic.turns ++ asked)
    (answers : next.answers = traffic.answers ++ given) (calls : next.calls = traffic.calls ++ more)
    (held : ∀ fp, fp ∈ next.segment.all others ↔ fp ∈ next.turns)
    (right : ∀ answer ∈ given, answer.Right next.turns)
    (waits : ∀ call ∈ more, call.Right next.turns)
    (new : ∀ ticket : Ticket, ticket.Taken next.turns →
      ticket.Taken traffic.turns ∨ next.Accounts ticket) : next.Told others := by
  apply told.grows turns answers held right _ _ new
  · rw [calls]
    intro call mem
    exact (List.mem_append.mp mem).imp_right (waits call)
  · intro call mem ticket asks
    exact Or.inr ⟨call, calls ▸ List.mem_append_left _ mem, asks⟩

/-- The ticket of a put that begins now is the only new one. -/
theorem taken_snoc {fp : Fingerprint} {ticket : Ticket}
    (taken : ticket.Taken (traffic.turns ++ [fp])) :
    ticket.Taken traffic.turns ∨ ticket = traffic.ticket fp := by
  rcases Nat.lt_or_ge ticket.turn traffic.turns.length with old | new
  · rw [Ticket.Taken, List.getElem?_append_left old] at taken
    exact Or.inl taken
  · have last := taken.turn_lt
    rw [List.length_append, List.length_singleton] at last
    have turn : ticket.turn = traffic.turns.length := by omega
    rw [Ticket.Taken, turn, List.getElem?_concat_length] at taken
    right
    rw [Traffic.ticket, ← turn, Option.some.inj taken]

theorem ticket_taken (fp : Fingerprint) :
    (traffic.ticket fp).Taken (traffic.turns ++ [fp]) :=
  List.getElem?_concat_length

theorem ticket_known (traffic : Traffic) (fp : Fingerprint) (more : List Fingerprint) :
    (traffic.ticket fp).known (traffic.turns ++ more) = decide (fp ∈ traffic.turns) := by
  rw [Ticket.known_append (Nat.le_refl _), Ticket.known, ticket, List.take_length]

/-! ## Single steps -/

/-- What is known after a step: all that was known before, of pages with new lists maybe. -/
structure Leads (homes : Homes) (start before : Volume) (entries : PageId → List Fingerprint)
    (traffic : Traffic) (ended : Traffic × Volume) (others : PageId → List Fingerprint) : Prop where
  sound : ended.1.Sound homes start ended.2 others
  changes : Changes traffic.segment.Pages NoFile before ended.2
  directory : ended.1.segment.store.directory = traffic.segment.store.directory
  keeps : ∀ fp ∈ traffic.segment.all entries, fp ∈ ended.1.segment.all others
  /-- What the segment gained was put. -/
  gains : start.Quiet → ∃ asked, ended.1.turns = traffic.turns ++ asked ∧
    ∀ fp, fp ∈ ended.1.segment.all others ↔ fp ∈ traffic.segment.all entries ∨ fp ∈ asked
  told : start.Quiet → traffic.Told entries → ended.1.Told others

/-- A step that moves fingerprints inside the segment only. -/
theorem Leads.steady {ended : Traffic × Volume} (sound : ended.1.Sound homes start ended.2 others)
    (changes : Changes traffic.segment.Pages NoFile before ended.2)
    (directory : ended.1.segment.store.directory = traffic.segment.store.directory)
    (turns : ended.1.turns = traffic.turns)
    (same : ∀ fp, fp ∈ ended.1.segment.all others ↔ fp ∈ traffic.segment.all entries)
    (told : start.Quiet → traffic.Told entries → ended.1.Told others) :
    Leads homes start before entries traffic ended others where
  sound := sound
  changes := changes
  directory := directory
  keeps fp := (same fp).mpr
  gains _ := ⟨[], turns.trans (List.append_nil _).symm, fun fp => by simp [same]⟩
  told := told

/-- A step of a put whose fingerprint is held when the step is through. -/
theorem Leads.took {ended : Traffic × Volume} {fp : Fingerprint}
    (sound : ended.1.Sound homes start ended.2 others)
    (changes : Changes traffic.segment.Pages NoFile before ended.2)
    (directory : ended.1.segment.store.directory = traffic.segment.store.directory)
    (turns : ended.1.turns = traffic.turns ++ [fp])
    (holds : ∀ other, other ∈ ended.1.segment.all others ↔
      other ∈ traffic.segment.all entries ∨ other = fp)
    (told : start.Quiet → traffic.Told entries → ended.1.Told others) :
    Leads homes start before entries traffic ended others where
  sound := sound
  changes := changes
  directory := directory
  keeps other held := (holds other).mpr (Or.inl held)
  gains _ := ⟨[fp], turns, fun other => by rw [holds, List.mem_singleton]⟩
  told := told

theorem Leads.refl (sound : traffic.Sound homes start before entries) :
    Leads homes start before entries traffic (traffic, before) entries :=
  .steady sound (.refl before) rfl rfl (fun _ => Iff.rfl) fun _ told => told

/-- A step without a new call. -/
theorem Sound.replied {gained : List Fingerprint}
    (sound : traffic.Sound homes start before entries) (changes : Changes paths NoFile before after)
    (outside : ∀ id, id < traffic.segment.store.nextId →
      ¬paths (traffic.segment.store.pagePath id))
    (moves : Moves homes after entries traffic.segment gained others next.segment)
    (calls : next.calls = traffic.calls)
    (readers : next.segment.activeReaders = traffic.segment.activeReaders)
    (room : start.Quiet → next.segment.Room others traffic.merges) :
    next.Sound homes start after others := by
  have merges : next.merges = traffic.merges := by rw [Traffic.merges, calls]; rfl
  have same : next.calls = traffic.calls ++ [] := by rw [calls, List.append_nil]
  refine sound.begun changes outside moves same ?_ readers ?_ ?_
  · simp
  · exact merges ▸ sound.single
  · exact merges ▸ room

/-- A step that leaves a merge to run. -/
theorem Sound.offered {gained : List Fingerprint} {ticket : Option Ticket} {job : CompactionJob}
    (sound : traffic.Sound homes start before entries) (changes : Changes paths NoFile before after)
    (outside : ∀ id, id < traffic.segment.store.nextId →
      ¬paths (traffic.segment.store.pagePath id))
    (moves : Moves homes after entries traffic.segment gained others next.segment)
    (calls : next.calls = traffic.calls ++ [.merging ticket job])
    (offers : Offers traffic.segment next.segment after others (some job))
    (room : ∀ jobs, traffic.segment.Room entries jobs → next.segment.Room others (jobs + 1)) :
    next.Sound homes start after others := by
  obtain ⟨idle, busy, prepared, live, several⟩ := offers
  have none : traffic.calls = [] := List.length_eq_zero_iff.mp (sound.readers.symm.trans idle)
  have merges : traffic.merges = 0 := by rw [Traffic.merges, none]; rfl
  have one : next.merges = 1 := by rw [Traffic.merges, calls, none]; rfl
  apply sound.begun changes outside moves calls
  · rintro call mem
    rw [List.mem_singleton.mp mem]
    exact ⟨prepared, live, several⟩
  · rw [busy, idle, List.length_singleton]
  · exact Nat.le_of_eq one
  · rw [one]
    exact fun quiet => room 0 (merges ▸ sound.room quiet)

/-- A put has taken its step, which took in its fingerprint unless it was there. -/
theorem Told.put {fp : Fingerprint} {given : List Answer} {more : List Call}
    (told : traffic.Told entries) (turns : next.turns = traffic.turns ++ [fp])
    (answers : next.answers = traffic.answers ++ given) (calls : next.calls = traffic.calls ++ more)
    (held : ∀ other, other ∈ next.segment.all others ↔
      other ∈ traffic.segment.all entries ∨ other = fp)
    (right : ∀ answer ∈ given, answer.Right next.turns)
    (waits : ∀ call ∈ more, call.Right next.turns)
    (accounts : next.Accounts (traffic.ticket fp)) : next.Told others := by
  apply told.begun turns answers calls _ right waits
  · intro ticket taken
    rw [turns] at taken
    refine (taken_snoc taken).imp_right ?_
    rintro rfl
    exact accounts
  · intro other
    rw [held, told.held, turns, List.mem_append, List.mem_singleton]

/-- A put that is answered at once. -/
theorem Told.putAnswered {fp : Fingerprint} {known : Bool} (told : traffic.Told entries)
    (turns : next.turns = traffic.turns ++ [fp])
    (answers : next.answers = traffic.answers ++ [.put (traffic.ticket fp) (.ok known)])
    (calls : next.calls = traffic.calls)
    (held : ∀ other, other ∈ next.segment.all others ↔
      other ∈ traffic.segment.all entries ∨ other = fp)
    (right : (traffic.ticket fp).known (traffic.turns ++ [fp]) = known) : next.Told others := by
  refine told.put turns answers (calls.trans (List.append_nil _).symm) held ?_ ?_ ?_
  · intro answer isGiven
    rw [List.mem_singleton.mp isGiven, turns]
    exact ⟨ticket_taken fp, congrArg Except.ok right.symm⟩
  · exact fun _ none => absurd none List.not_mem_nil
  · rw [Accounts, answers]
    exact Or.inl ⟨_, List.mem_append_right _ List.mem_cons_self⟩

theorem put_step (sound : traffic.Sound homes start before entries)
    (numbered : traffic.segment.store.nextId < numberLimit) (fp : Fingerprint) :
    ∃ others, Leads homes start before entries traffic
      (traffic.perform homes.home (.put fp) before) others := by
  have outside (id : PageId) (below : id < traffic.segment.store.nextId) :
      ¬At (traffic.segment.store.pagePath traffic.segment.store.nextId)
        (traffic.segment.store.pagePath id) := by
    rw [At, PageStore.pagePath_inj]
    exact Nat.ne_of_lt below
  have inside := pagePath_pages traffic.segment
  rcases (beginPut_runs sound.tree sound.segment numbered fp).cases with
    ⟨step, last, after, result, changes, leaves⟩ |
    ⟨error, last, after, result, changes, ⟨others, gained, -, moves, readers⟩, refused⟩
  · have pages := changes.mono inside fun _ _ none => none
    rw [perform_put result]
    cases step with
    | known =>
        obtain ⟨mem, moves, kept, same⟩ := leaves
        have readers : last.activeReaders = traffic.segment.activeReaders := by rw [kept]
        have holds (other : Fingerprint) :
            other ∈ last.all entries ↔ other ∈ traffic.segment.all entries ∨ other = fp := by
          rw [moves.holds.mem_iff]
          exact ⟨Or.inl, fun held => held.elim id fun same => same ▸ mem⟩
        have isKnown (told : traffic.Told entries) :
            (traffic.ticket fp).known (traffic.turns ++ [fp]) = true := by
          rw [traffic.ticket_known, decide_eq_true ((told.held fp).mp mem)]
        refine ⟨entries, .took ?_ pages moves.grows.directory rfl holds fun _ told => ?_⟩
        · exact sound.replied changes outside moves rfl readers fun quiet =>
            (sound.room quiet).looked same
        · exact told.putAnswered rfl rfl rfl holds (isKnown told)
    | added job =>
        obtain ⟨new, others, moves, offers, fits⟩ := leaves
        have holds (other : Fingerprint) :
            other ∈ last.all others ↔ other ∈ traffic.segment.all entries ∨ other = fp := by
          rw [moves.holds.mem_iff, List.singleton_append, List.mem_cons, or_comm]
        have isNew (told : traffic.Told entries) :
            (traffic.ticket fp).known (traffic.turns ++ [fp]) = false := by
          rw [traffic.ticket_known, decide_eq_false fun mem => new ((told.held fp).mpr mem)]
        cases job with
        | none =>
            refine ⟨others, .took ?_ pages moves.grows.directory rfl holds fun _ told => ?_⟩
            · exact sound.replied changes outside moves rfl offers fun quiet =>
                fits _ (sound.room quiet)
            · exact told.putAnswered rfl rfl rfl holds (isNew told)
        | some job =>
            refine ⟨others, .took ?_ pages moves.grows.directory rfl holds fun _ told => ?_⟩
            · exact sound.offered changes outside moves rfl offers fits
            · refine told.put rfl (List.append_nil _).symm rfl holds ?_ ?_ ?_
              · exact fun _ none => absurd none List.not_mem_nil
              · intro call isMore
                rw [List.mem_singleton.mp isMore]
                rintro ticket asks
                obtain rfl := Option.some.inj asks
                exact ⟨ticket_taken fp, isNew told⟩
              · exact Or.inr ⟨_, List.mem_append_right _ List.mem_cons_self, rfl⟩
  · rw [perform_put result]
    have loud (quiet : start.Quiet) : False := refused (sound.quiet quiet)
    exact
      ⟨others,
        { sound := sound.replied changes outside moves rfl readers fun quiet => (loud quiet).elim
          changes := changes.mono inside fun _ _ none => none
          directory := moves.grows.directory
          keeps := fun _ held => moves.holds.mem_iff.mpr (List.mem_append_right _ held)
          gains := fun quiet => (loud quiet).elim
          told := fun quiet => (loud quiet).elim }⟩

/-- A step that begins a call other than a put. -/
theorem Told.asked {given : List Answer} {more : List Call} (told : traffic.Told entries)
    (turns : next.turns = traffic.turns) (answers : next.answers = traffic.answers ++ given)
    (calls : next.calls = traffic.calls ++ more)
    (held : ∀ fp, fp ∈ next.segment.all others ↔ fp ∈ traffic.segment.all entries)
    (right : ∀ answer ∈ given, answer.Right traffic.turns)
    (waits : ∀ call ∈ more, call.Right traffic.turns) : next.Told others := by
  refine told.begun (turns.trans (List.append_nil _).symm) answers calls ?_ ?_ ?_ ?_
  · intro fp
    rw [held, told.held, turns]
  · exact turns ▸ right
  · exact turns ▸ waits
  · exact fun ticket taken => Or.inl (turns ▸ taken)

/-- A step of a call that waits. -/
theorem Told.stepped {front back more : List Call} {call : Call} {given : List Answer}
    (told : traffic.Told entries) (turns : next.turns = traffic.turns)
    (answers : next.answers = traffic.answers ++ given)
    (split : traffic.calls = front ++ call :: back) (calls : next.calls = front ++ (more ++ back))
    (held : ∀ fp, fp ∈ next.segment.all others ↔ fp ∈ traffic.segment.all entries)
    (right : ∀ answer ∈ given, answer.Right traffic.turns)
    (waits : ∀ other ∈ more, other.Right traffic.turns)
    (accounts : ∀ ticket, call.asker = some ticket → next.Accounts ticket) : next.Told others := by
  refine told.grows (turns.trans (List.append_nil _).symm) answers ?_ ?_ ?_ ?_ ?_
  · intro fp
    rw [held, told.held, turns]
  · exact turns ▸ right
  · rw [calls, split, turns]
    intro other mem
    rcases List.mem_append.mp mem with mem | mem
    · exact Or.inl (List.mem_append_left _ mem)
    · rcases List.mem_append.mp mem with mem | mem
      · exact Or.inr (waits other mem)
      · exact Or.inl (List.mem_append_right _ (List.mem_cons_of_mem _ mem))
  · rw [split]
    intro other mem ticket asks
    rcases List.mem_append.mp mem with mem | mem
    · exact Or.inr ⟨other, calls ▸ List.mem_append_left _ mem, asks⟩
    · rcases List.mem_cons.mp mem with rfl | mem
      · exact accounts ticket asks
      · have still : other ∈ front ++ (more ++ back) :=
          List.mem_append_right _ (List.mem_append_right _ mem)
        exact Or.inr ⟨other, calls ▸ still, asks⟩
  · exact fun ticket taken => Or.inl (turns ▸ taken)

theorem Sound.loud (sound : traffic.Sound homes start before entries) (refused : ¬before.Quiet) :
    ¬start.Quiet :=
  fun quiet => refused (sound.quiet quiet)

theorem contains_step (sound : traffic.Sound homes start before entries) (fp : Fingerprint) :
    ∃ others, Leads homes start before entries traffic
      (traffic.perform homes.home (.contains fp) before) others := by
  rcases (contains_runs sound.tree sound.segment fp).cases with
    ⟨answer, last, after, result, changes, moves, kept, same, decides⟩ |
    ⟨error, last, after, result, changes, ⟨moves, kept, same⟩, refused⟩
  · rw [perform_contains result]
    have readers : last.activeReaders = traffic.segment.activeReaders := by rw [kept]
    refine ⟨entries, .steady ?_ changes.ofNothing moves.grows.directory rfl
      (fun _ => moves.holds.mem_iff) fun _ told => ?_⟩
    · exact sound.replied changes (fun _ _ => id) moves rfl readers fun quiet =>
        (sound.room quiet).looked same
    · have isKnown : (traffic.ticket fp).known traffic.turns = answer := by
        have decided := traffic.ticket_known fp []
        rw [List.append_nil] at decided
        rw [decided, Bool.eq_iff_iff, decide_eq_true_iff, decides, told.held]
      refine told.asked rfl rfl (List.append_nil _).symm (fun _ => moves.holds.mem_iff) ?_ ?_
      · intro given isGiven
        rw [List.mem_singleton.mp isGiven]
        exact ⟨Nat.le_refl _, congrArg Except.ok isKnown.symm⟩
      · exact fun _ none => absurd none List.not_mem_nil
  · rw [perform_contains result]
    have readers : last.activeReaders = traffic.segment.activeReaders := by rw [kept]
    have loud := sound.loud refused
    refine ⟨entries, .steady ?_ changes.ofNothing moves.grows.directory rfl
      (fun _ => moves.holds.mem_iff) fun quiet => absurd quiet loud⟩
    exact sound.replied changes (fun _ _ => id) moves rfl readers fun quiet => absurd quiet loud

theorem compact_step (sound : traffic.Sound homes start before entries) :
    ∃ others, Leads homes start before entries traffic
      (traffic.perform homes.home .compact before) others := by
  rcases (beginCompact_runs sound.tree sound.segment).cases with
    ⟨job, last, after, result, changes, others, moves, offers, fits⟩ |
    ⟨error, last, after, result, changes, ⟨moves, readers⟩, refused⟩
  · rw [perform_compact result]
    cases job with
    | none =>
        refine ⟨others, .steady ?_ changes.ofNothing moves.grows.directory rfl
          (fun _ => moves.holds.mem_iff) fun _ told => ?_⟩
        · exact sound.replied changes (fun _ _ => id) moves rfl offers fun quiet =>
            fits _ (sound.room quiet)
        · refine told.asked rfl rfl (List.append_nil _).symm (fun _ => moves.holds.mem_iff) ?_ ?_
          · intro given isGiven
            rw [List.mem_singleton.mp isGiven]
            rfl
          · exact fun _ none => absurd none List.not_mem_nil
    | some job =>
        refine ⟨others, .steady ?_ changes.ofNothing moves.grows.directory rfl
          (fun _ => moves.holds.mem_iff) fun _ told => ?_⟩
        · exact sound.offered changes (fun _ _ => id) moves rfl offers fits
        · refine told.asked rfl (List.append_nil _).symm rfl (fun _ => moves.holds.mem_iff) ?_ ?_
          · exact fun _ none => absurd none List.not_mem_nil
          · intro call isMore
            rw [List.mem_singleton.mp isMore]
            exact fun _ none => nomatch none
  · rw [perform_compact result]
    have loud := sound.loud refused
    refine ⟨entries, .steady ?_ changes.ofNothing moves.grows.directory rfl
      (fun _ => moves.holds.mem_iff) fun quiet => absurd quiet loud⟩
    exact sound.replied changes (fun _ _ => id) moves rfl readers fun quiet => absurd quiet loud

theorem snapshot_step (sound : traffic.Sound homes start before entries) :
    ∃ others, Leads homes start before entries traffic
      (traffic.perform homes.home .snapshot before) others := by
  rcases (takeSnapshot_runs sound.tree sound.segment).cases with
    ⟨snapshot, last, after, result, changes, rfl, streams⟩ |
    ⟨error, last, after, result, changes, rfl, refused⟩
  · rw [perform_snapshot result, sound.segment.held_eq]
    have moves := sound.segment.stays sound.tree changes (traffic.segment.activeReaders + 1)
    have merges : (traffic.snapshotBegun (sorted (traffic.segment.all entries))
        traffic.segment.addReader (.ok snapshot)).merges = traffic.merges :=
      List.countP_append
    have fromPages := streams.mono fun id behind =>
      (sound.segment.store.isPage sound.tree behind).of_changes changes fun none => none
    refine ⟨entries, .steady ?_ changes.ofNothing rfl rfl (fun _ => moves.holds.mem_iff)
      fun _ told => ?_⟩
    · refine sound.begun changes (fun _ _ => id) moves rfl ?_ rfl ?_ fun quiet => ?_
      · intro call isMore
        rw [List.mem_singleton.mp isMore]
        exact fun _ => ⟨sorted_ascending _, rfl, fromPages⟩
      · exact merges ▸ sound.single
      · exact merges ▸ sound.room quiet
    · refine told.asked rfl (List.append_nil _).symm rfl (fun _ => moves.holds.mem_iff) ?_ ?_
      · exact fun _ none => absurd none List.not_mem_nil
      · intro call isMore
        rw [List.mem_singleton.mp isMore]
        exact fun _ none => nomatch none
  · rw [perform_snapshot result]
    have loud := sound.loud refused
    have moves := sound.segment.stays sound.tree changes traffic.segment.activeReaders
    refine ⟨entries, .steady ?_ changes.ofNothing rfl rfl (fun _ => moves.holds.mem_iff)
      fun quiet => absurd quiet loud⟩
    exact sound.replied changes (fun _ _ => id) moves rfl rfl fun quiet => absurd quiet loud

/-! The next steps are those of a call that is in the slot. -/

theorem run_step (sound : traffic.Sound homes start before entries)
    (numbered : traffic.segment.store.nextId < numberLimit) {slot : Nat} {ticket : Option Ticket}
    {job : CompactionJob} (here : traffic.calls[slot]? = some (.merging ticket job)) :
    ∃ others, Leads homes start before entries traffic
      (traffic.perform homes.home (.run slot) before) others := by
  obtain ⟨front, back, split, set, -⟩ := exists_split here
  have isCall : Call.merging ticket job ∈ traffic.calls := List.mem_of_getElem? here
  obtain ⟨prepared, live, several⟩ := sound.calls _ isCall
  have runs := CompactionJob.run_runs sound.tree sound.segment.store.isDir
    (Nat.lt_trans prepared.numbered numbered) prepared
  have goes (outcome : Except Error MergedPage) (after : Volume)
      (ran : job.run before = (outcome, after))
      (changes : Changes (At job.target) NoFile before after)
      (waits : Call.Sound start after entries traffic.segment (.settling ticket outcome)) :
      Leads homes start before entries traffic
        (traffic.perform homes.home (.run slot) before) entries := by
    rw [perform_run here ran]
    have merges := merges_split split
    have calls : (traffic.goesOn slot (.settling ticket outcome)).calls =
        front ++ ([.settling ticket outcome] ++ back) := set _
    have inside (path : Path) (same : At job.target path) : traffic.segment.Pages path := by
      rw [same, prepared.target]
      exact pagePath_below _ _
    refine .steady ?_ (changes.mono inside fun _ _ none => none) rfl rfl (fun _ => Iff.rfl)
      fun _ told => ?_
    · refine sound.stepped changes split (sound.segment.of_target sound.tree prepared changes)
        calls ?_ ?_ rfl ?_ fun quiet => ?_
      · intro other mem old
        exact old.of_reading (sound.reads split rfl other mem) changes
      · intro call isMore
        exact List.mem_singleton.mp isMore ▸ waits
      · exact merges ▸ sound.single
      · exact merges ▸ sound.room quiet
    · refine told.stepped rfl (List.append_nil _).symm split calls (fun _ => Iff.rfl) ?_ ?_ ?_
      · exact fun _ none => absurd none List.not_mem_nil
      · intro call isMore
        rw [List.mem_singleton.mp isMore]
        have waiting := told.calls _ isCall
        exact waiting
      · intro asker asks
        have mem : Call.settling ticket outcome ∈
            (traffic.goesOn slot (.settling ticket outcome)).calls :=
          calls ▸ List.mem_append_right _ List.mem_cons_self
        exact Or.inr ⟨_, mem, asks⟩
  rcases Meets.cases runs with ⟨merged, after, ran, changes, ready, -, replaced⟩ |
    ⟨error, after, ran, changes, refused⟩
  · exact ⟨entries, goes _ after ran changes ⟨ready, replaced ▸ live, replaced ▸ several⟩⟩
  · exact ⟨entries, goes _ after ran changes (sound.loud refused)⟩

theorem settle_step (sound : traffic.Sound homes start before entries) {slot : Nat}
    {ticket : Option Ticket} {outcome : Except Error MergedPage}
    (here : traffic.calls[slot]? = some (.settling ticket outcome)) :
    ∃ others, Leads homes start before entries traffic
      (traffic.perform homes.home (.settle slot) before) others := by
  obtain ⟨front, back, split, -, erase⟩ := exists_split here
  have isCall : Call.settling ticket outcome ∈ traffic.calls := List.mem_of_getElem? here
  have known := sound.calls _ isCall
  have merges := merges_split split
  rw [show Call.isMerge (.settling ticket outcome) = true from rfl, if_pos rfl] at merges
  have fewer (last : Segment) (less : last.activeReaders = traffic.segment.activeReaders - 1) :
      last.activeReaders + 1 = traffic.segment.activeReaders := by
    have some := List.length_pos_of_mem isCall
    rw [← sound.readers] at some
    omega
  have goes (result : Except Error Unit) (last : Segment) (after : Volume)
      (paths : Path → Prop) (changes : Changes paths NoFile before after)
      (inside : ∀ path, paths path → traffic.segment.Pages path)
      (taken : Segment.settle outcome traffic.segment before = ((result, last), after))
      (becomes : Becomes homes after entries traffic.segment [] entries last)
      (less : last.activeReaders = traffic.segment.activeReaders - 1)
      (room : start.Quiet → ∀ jobs, traffic.segment.Room entries (jobs + 1) →
        last.Room entries jobs)
      (right : start.Quiet → result = .ok ()) :
      Leads homes start before entries traffic
        (traffic.perform homes.home (.settle slot) before) entries := by
    rw [perform_settle here taken]
    have calls : (traffic.settled slot ticket last result).calls = front ++ ([] ++ back) :=
      erase
    refine .steady ?_ (changes.mono inside fun _ _ none => none) becomes.directory rfl
      (fun _ => becomes.holds.mem_iff) fun quiet told => ?_
    · refine sound.stepped changes split becomes.sound calls ?_ ?_ (fewer last less) ?_
        fun quiet => ?_
      · intro other mem old
        exact old.of_reading (sound.reads split rfl other mem) changes
      · exact fun _ none => absurd none List.not_mem_nil
      · have single := sound.single
        rw [merges] at single
        exact Nat.le_of_succ_le single
      · exact room quiet _ (merges ▸ sound.room quiet)
    · refine told.stepped rfl rfl split calls (fun _ => becomes.holds.mem_iff) ?_ ?_ ?_
      · intro answer isGiven
        rw [List.mem_singleton.mp isGiven, right quiet]
        cases ticket with
        | none => rfl
        | some ticket =>
            obtain ⟨taken, new⟩ := told.calls _ isCall ticket rfl
            exact ⟨taken, congrArg Except.ok new.symm⟩
      · exact fun _ none => absurd none List.not_mem_nil
      · intro asker asks
        obtain rfl : ticket = some asker := asks
        exact Or.inl ⟨_, List.mem_append_right _ List.mem_cons_self⟩
  cases outcome with
  | error error =>
      exact ⟨entries, goes (.error error) traffic.segment.dropReader before Nowhere
        (.refl before) (fun _ nowhere => nowhere.elim) rfl sound.segment.dropped rfl
        (absurd · known) (absurd · known)⟩
  | ok merged =>
      obtain ⟨ready, live, several⟩ := known
      have inside (path : Path) :
          PageStore.Involved traffic.segment.store merged path → traffic.segment.Pages path := by
        rintro ⟨id, -, rfl⟩
        exact pagePath_below _ _
      rcases (settle_runs sound.tree sound.segment ready).cases with
        ⟨_, last, after, taken, changes, leaves⟩ |
        ⟨error, last, after, taken, changes, leaves, refused⟩
      · exact ⟨entries, goes _ last after _ changes inside taken leaves.1 leaves.2.1
          (fun _ _ => leaves.room sound.segment ready.distinct live several) fun _ => rfl⟩
      · have loud := sound.loud refused
        exact ⟨entries, goes _ last after _ changes inside taken leaves.1 leaves.2.1
          (absurd · loud) (absurd · loud)⟩

/-- What gives the rest of some fingerprints gives the next of them or the end. -/
theorem pull_snoc {taken : List Fingerprint} {pulls : List Pull} {snapshot : Merge}
    {used : FileId → Prop} (quiet : before.Quiet)
    (pulled : pulls = (List.range pulls.length).map (pullAt taken))
    (streams : snapshot.Streams before used (taken.drop pulls.length)) {later : Merge} {pull : Pull}
    (asked : snapshot.next before = ((later, pull), after)) :
    pulls ++ [pull] = (List.range (pulls ++ [pull]).length).map (pullAt taken) ∧
      later.Streams after used (taken.drop (pulls ++ [pull]).length) := by
  obtain ⟨_, _, _, found, -, given⟩ := Merge.next_gives streams
  rw [asked] at found
  cases found
  have here : pull = pullAt taken pulls.length ∧
      later.Streams after used (taken.drop (pulls.length + 1)) := by
    cases pull with
    | value fp =>
        obtain ⟨rest, split, streamsStill, -⟩ := given
        have next : taken[pulls.length]? = some fp := by
          rw [← List.head?_drop, split]
          rfl
        have others : taken.drop (pulls.length + 1) = rest := by
          rw [← List.tail_drop, split]
          rfl
        rw [pullAt, next, others]
        exact ⟨rfl, streamsStill⟩
    | failed error => exact absurd quiet given
    | ended =>
        obtain ⟨drained, streamsStill⟩ := given
        have beyond := List.drop_eq_nil_iff.mp drained
        rw [pullAt, List.getElem?_eq_none beyond,
          List.drop_eq_nil_iff.mpr (Nat.le_succ_of_le beyond)]
        exact ⟨rfl, streamsStill⟩
  rw [List.length_append, List.length_singleton]
  refine ⟨?_, here.2⟩
  rw [List.range_succ, List.map_append, ← pulled, List.map_singleton, here.1]

theorem pull_step (sound : traffic.Sound homes start before entries) {slot : Nat}
    {taken : List Fingerprint} {pulls : List Pull} {snapshot : Merge}
    (here : traffic.calls[slot]? = some (.reading taken pulls snapshot)) :
    ∃ others, Leads homes start before entries traffic
      (traffic.perform homes.home (.pull slot) before) others := by
  obtain ⟨front, back, split, set, -⟩ := exists_split here
  have known := sound.calls _ (List.mem_of_getElem? here)
  have changes := snapshot.next_changes before
  have merges := merges_split split
  rcases asked : snapshot.next before with ⟨⟨later, pull⟩, after⟩
  rw [asked] at changes
  rw [perform_pull here asked]
  have calls : (traffic.goesOn slot (.reading taken (pulls ++ [pull]) later)).calls =
      front ++ ([.reading taken (pulls ++ [pull]) later] ++ back) := set _
  have moves := sound.segment.stays sound.tree changes traffic.segment.activeReaders
  refine ⟨entries, .steady ?_ changes.ofNothing rfl rfl (fun _ => Iff.rfl) fun _ told => ?_⟩
  · refine sound.stepped changes split moves.sound calls ?_ ?_ rfl ?_ fun quiet => ?_
    · exact fun other _ old => old.of_changes sound.tree moves.grows changes
        (fun _ none => none.elim) fun _ _ => id
    · intro call isMore
      rw [List.mem_singleton.mp isMore]
      intro quiet
      obtain ⟨ascending, pulled, streams⟩ := known quiet
      obtain ⟨all, streamsStill⟩ := pull_snoc (sound.quiet quiet) pulled streams asked
      exact ⟨ascending, all, streamsStill.mono fun _ isPage =>
        isPage.of_changes changes fun none => none⟩
    · exact merges ▸ sound.single
    · exact merges ▸ sound.room quiet
  · refine told.stepped rfl (List.append_nil _).symm split calls (fun _ => Iff.rfl) ?_ ?_ ?_
    · exact fun _ none => absurd none List.not_mem_nil
    · intro call isMore
      rw [List.mem_singleton.mp isMore]
      exact fun _ none => nomatch none
    · exact fun _ none => nomatch none

theorem release_step (sound : traffic.Sound homes start before entries) {slot : Nat}
    {taken : List Fingerprint} {pulls : List Pull} {snapshot : Merge}
    (here : traffic.calls[slot]? = some (.reading taken pulls snapshot)) :
    ∃ others, Leads homes start before entries traffic
      (traffic.perform homes.home (.release slot) before) others := by
  obtain ⟨front, back, split, -, erase⟩ := exists_split here
  have some := List.length_pos_of_mem (List.mem_of_getElem? here)
  rw [← sound.readers] at some
  have merges := merges_split split
  have changes : Changes Nowhere NoFile before before := .refl before
  have calls : (traffic.released slot).calls = front ++ ([] ++ back) := erase
  rw [perform_release before here]
  refine ⟨entries, .steady ?_ (.refl before) rfl rfl (fun _ => Iff.rfl) fun _ told => ?_⟩
  · refine sound.stepped changes split (sound.segment.withReaders _) calls ?_ ?_ ?_ ?_
      fun quiet => ?_
    · exact fun other _ old => old.of_changes sound.tree (.refl _ _) changes
        (fun _ none => none.elim) fun _ _ => id
    · exact fun _ none => absurd none List.not_mem_nil
    · exact Nat.sub_add_cancel some
    · exact merges ▸ sound.single
    · exact merges ▸ sound.room quiet
  · refine told.stepped rfl (List.append_nil _).symm split calls (fun _ => Iff.rfl) ?_ ?_ ?_
    · exact fun _ none => absurd none List.not_mem_nil
    · exact fun _ none => absurd none List.not_mem_nil
    · exact fun _ none => nomatch none

end Traffic

end Segment

end FingerprintSet
