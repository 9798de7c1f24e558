import FingerprintSet.Proofs.Segment.Traffic

/-!
# Whole schedules

A segment is created in a directory of its own and then used by any schedule of calls.  What
one step keeps, every schedule keeps.  While nothing fails, all answers are right and every
snapshot gives what the segment held when it was taken.  Whatever fails, the places that
fingerprints are in stay apart, the counts stay right and no fingerprint is lost.
-/

namespace FingerprintSet

open Storage Volume SortedFile

namespace Segment

/-- A volume, and a directory in which a segment of given dimensions can be created. -/
structure Site where
  volume : Volume
  index : Nat
  plan : Plan
  storage : StorageSettings
  overflow : Path
  /-- The bucket that each fingerprint goes into. -/
  home : Fingerprint → Nat
  inside : ∀ fp, home fp < plan.bucketsPerSegment
  sound : volume.Sound
  shapes : Shapes plan storage
  creatable : Creatable volume (overflow.child (directoryName index))
  free : ∀ path, Below (overflow.child (directoryName index)) path → volume.binding? path = none

namespace Site

/-- The buckets of the segment. -/
def homes (site : Site) : Homes where
  buckets := site.plan.bucketsPerSegment
  home := site.home
  inside := site.inside

/-- Create the segment. -/
def create (site : Site) : Except Error Segment × Volume :=
  Segment.create site.index site.plan site.storage site.overflow site.volume

/-- The new segment, or any if it could not be created. -/
def begun (site : Site) : Traffic × Volume :=
  match site.create with
  | (.ok segment, before) => ({ segment }, before)
  | (.error _, before) => (default, before)

/-- The segment and the calls on it after a schedule. -/
def after (site : Site) (moves : List Move) : Traffic × Volume :=
  Traffic.run site.home moves site.begun.1 site.begun.2

/-- The segment after a schedule. -/
def segment (site : Site) (moves : List Move) : Segment :=
  (site.after moves).1.segment

/-- What the segment holds after a schedule, place by place. -/
def held (site : Site) (moves : List Move) : List Fingerprint :=
  (site.segment moves).held (site.after moves).2

end Site

/-- One bucket for one fingerprint, on an empty volume with a schedule of refusals. -/
def Site.small (faults : Nat → Option Errno) : Site where
  volume := { faults }
  index := 0
  plan :=
    { budgetBytes := 0
      segmentBits := 0
      bucketsPerSegment := 1
      bucketEntries := 1
      pendingCapacity := 1
      reserveBytes := 0
      indexBytes := 0 }
  storage :=
    { pageIndexStride := 1
      maxPagesPerSegment := 1
      maxOpenPages := 1
      syncWrites := false }
  overflow := []
  home _ := 0
  inside _ := Nat.zero_lt_one
  sound := empty_sound faults
  shapes :=
    { wide := by decide
      narrow := by decide
      stride := by decide
      small := by decide
      handles := by decide }
  creatable :=
    { named := fun name mem => by
        rw [List.mem_singleton.mp mem]
        exact directoryName_fits (by decide)
      noFile := by simp }
  free := by simp

namespace Traffic

variable {homes : Homes} {start before : Volume} {entries others : PageId → List Fingerprint}
  {traffic : Traffic}

/-- What is known between two steps is known after the next one. -/
theorem Sound.step (sound : traffic.Sound homes start before entries)
    (numbered : traffic.segment.store.nextId < numberLimit) (move : Move) :
    ∃ others, Leads homes start before entries traffic (traffic.perform homes.home move before)
      others := by
  have performed := performs homes.home traffic before move
  generalize same : traffic.perform homes.home move before = next at performed ⊢
  cases performed with
  | put => exact same ▸ put_step sound numbered _
  | contains => exact same ▸ contains_step sound _
  | compact => exact same ▸ compact_step sound
  | snapshot => exact same ▸ snapshot_step sound
  | run here => exact same ▸ run_step sound numbered here
  | settle here => exact same ▸ settle_step sound here
  | pull here => exact same ▸ pull_step sound here
  | release here => exact same ▸ release_step sound here
  | idle => exact ⟨entries, .refl sound⟩

theorem Leads.trans {middle final : Traffic × Volume} {another : PageId → List Fingerprint}
    (first : Leads homes start before entries traffic middle others)
    (second : Leads homes start middle.2 others middle.1 final another) :
    Leads homes start before entries traffic final another where
  sound := second.sound
  changes := by
    have more := second.changes
    rw [Pages, first.directory] at more
    exact first.changes.trans more
  directory := second.directory.trans first.directory
  keeps fp mem := second.keeps fp (first.keeps fp mem)
  gains quiet := by
    obtain ⟨asked, turns, holds⟩ := first.gains quiet
    obtain ⟨more, moreTurns, moreHolds⟩ := second.gains quiet
    refine ⟨asked ++ more, by rw [moreTurns, turns, List.append_assoc], fun fp => ?_⟩
    rw [moreHolds, holds, List.mem_append, or_assoc]
  told quiet told := second.told quiet (first.told quiet told)

/-- While nothing fails page numbers do not run out. -/
theorem Sound.numbered (sound : traffic.Sound homes start before entries) (quiet : start.Quiet) :
    traffic.segment.store.nextId < numberLimit :=
  Nat.lt_of_succ_lt
    (sound.segment.room (sound.room quiet) (Nat.le_trans sound.single (by decide)))

/-- What is known at first is known after any schedule, as long as page numbers do not run
out. -/
theorem Sound.run (sound : traffic.Sound homes start before entries) (moves : List Move)
    (numbered : start.Quiet ∨ ∀ count, (Traffic.run homes.home (moves.take count) traffic
      before).1.segment.store.nextId < UInt64.size) :
    ∃ others, Leads homes start before entries traffic (Traffic.run homes.home moves traffic before)
      others := by
  induction moves generalizing traffic before entries with
  | nil => exact ⟨entries, .refl sound⟩
  | cons move moves ih =>
      have room : traffic.segment.store.nextId < numberLimit := by
        rcases numbered with quiet | numbered
        · exact sound.numbered quiet
        · exact Nat.lt_trans (numbered 0) (by decide)
      obtain ⟨others, first⟩ := sound.step room move
      obtain ⟨another, second⟩ := ih first.sound (numbered.imp_right fun numbered count =>
        numbered (count + 1))
      exact ⟨another, first.trans second⟩

theorem settle_first (home : Fingerprint → Nat) (before : Volume) {ticket : Option Ticket}
    {outcome : Except Error MergedPage} {rest : List Call}
    (calls : traffic.calls = .settling ticket outcome :: rest) :
    (traffic.perform home (.settle 0) before).1.calls = rest := by
  rcases taken : Segment.settle outcome traffic.segment before with ⟨⟨result, last⟩, after⟩
  rw [perform_settle (by rw [calls]; rfl) taken]
  show traffic.calls.eraseIdx 0 = rest
  rw [calls, List.eraseIdx_cons_zero]

theorem run_first (home : Fingerprint → Nat) (before : Volume) {ticket : Option Ticket} {job : CompactionJob}
    {rest : List Call} (calls : traffic.calls = .merging ticket job :: rest) :
    ∃ outcome, (traffic.perform home (.run 0) before).1.calls = .settling ticket outcome :: rest := by
  rcases ran : job.run before with ⟨outcome, after⟩
  refine ⟨outcome, ?_⟩
  rw [perform_run (by rw [calls]; rfl) ran]
  show traffic.calls.set 0 (.settling ticket outcome) = _
  rw [calls, List.set_cons_zero]

theorem release_first (home : Fingerprint → Nat) (before : Volume) {taken : List Fingerprint} {pulls : List Pull}
    {snapshot : Merge} {rest : List Call}
    (calls : traffic.calls = .reading taken pulls snapshot :: rest) :
    (traffic.perform home (.release 0) before).1.calls = rest := by
  rw [perform_release before (by rw [calls]; rfl)]
  show traffic.calls.eraseIdx 0 = rest
  rw [calls, List.eraseIdx_cons_zero]

/-- Every call that waits can go on to its end. -/
theorem run_empties (home : Fingerprint → Nat) (traffic : Traffic) (before : Volume) :
    ∃ moves, (Traffic.run home moves traffic before).1.calls = [] := by
  induction callsEq : traffic.calls generalizing traffic before with
  | nil => exact ⟨[], callsEq⟩
  | cons call rest ih =>
      cases call with
      | merging ticket job =>
          obtain ⟨outcome, ran⟩ := run_first home before callsEq
          obtain ⟨moves, empty⟩ := ih _ _ (settle_first home _ ran)
          exact ⟨.run 0 :: .settle 0 :: moves, empty⟩
      | settling ticket outcome =>
          obtain ⟨moves, empty⟩ := ih _ _ (settle_first home before callsEq)
          exact ⟨.settle 0 :: moves, empty⟩
      | reading taken pulls snapshot =>
          obtain ⟨moves, empty⟩ := ih _ _ (release_first home before callsEq)
          exact ⟨.release 0 :: moves, empty⟩

/-- A snapshot that is held was held before, or it is taken now. -/
theorem perform_reading {home : Fingerprint → Nat} {move : Move} {taken : List Fingerprint}
    {pulls : List Pull} {snapshot : Merge}
    (reads : .reading taken pulls snapshot ∈ (traffic.perform home move before).1.calls) :
    (∃ pulls snapshot, .reading taken pulls snapshot ∈ traffic.calls) ∨
      move = .snapshot ∧ taken = sorted (traffic.segment.held before) := by
  have old (mem : .reading taken pulls snapshot ∈ traffic.calls) :
      (∃ pulls snapshot, .reading taken pulls snapshot ∈ traffic.calls) ∨
        move = .snapshot ∧ taken = sorted (traffic.segment.held before) :=
    Or.inl ⟨pulls, snapshot, mem⟩
  have other {call : Call} (mem : .reading taken pulls snapshot ∈ traffic.calls ++ [call])
      (different : .reading taken pulls snapshot ≠ call) :
      (∃ pulls snapshot, .reading taken pulls snapshot ∈ traffic.calls) ∨
        move = .snapshot ∧ taken = sorted (traffic.segment.held before) :=
    (List.mem_append.mp mem).elim old fun new => absurd (List.mem_singleton.mp new) different
  have performed := performs home traffic before move
  generalize traffic.perform home move before = next at performed reads
  cases performed with
  | @put fp result last after taken =>
      rcases result with error | known | none | job
      · exact old reads
      · exact old reads
      · exact old reads
      · exact other reads nofun
  | contains => exact old reads
  | @compact result last after taken =>
      rcases result with error | none | job
      · exact old reads
      · exact old reads
      · exact other reads nofun
  | @snapshot result last after taken =>
      cases result with
      | error error => exact old reads
      | ok snapshot =>
          rcases List.mem_append.mp reads with mem | new
          · exact old mem
          · cases List.mem_singleton.mp new
            exact Or.inr ⟨rfl, rfl⟩
  | run here ran =>
      rcases List.mem_or_eq_of_mem_set reads with mem | ⟨⟨⟩⟩
      exact old mem
  | settle here taken => exact old (List.mem_of_mem_eraseIdx reads)
  | pull here pulled =>
      rcases List.mem_or_eq_of_mem_set reads with mem | same
      · exact old mem
      · cases same
        exact Or.inl ⟨_, _, List.mem_of_getElem? here⟩
  | release here => exact old (List.mem_of_mem_eraseIdx reads)
  | idle => exact old reads

/-- Every snapshot that is held was held at first, or it was taken at some place of the
schedule. -/
theorem run_reading {home : Fingerprint → Nat} (moves : List Move) {taken : List Fingerprint}
    {pulls : List Pull} {snapshot : Merge}
    (reads : .reading taken pulls snapshot ∈ (Traffic.run home moves traffic before).1.calls) :
    (∃ pulls snapshot, .reading taken pulls snapshot ∈ traffic.calls) ∨
      ∃ earlier later, moves = earlier ++ .snapshot :: later ∧
        taken = sorted ((Traffic.run home earlier traffic before).1.segment.held
          (Traffic.run home earlier traffic before).2) := by
  induction moves generalizing traffic before with
  | nil => exact Or.inl ⟨pulls, snapshot, reads⟩
  | cons move moves ih =>
      rcases ih reads with ⟨pulls, snapshot, mem⟩ | ⟨earlier, later, rfl, takenEq⟩
      · refine (perform_reading mem).imp_right ?_
        rintro ⟨rfl, takenEq⟩
        exact ⟨[], moves, rfl, takenEq⟩
      · exact Or.inr ⟨move :: earlier, later, rfl, takenEq⟩

end Traffic

/-- The fingerprint that a step puts. -/
def Move.asked : Move → Option Fingerprint
  | .put fp => some fp
  | _ => none

theorem Move.asked_of_slot {move : Move} {slot : Nat} (slotted : move.slot? = some slot) :
    move.asked = none := by
  cases move with
  | put | contains | compact | snapshot => contradiction
  | run | settle | pull | release => rfl

namespace Traffic

variable {before : Volume} {traffic : Traffic}

theorem perform_turns (home : Fingerprint → Nat) (move : Move) :
    (traffic.perform home move before).1.turns = traffic.turns ++ move.asked.toList := by
  have performed := performs home traffic before move
  generalize traffic.perform home move before = next at performed
  cases performed with
  | @put fp result last after taken => rcases result with error | known | none | job <;> rfl
  | @compact result last after taken =>
      rcases result with error | none | job <;> exact (List.append_nil _).symm
  | @snapshot result last after taken => cases result <;> exact (List.append_nil _).symm
  | contains | run | settle | pull | release => exact (List.append_nil _).symm
  | idle slotted => rw [Move.asked_of_slot slotted]; exact (List.append_nil _).symm

/-- No answer is taken back. -/
theorem perform_answers (home : Fingerprint → Nat) (move : Move) (traffic : Traffic)
    (before : Volume) :
    ∃ given, (traffic.perform home move before).1.answers = traffic.answers ++ given := by
  have same : ∃ given, traffic.answers = traffic.answers ++ given :=
    ⟨[], (List.append_nil _).symm⟩
  have performed := performs home traffic before move
  generalize traffic.perform home move before = next at performed
  cases performed with
  | @put fp result last after taken =>
      rcases result with error | known | none | job
      · exact ⟨_, rfl⟩
      · exact ⟨_, rfl⟩
      · exact ⟨_, rfl⟩
      · exact same
  | @compact result last after taken =>
      rcases result with error | none | job
      · exact ⟨_, rfl⟩
      · exact ⟨_, rfl⟩
      · exact same
  | @snapshot result last after taken =>
      cases result with
      | error error => exact ⟨_, rfl⟩
      | ok snapshot => exact same
  | contains | settle => exact ⟨_, rfl⟩
  | run | pull | release | idle => exact same

theorem run_answers (home : Fingerprint → Nat) (moves : List Move) (traffic : Traffic)
    (before : Volume) :
    ∃ given, (Traffic.run home moves traffic before).1.answers = traffic.answers ++ given := by
  induction moves generalizing traffic before with
  | nil => exact ⟨[], (List.append_nil _).symm⟩
  | cons move moves ih =>
      obtain ⟨first, given⟩ := perform_answers home move traffic before
      obtain ⟨others, later⟩ := ih (traffic.perform home move before).1
        (traffic.perform home move before).2
      exact ⟨first ++ others, by rw [run_cons, later, given, List.append_assoc]⟩

/-- The turns are those of the puts in the schedule. -/
theorem run_turns (home : Fingerprint → Nat) (moves : List Move) :
    (Traffic.run home moves traffic before).1.turns =
      traffic.turns ++ moves.filterMap Move.asked := by
  induction moves generalizing traffic before with
  | nil => exact (List.append_nil _).symm
  | cons move moves ih =>
      rw [run_cons, ih, perform_turns, List.append_assoc]
      congr 1
      cases asked : move.asked <;> simp [asked]

end Traffic

namespace Site

variable {site : Site} {segment : Segment} {before : Volume}

/-- A new segment holds nothing, and no call is on it. -/
theorem begun_sound (created : site.create.1.isOk = true) :
    ∃ entries, site.begun.1.Sound site.homes site.volume site.begun.2 entries ∧
      site.begun.1.Told entries ∧ site.begun.1.calls = [] := by
  have runs := @create_runs site.homes site.volume (fun _ => []) site.sound _ _ _ _ site.shapes rfl
    site.creatable site.free
  rcases Meets.cases runs with ⟨segment, before, result, changes, rests, none, -⟩ |
    ⟨error, before, result, -⟩
  · have begun : site.begun = ({ segment }, before) := by
      rw [Site.begun, Site.create, result]
    rw [begun]
    refine ⟨fun _ => [], ?_, ?_, rfl⟩
    · exact
        { tree := changes.sound site.sound
          quiet := changes.quiet
          segment := rests.sound
          readers := rests.idle
          calls := by simp
          single := Nat.zero_le 1
          room := fun _ => rests.room }
    · exact
        { held := by simp [none]
          answers := by simp
          calls := by simp
          complete := by simp [Ticket.Taken] }
  · rw [Site.create, result] at created
    contradiction

/-- While nothing fails a segment can be created. -/
theorem created_of_quiet (quiet : site.volume.Quiet) : site.create.1.isOk = true := by
  have runs := @create_runs site.homes site.volume (fun _ => []) site.sound _ _ _ _ site.shapes rfl
    site.creatable site.free
  obtain ⟨segment, before, result, -⟩ := runs.of_quiet quiet
  rw [Site.create, result]
  rfl

/-- The puts that have taken their step are those of the schedule. -/
theorem after_turns (site : Site) (moves : List Move) :
    (site.after moves).1.turns = moves.filterMap Move.asked := by
  have none : site.begun.1.turns = [] := by
    rw [Site.begun]
    split <;> rfl
  rw [Site.after, Traffic.run_turns, none, List.nil_append]

theorem after_append (site : Site) (first second : List Move) :
    site.after (first ++ second) =
      Traffic.run site.home second (site.after first).1 (site.after first).2 :=
  Traffic.run_append ..

/-- If page numbers do not run out, they have not run out before. -/
theorem numbered_earlier {earlier later : List Move}
    (numbered : ∀ count, (site.segment ((earlier ++ later).take count)).store.nextId < UInt64.size)
    (count : Nat) : (site.segment (earlier.take count)).store.nextId < UInt64.size := by
  have bound := numbered (min count earlier.length)
  rw [List.take_append_of_le_length (Nat.min_le_right ..)] at bound
  rw [List.take_eq_take_min]
  exact bound

/-- What is known after any schedule. -/
theorem after_leads (created : site.create.1.isOk = true) (moves : List Move)
    (numbered : site.volume.Quiet ∨
      ∀ count, (site.segment (moves.take count)).store.nextId < UInt64.size) :
    ∃ entries, (site.after moves).1.Sound site.homes site.volume (site.after moves).2 entries ∧
      (site.volume.Quiet → (site.after moves).1.Told entries) := by
  obtain ⟨entries, sound, told, -⟩ := begun_sound created
  obtain ⟨others, leads⟩ := sound.run moves numbered
  exact ⟨others, leads.sound, fun quiet => leads.told quiet told⟩

end Site

/-! ## Whatever fails -/

/-- At whatever steps the operating system refuses: no fingerprint is in two places or twice in
one, the counts are those of the places, and what was held at some moment is held from then on.
Page numbers are words, so there is an end to them. -/
theorem held_once_for_good (site : Site) (created : site.create.1.isOk = true) (moves : List Move)
    (numbered : ∀ count, (site.segment (moves.take count)).store.nextId < UInt64.size) :
    (site.held moves).Nodup ∧
      (site.segment moves).size = (site.segment moves).table.size +
        (site.segment moves).pending.size + (site.segment moves).store.entries ∧
      (site.segment moves).evictions =
        (site.segment moves).pending.size + (site.segment moves).store.entries ∧
      ∀ earlier, earlier <+: moves → ∀ fp ∈ site.held earlier, fp ∈ site.held moves := by
  obtain ⟨entries, sound, -⟩ := Site.after_leads created moves (Or.inr numbered)
  have heldEq : site.held moves = (site.segment moves).all entries := sound.segment.held_eq
  refine ⟨?_, ?_, sound.segment.evicted, ?_⟩
  · rw [heldEq]
    exact sound.segment.distinct
  · rw [Site.segment, sound.segment.counted, Segment.all, List.length_append, List.length_append,
      Std.TreeSet.length_toList, sound.segment.table.counted, sound.segment.store.counted]
  · rintro earlier ⟨later, rfl⟩ fp mem
    obtain ⟨old, earlierSound, -⟩ := Site.after_leads created earlier
      (Or.inr (Site.numbered_earlier numbered))
    have oldEq : site.held earlier = (site.segment earlier).all old := earlierSound.segment.held_eq
    have late (count : Nat) : (Traffic.run site.home (later.take count) (site.after earlier).1
        (site.after earlier).2).1.segment.store.nextId < UInt64.size := by
      have bound := numbered (earlier.length + count)
      rw [List.take_length_add_append, Site.segment, Site.after_append] at bound
      exact bound
    obtain ⟨new, leads⟩ := earlierSound.run later (Or.inr late)
    have newEq : site.held (earlier ++ later) = (Traffic.run site.home later (site.after earlier).1
        (site.after earlier).2).1.segment.all new := by
      have read := leads.sound.segment.held_eq
      rw [Site.held, Site.segment, Site.after_append]
      exact read
    rw [newEq]
    exact leads.keeps fp (oldEq ▸ mem)

/-- The page of the second put cannot be written, the third put finds its fingerprint pending
and the fourth one writes the page. -/
theorem held_once_for_good_refused :
    let site := Site.small fun tick => if tick = 1 then some .inputOutput else none
    let moves := [.put 1, .put 2, .put 1, .put 3, .snapshot, .compact]
    site.create.1.isOk = true ∧
      (∀ count, (site.segment (moves.take count)).store.nextId < UInt64.size) ∧
      (site.held moves).Nodup ∧
      ∀ fp ∈ site.held [.put 1, .put 2], fp ∈ site.held moves := by
  intro site moves
  have created : site.create.1.isOk = true := by decide +kernel
  have numbered (count : Nat) : (site.segment (moves.take count)).store.nextId < UInt64.size := by
    have each : ∀ count, count < 7 →
        (site.segment (moves.take count)).store.nextId < UInt64.size := by decide +kernel
    rw [List.take_eq_take_min]
    exact each _ (Nat.lt_succ_of_le (Nat.min_le_right ..))
  have known := held_once_for_good site created moves numbered
  exact ⟨created, numbered, known.1, known.2.2.2 _ ⟨_, rfl⟩⟩

/-! ## While nothing fails -/

/-- In whatever order the steps of the calls come: each put and each test tells whether a put of
the same fingerprint took its step before, nothing fails, no put and no test is forgotten, and
the size counts the distinct fingerprints.  All calls can go on to their ends. -/
theorem answers_right (site : Site) (quiet : site.volume.Quiet) (moves : List Move) :
    (∀ answer ∈ (site.after moves).1.answers, answer.Right (moves.filterMap Move.asked)) ∧
      (∀ ticket : Ticket, ticket.Taken (moves.filterMap Move.asked) →
        (site.after moves).1.Accounts ticket) ∧
      (∀ earlier fp later, moves = earlier ++ .contains fp :: later →
        ∃ result, .contains ⟨(earlier.filterMap Move.asked).length, fp⟩ result ∈
          (site.after moves).1.answers) ∧
      (site.segment moves).size = (sorted (moves.filterMap Move.asked)).length ∧
      ∃ rest, (site.after (moves ++ rest)).1.calls = [] := by
  have created := Site.created_of_quiet quiet
  obtain ⟨entries, sound, tells⟩ := Site.after_leads created moves (Or.inl quiet)
  have told := tells quiet
  have turns := site.after_turns moves
  refine ⟨turns ▸ told.answers, turns ▸ told.complete, ?_, ?_, ?_⟩
  · rintro earlier fp later rfl
    obtain ⟨given, kept⟩ := Traffic.run_answers site.home later
      ((site.after earlier).1.perform site.home (.contains fp) (site.after earlier).2).1
      ((site.after earlier).1.perform site.home (.contains fp) (site.after earlier).2).2
    rw [Site.after_append, Traffic.run_cons, kept, ← site.after_turns earlier]
    exact ⟨_, List.mem_append_left _ (List.mem_append_right _ List.mem_cons_self)⟩
  · rw [Site.segment, sound.segment.counted]
    apply List.Perm.length_eq
    apply (List.perm_ext_iff_of_nodup sound.segment.distinct (sorted_ascending _).nodup).mpr
    intro fp
    rw [told.held, mem_sorted, turns]
  · obtain ⟨rest, empty⟩ := Traffic.run_empties site.home (site.after moves).1 (site.after moves).2
    exact ⟨rest, by rw [Site.after_append, empty]⟩

/-- Two puts of one fingerprint while others evict, flush and merge. -/
theorem answers_right_merging :
    let site := Site.small fun _ => none
    let moves := [.put 1, .put 2, .put 3, .put 1, .contains 4, .run 0, .put 4, .settle 0]
    site.volume.Quiet ∧
      (∀ answer ∈ (site.after moves).1.answers, answer.Right [1, 2, 3, 1, 4]) ∧
      (site.segment moves).size = (sorted [1, 2, 3, 1, 4]).length := by
  intro site moves
  have quiet : site.volume.Quiet := fun _ _ => rfl
  have right := answers_right site quiet moves
  exact ⟨quiet, right.1, right.2.2.2.1⟩

/-- Whatever other calls do meanwhile, a snapshot that is held gives what the segment held when
it was taken, ascending and each once, and then it ends. -/
theorem snapshot_gives_held (site : Site) (quiet : site.volume.Quiet) (moves : List Move)
    {taken : List Fingerprint} {pulls : List Pull} {snapshot : Merge}
    (reads : .reading taken pulls snapshot ∈ (site.after moves).1.calls) :
    Ascending taken ∧ pulls = (List.range pulls.length).map (pullAt taken) ∧
      ∃ earlier later, moves = earlier ++ .snapshot :: later ∧
        ∀ fp, fp ∈ taken ↔ fp ∈ site.held earlier := by
  obtain ⟨entries, sound, -⟩ := Site.after_leads (Site.created_of_quiet quiet) moves (Or.inl quiet)
  obtain ⟨ascending, pulled, -⟩ := sound.calls _ reads quiet
  refine ⟨ascending, pulled, ?_⟩
  have none : site.begun.1.calls = [] := (Site.begun_sound (Site.created_of_quiet quiet)).elim
    fun _ known => known.2.2
  rcases Traffic.run_reading moves reads with ⟨_, _, mem⟩ | ⟨earlier, later, split, takenEq⟩
  · rw [none] at mem
    contradiction
  · refine ⟨earlier, later, split, fun fp => ?_⟩
    rw [takenEq, mem_sorted]
    rfl

/-- A snapshot taken while a merge is under way, with a put and the merge's end before the first
pull. -/
theorem snapshot_gives_held_merging :
    let site := Site.small fun _ => none
    let moves := [.put 1, .put 2, .put 3, .snapshot, .put 4, .run 0, .settle 0, .pull 0]
    site.volume.Quiet ∧ ∃ taken pulls snapshot,
      .reading taken pulls snapshot ∈ (site.after moves).1.calls ∧
        Ascending taken ∧ pulls = (List.range pulls.length).map (pullAt taken) := by
  intro site moves
  have quiet : site.volume.Quiet := fun _ _ => rfl
  have someReading : (site.after moves).1.calls.any (fun call => !call.isMerge) = true := by
    decide +kernel
  obtain ⟨call, mem, reads⟩ := List.any_eq_true.mp someReading
  cases call with
  | merging => exact absurd reads Bool.false_ne_true
  | settling => exact absurd reads Bool.false_ne_true
  | reading taken pulls snapshot =>
      have known := snapshot_gives_held site quiet moves mem
      exact ⟨quiet, taken, pulls, snapshot, mem, known.1, known.2.1⟩

end Segment

end FingerprintSet
