import FingerprintSet.Proofs.BoundedSet.Watching
import FingerprintSet.Proofs.Merge

/-!
# Merges of sources that fail

A source of any kind gives some values and then stops, at its end or with an error.  What it gives
is a matter of the source and its file alone, as long as no step is refused.  A merge of ascending
sources gives the distinct values of all of them in their order.  If a source fails it gives a
first part of these, then one error, and then nothing more.
-/

namespace FingerprintSet

open Storage Volume

/-! ## Volumes on which nothing is refused -/

/-- The volume at its first tick, with nothing refused. -/
def Storage.Volume.calm (volume : Volume) : Volume :=
  { volume with
    faults := fun _ => none
    clock := 0 }

variable {before : Volume}

theorem calm_quiet (volume : Volume) : volume.calm.Quiet :=
  fun _ _ => rfl

/-- Whoever only watches leaves what a volume is like when it is calm. -/
theorem Storage.Watches.calm {α : Type} {step : Volume → α × Volume} (watches : Watches step)
    (volume : Volume) : (step volume).2.calm = volume.calm := by
  obtain ⟨clock, same⟩ := watches volume
  rw [same]
  rfl

/-- Work comes to what it comes to on a calm volume, unless a step is refused. -/
def Candid {α : Type} (work : Access α) (before : Volume) : Prop :=
  (work before).1 = (work before.calm).1 ∨
    (∃ failure, (work before).1 = .error failure) ∧ ¬before.Quiet

theorem readAt_candid (handle : Handle) (start length : Nat) (before : Volume) :
    Candid (readAt handle start length) before := by
  rw [Candid, readAt, attempt_apply, attempt_apply]
  cases refusal : before.faults before.clock with
  | some errno =>
      refine Or.inr ⟨⟨_, rfl⟩, fun quiet => ?_⟩
      simp [quiet before.clock (Nat.le_refl _)] at refusal
  | none =>
      left
      cases handle <;> rfl

/-- What follows may depend on the result but not on the volume. -/
theorem Candid.bind {α β : Type} {work : Access α} {next : α → Access β}
    (candid : Candid work before)
    (same : ∀ a first second, (next a first).1 = (next a second).1) :
    Candid (work >>= next) before := by
  rw [Candid] at candid ⊢
  rw [bind_apply, bind_apply]
  generalize work before = ended at candid ⊢
  generalize work before.calm = calmed at candid ⊢
  rcases ended with ⟨result, after⟩
  rcases calmed with ⟨other, later⟩
  rcases candid with rfl | ⟨⟨failure, rfl⟩, refused⟩
  · left
    cases result with
    | ok a => exact same a after later
    | error failure => rfl
  · exact Or.inr ⟨⟨failure, rfl⟩, refused⟩

namespace SortedFile.Reader

theorem fill_candid (reader : Reader) (before : Volume) : Candid reader.fill before := by
  rw [fill]
  split
  · exact Or.inl rfl
  · have refills : Candid reader.refill before :=
      (readAt_candid reader.handle reader.position readAheadLength before).bind fun _ _ _ => rfl
    refine refills.bind fun filled first second => ?_
    split <;> rfl

theorem next_calm (reader : Reader) (before : Volume) :
    (reader.next before).1 = (reader.next before.calm).1 ∨
      (∃ next error, (reader.next before).1 = (next, .failed error)) ∧ ¬before.Quiet := by
  rw [next_apply, next_apply]
  split
  · exact Or.inl rfl
  · split
    · exact Or.inl rfl
    · have filled : (reader.fill before).1 = _ ∨ _ := reader.fill_candid before
      generalize reader.fill before = ended at filled ⊢
      generalize reader.fill before.calm = calmed at filled ⊢
      rcases ended with ⟨result, after⟩
      rcases calmed with ⟨other, later⟩
      rcases filled with rfl | ⟨⟨failure, rfl⟩, refused⟩
      · left
        cases result <;> rfl
      · exact Or.inr ⟨⟨_, _, rfl⟩, refused⟩

/-- Reading ahead leaves alone what the reader counts and sums up. -/
theorem fill_keeps {reader filled : Reader} {after : Volume}
    (ended : reader.fill before = (.ok filled, after)) :
    filled.remaining = reader.remaining ∧ filled.label = reader.label ∧
      filled.finished = reader.finished := by
  rw [fill] at ended
  split at ended
  · obtain rfl := Except.ok.inj (Prod.mk.inj ended).1
    exact ⟨rfl, rfl, rfl⟩
  · obtain ⟨refilled, middle, refills, rest⟩ := exists_of_bind_ok ended
    obtain ⟨more, _, -, made⟩ := exists_of_bind_ok refills
    obtain rfl := Except.ok.inj (Prod.mk.inj made).1
    split at rest
    · obtain rfl := Except.ok.inj (Prod.mk.inj rest).1
      exact ⟨rfl, rfl, rfl⟩
    · cases (Prod.mk.inj rest).1

/-- A reader that gives a value has one less to give and has added it to its sum. -/
theorem next_value {reader next : Reader} {fp : Fingerprint} {after : Volume}
    (asked : reader.next before = ((next, .value fp), after)) :
    reader.remaining = next.remaining + 1 ∧
      next.label = (reader.path, reader.header, Fnv.absorbFingerprint reader.sum fp) ∧
      next.finished = false := by
  rw [next_apply] at asked
  split at asked
  · exact nomatch (Prod.mk.inj (Prod.mk.inj asked).1).2
  · rename_i unfinished
    split at asked
    · split at asked <;> exact nomatch (Prod.mk.inj (Prod.mk.inj asked).1).2
    · rename_i some
      split at asked
      · rename_i filled later fills
        obtain ⟨taken, -⟩ := Prod.mk.inj asked
        obtain ⟨rfl, value⟩ := Prod.mk.inj taken
        obtain ⟨remaining, label, finished⟩ := fill_keeps fills
        obtain ⟨path, header, sum⟩ := Prod.mk.inj label |>.imp_right Prod.mk.inj
        refine ⟨?_, ?_, finished.trans (by simpa using unfinished)⟩
        · show reader.remaining = filled.remaining - 1 + 1
          omega
        · show (filled.path, filled.header, Fnv.absorbFingerprint filled.sum filled.take.2) = _
          rw [path, header, sum, Pull.value.inj value]
      · exact nomatch (Prod.mk.inj (Prod.mk.inj asked).1).2

/-- A reader comes to its end only behind all its entries and with the right sum of them. -/
theorem next_ended {reader next : Reader} {after : Volume}
    (asked : reader.next before = ((next, .ended), after)) (unfinished : reader.finished = false) :
    reader.remaining = 0 ∧ reader.sum = reader.header.checksum := by
  rw [next_apply, if_neg (by simp [unfinished])] at asked
  split at asked
  · rename_i none
    split at asked
    · rename_i right
      exact ⟨none, right⟩
    · exact nomatch (Prod.mk.inj (Prod.mk.inj asked).1).2
  · split at asked <;> exact nomatch (Prod.mk.inj (Prod.mk.inj asked).1).2

end SortedFile.Reader

theorem Source.next_file (reader : SortedFile.Reader) (before : Volume) :
    (file reader).next before =
      ((file (reader.next before).1.1, (reader.next before).1.2), (reader.next before).2) :=
  rfl

theorem Source.next_calm (source : Source) (before : Volume) :
    (source.next before).1 = (source.next before.calm).1 ∨
      (∃ next error, (source.next before).1 = (next, .failed error)) ∧ ¬before.Quiet := by
  cases source with
  | memory fps => cases fps <;> exact Or.inl rfl
  | file reader =>
      rw [next_file, next_file]
      rcases reader.next_calm before with same | ⟨⟨next, error, failed⟩, refused⟩
      · exact Or.inl (by rw [same])
      · exact Or.inr ⟨⟨file next, error, by rw [failed]⟩, refused⟩

/-! ## What a source gives -/

namespace Source

/-- Ask a source until it stops.  At most `bound` values are asked for. -/
def recite : Nat → Source → StateM Volume (List Fingerprint × Pull)
  | 0, _ => pure ([], .ended)
  | bound + 1, source => do
      let (source, pull) ← source.next
      match pull with
      | .value fp => do
          let (fps, ending) ← recite bound source
          pure (fp :: fps, ending)
      | ending => pure ([], ending)

/-- The values that a source gives if no step is refused. -/
def values (volume : Volume) (source : Source) : List Fingerprint :=
  (source.recite (source.remaining + 1) volume.calm).1.1

/-- How a source stops if no step is refused. -/
def ending (volume : Volume) (source : Source) : Pull :=
  (source.recite (source.remaining + 1) volume.calm).1.2

theorem recite_apply (bound : Nat) (source : Source) (before : Volume) :
    (source.recite (bound + 1) before).1 =
      match source.next before with
      | ((next, .value fp), after) => ((next.recite bound after).1.map (fp :: ·) id)
      | ((_, ending), _) => ([], ending) := by
  have unfolded : source.recite (bound + 1) before =
      (match (source.next before).1.2 with
        | .value fp => do
            let (fps, ending) ← recite bound (source.next before).1.1
            pure (fp :: fps, ending)
        | ending => pure ([], ending) : StateM Volume (List Fingerprint × Pull))
        (source.next before).2 := rfl
  rw [unfolded]
  rcases source.next before with ⟨⟨_, _ | _ | _⟩, _⟩ <;> rfl

/-- What a source gives on a quiet volume does not depend on the time. -/
theorem recite_calm (bound : Nat) (source : Source) (quiet : before.Quiet) :
    (source.recite bound before).1 = (source.recite bound before.calm).1 := by
  induction bound generalizing source before with
  | zero => rfl
  | succ bound ih =>
      have same := (source.next_calm before).resolve_right fun refused => refused.2 quiet
      have here := source.next_watches.calm before
      have there := source.next_watches.calm before.calm
      have quietHere := (source.next_changes before).quiet quiet
      have quietThere := (source.next_changes before.calm).quiet (calm_quiet before)
      rw [recite_apply, recite_apply]
      generalize source.next before = ended at same here quietHere ⊢
      generalize source.next before.calm = calmed at same there quietThere ⊢
      rcases ended with ⟨⟨next, pull⟩, after⟩
      rcases calmed with ⟨other, later⟩
      obtain rfl : (next, pull) = other := same
      cases pull with
      | value fp =>
          dsimp only at here there quietHere quietThere ⊢
          rw [ih next quietHere, ih next quietThere, here, there]
          rfl
      | failed error => rfl
      | ended => rfl

/-- Each value is one less that remains. -/
theorem remaining_of_value {source next : Source} {fp : Fingerprint} {after : Volume}
    (asked : source.next before = ((next, .value fp), after)) :
    source.remaining = next.remaining + 1 := by
  cases source with
  | memory fps =>
      cases fps with
      | nil => exact nomatch (Prod.mk.inj (Prod.mk.inj asked).1).2
      | cons first rest =>
          obtain rfl : memory rest = next := (Prod.mk.inj (Prod.mk.inj asked).1).1
          rfl
  | file reader =>
      rw [next_file] at asked
      rcases given : reader.next before with ⟨⟨last, pull⟩, volume⟩
      rw [given] at asked
      obtain ⟨same, -⟩ := Prod.mk.inj asked
      obtain ⟨rfl, rfl⟩ := Prod.mk.inj same
      exact (SortedFile.Reader.next_value given).1

/-- A source stops at its end or with an error. -/
theorem ending_ne_value (source : Source) (volume : Volume) (fp : Fingerprint) :
    source.ending volume ≠ .value fp := by
  have stops (bound : Nat) (source : Source) (before : Volume) :
      (source.recite bound before).1.2 ≠ .value fp := by
    induction bound generalizing source before with
    | zero => exact nofun
    | succ bound ih =>
        rw [recite_apply]
        rcases source.next before with ⟨⟨next, _ | _ | _⟩, after⟩
        · exact ih next after
        · exact nofun
        · exact nofun
  exact stops _ source _

/-- What comes of asking a source, in terms of what it gives. -/
inductive Comes (before : Volume) (source : Source) : Source → Pull → Prop
  | value {next : Source} {fp : Fingerprint} (values : source.values before = fp :: next.values before)
      (ending : source.ending before = next.ending before)
      (fewer : source.remaining = next.remaining + 1) : Comes before source next (.value fp)
  | failed {next : Source} {error : Error} (ending : source.ending before = .failed error)
      (values : source.values before = []) : Comes before source next (.failed error)
  | refused {next : Source} {error : Error} (refused : ¬before.Quiet) :
      Comes before source next (.failed error)
  | ended {next : Source} (ending : source.ending before = .ended)
      (values : source.values before = []) : Comes before source next .ended

theorem next_comes (source : Source) (before : Volume) :
    ∃ next pull after, source.next before = ((next, pull), after) ∧
      Changes Nowhere NoFile before after ∧ after.calm = before.calm ∧
        source.Comes before next pull := by
  have plain := source.next_calm before
  have changes := source.next_changes before
  have calm := source.next_watches.calm before
  rcases asked : source.next before with ⟨⟨next, pull⟩, after⟩
  rw [asked] at plain changes calm
  refine ⟨next, pull, after, rfl, changes, calm, ?_⟩
  rcases plain with same | ⟨⟨_, error, failed⟩, refused⟩
  · have told : (source.values before, source.ending before) =
        (source.recite (source.remaining + 1) before.calm).1 := rfl
    have quiet := (source.next_changes before.calm).quiet (calm_quiet before)
    have calmed := source.next_watches.calm before.calm
    rw [recite_apply] at told
    have one : ∀ fp, pull = .value fp → source.remaining = next.remaining + 1 := by
      rintro fp rfl
      exact remaining_of_value asked
    generalize source.next before.calm = other at same told quiet calmed
    rcases other with ⟨result, later⟩
    obtain rfl : (next, pull) = result := same
    cases pull with
    | value fp =>
        dsimp only at told quiet calmed
        rw [recite_calm _ _ quiet, calmed, one fp rfl] at told
        obtain ⟨values, ending⟩ := Prod.mk.inj told
        exact .value values ending (one fp rfl)
    | failed error =>
        obtain ⟨values, ending⟩ := Prod.mk.inj told
        exact .failed ending values
    | ended =>
        obtain ⟨values, ending⟩ := Prod.mk.inj told
        exact .ended ending values
  · obtain rfl : pull = .failed error := congrArg Prod.snd failed
    exact .refused refused

end Source

namespace Merge

/-- The lanes in the order of their heads, each ascending.  Together they hold the values in `all`,
and their sources will stop with the errors in `errors`. -/
structure Standing (volume : Volume) (lanes : List Lane) (all : Fingerprint → Prop)
    (errors : Error → Prop) : Prop where
  each : ∀ lane ∈ lanes, (lane.head :: lane.source.values volume).Pairwise (· ≤ ·)
  ordered : lanes.Pairwise fun first second => first.head ≤ second.head
  exactly : ∀ fp, all fp ↔ ∃ lane ∈ lanes, fp ∈ lane.head :: lane.source.values volume
  failing : ∀ error, errors error ↔ ∃ lane ∈ lanes, lane.source.ending volume = .failed error

section Standing

variable {after : Volume} {lanes : List Lane} {all others : Fingerprint → Prop}
  {errors : Error → Prop} {source : Source}

theorem Standing.nil (volume : Volume) : Standing volume [] (fun _ => False) fun _ => False where
  each := by simp
  ordered := List.Pairwise.nil
  exactly := by simp
  failing := by simp

theorem Standing.of_calm (standing : Standing before lanes all errors)
    (calm : after.calm = before.calm) : Standing after lanes all errors := by
  have values (source : Source) : source.values after = source.values before := by
    rw [Source.values, Source.values, calm]
  have ending (source : Source) : source.ending after = source.ending before := by
    rw [Source.ending, Source.ending, calm]
  exact
    { each := by simpa only [values] using standing.each
      ordered := standing.ordered
      exactly := by simpa only [values] using standing.exactly
      failing := by simpa only [ending] using standing.failing }

theorem Standing.congr {more : Error → Prop} (standing : Standing before lanes all errors)
    (sameValues : ∀ fp, others fp ↔ all fp) (sameErrors : ∀ error, more error ↔ errors error) :
    Standing before lanes others more where
  each := standing.each
  ordered := standing.ordered
  exactly fp := (sameValues fp).trans (standing.exactly fp)
  failing error := (sameErrors error).trans (standing.failing error)

/-- One more lane brings its values and its error. -/
theorem Standing.place (standing : Standing before lanes all errors) {lane : Lane}
    (ascending : (lane.head :: lane.source.values before).Pairwise (· ≤ ·)) :
    Standing before (place lane lanes)
      (fun fp => all fp ∨ fp ∈ lane.head :: lane.source.values before)
      fun error => errors error ∨ lane.source.ending before = .failed error where
  each other mem := by
    rcases mem_place.mp mem with rfl | mem
    · exact ascending
    · exact standing.each other mem
  ordered := place_ordered standing.ordered
  exactly fp := by simp only [mem_place, standing.exactly fp, exists_eq_or_imp, or_comm]
  failing error := by simp only [mem_place, standing.failing error, exists_eq_or_imp, or_comm]

/-- The head of the first lane is the least value that is held. -/
theorem Standing.least {lane : Lane} (standing : Standing before (lane :: lanes) all errors)
    {fp : Fingerprint} (isValue : all fp) : lane.head ≤ fp := by
  obtain ⟨other, mem, isValue⟩ := (standing.exactly fp).mp isValue
  exact Lane.head_le standing.ordered mem (standing.each other mem) isValue

/-- The lanes behind the first one. -/
theorem Standing.tail {lane : Lane} (standing : Standing before (lane :: lanes) all errors) :
    Standing before lanes (fun fp => ∃ lane ∈ lanes, fp ∈ lane.head :: lane.source.values before)
      fun error => ∃ lane ∈ lanes, lane.source.ending before = .failed error where
  each other mem := standing.each other (List.mem_cons_of_mem _ mem)
  ordered := standing.ordered.tail
  exactly _ := Iff.rfl
  failing _ := Iff.rfl

end Standing

/-- Work that sets up lanes with the given values and errors, or fails with one of the errors. -/
def SetsUp (work : StateM Volume (Except Error (List Lane))) (before : Volume)
    (all : Fingerprint → Prop) (errors : Error → Prop) (count : Nat) : Prop :=
  ∃ result after, work before = (result, after) ∧ Changes Nowhere NoFile before after ∧
    after.calm = before.calm ∧
      match result with
      | .ok lanes => Standing after lanes all errors ∧ laneValues lanes ≤ count
      | .error error => errors error ∨ ¬before.Quiet

theorem enter_setsUp {lanes : List Lane} {all : Fingerprint → Prop} {errors : Error → Prop}
    {source : Source} (rank : Nat) (standing : Standing before lanes all errors)
    (ascending : (source.values before).Pairwise (· ≤ ·)) :
    SetsUp (enter rank source lanes) before (fun fp => all fp ∨ fp ∈ source.values before)
      (fun error => errors error ∨ source.ending before = .failed error)
      (laneValues lanes + source.remaining) := by
  obtain ⟨next, pull, after, asked, changes, calm, comes⟩ := source.next_comes before
  have unfolded := enter_apply rank source lanes before
  rw [asked] at unfolded
  cases comes with
  | value values ending fewer =>
      refine ⟨_, after, unfolded, changes, calm, ?_, ?_⟩
      · rw [values] at ascending ⊢
        rw [ending]
        exact (standing.place ascending).of_calm calm
      · rw [laneValues_place, fewer]
        exact Nat.le_of_eq (Nat.add_comm _ _)
  | failed ending values => exact ⟨_, after, unfolded, changes, calm, Or.inl (Or.inr ending)⟩
  | refused refused => exact ⟨_, after, unfolded, changes, calm, Or.inr refused⟩
  | ended ending values =>
      refine ⟨_, after, unfolded, changes, calm, ?_, Nat.le_add_right _ _⟩
      apply (standing.of_calm calm).congr
      · simp [values]
      · simp [ending]

theorem start_setsUp (sources : List Source) {lanes : List Lane} {all : Fingerprint → Prop}
    {errors : Error → Prop} (rank : Nat) (standing : Standing before lanes all errors)
    (ascending : ∀ source ∈ sources, (source.values before).Pairwise (· ≤ ·)) :
    SetsUp (start rank lanes sources) before
      (fun fp => all fp ∨ ∃ source ∈ sources, fp ∈ source.values before)
      (fun error => errors error ∨ ∃ source ∈ sources, source.ending before = .failed error)
      (laneValues lanes + total Source.remaining sources) := by
  induction sources generalizing before lanes all errors rank with
  | nil =>
      refine ⟨_, before, rfl, .refl before, rfl, standing.congr ?_ ?_, Nat.le_refl _⟩ <;> simp
  | cons source sources ih =>
      rw [List.forall_mem_cons] at ascending
      obtain ⟨result, after, entered, changes, calm, good⟩ :=
        enter_setsUp rank standing ascending.1
      have opened := start_apply source sources rank lanes before
      rw [entered] at opened
      cases result with
      | error error =>
          refine ⟨_, after, opened, changes, calm, good.imp_left ?_⟩
          exact Or.imp_right fun failing => ⟨source, List.mem_cons_self, failing⟩
      | ok entered =>
          obtain ⟨standingStill, count⟩ := good
          have same (other : Source) : other.values after = other.values before := by
            rw [Source.values, Source.values, calm]
          have sameEnding (other : Source) : other.ending after = other.ending before := by
            rw [Source.ending, Source.ending, calm]
          obtain ⟨last, final, started, more, calmed, holds⟩ :=
            ih (rank + 1) standingStill (by simpa only [same] using ascending.2)
          refine ⟨last, final, opened.trans started, changes.trans more, calmed.trans calm, ?_⟩
          cases last with
          | error error =>
              refine holds.imp ?_ fun refused quiet => refused (changes.quiet quiet)
              simp only [sameEnding, List.mem_cons, exists_eq_or_imp, or_assoc]
              exact id
          | ok lasting =>
              refine ⟨holds.1.congr ?_ ?_, ?_⟩
              · simp only [same, List.mem_cons, exists_eq_or_imp, or_assoc, implies_true]
              · simp only [sameEnding, List.mem_cons, exists_eq_or_imp, or_assoc, implies_true]
              · rw [total_cons]
                omega

/-- What a merge is still to give, and the errors that its sources will stop with. -/
def Pending (volume : Volume) (out : List Fingerprint) (errors : Error → Prop) : Merge → Prop
  | fresh sources => (∀ source ∈ sources, (source.values volume).Pairwise (· ≤ ·)) ∧
      out = sorted (sources.flatMap (·.values volume)) ∧
      ∀ error, errors error ↔ ∃ source ∈ sources, source.ending volume = .failed error
  | running lanes last => ∃ all, Standing volume lanes all errors ∧ Remains all last out
  | failed => False

/-- What comes of asking a merge. -/
inductive Comes (before after : Volume) (out : List Fingerprint) (errors : Error → Prop) :
    Merge → Pull → Prop
  | value {next : Merge} {fp : Fingerprint} {rest : List Fingerprint} (split : out = fp :: rest)
      (pending : next.Pending after rest errors) : Comes before after out errors next (.value fp)
  | failed {error : Error} (why : errors error ∨ ¬before.Quiet) :
      Comes before after out errors failed (.failed error)
  | ended {last : Option Fingerprint} (empty : out = []) (none : ∀ error, ¬errors error) :
      Comes before after out errors (running [] last) .ended

theorem advance_comes {lanes : List Lane} {last : Option Fingerprint} {out : List Fingerprint}
    {errors : Error → Prop} (bound : Nat) (enough : laneValues lanes ≤ bound)
    (pending : (running lanes last).Pending before out errors) :
    ∃ next pull after, advance last bound lanes before = ((next, pull), after) ∧
      Changes Nowhere NoFile before after ∧ after.calm = before.calm ∧
        Comes before after out errors next pull := by
  induction bound generalizing before lanes with
  | zero =>
      cases lanes with
      | nil => 
          obtain ⟨all, standing, remains⟩ := pending
          refine ⟨_, _, _, rfl, .refl before, rfl, .ended ?_ ?_⟩
          · exact remains.nothing fun fp => by simp [standing.exactly fp]
          · exact fun error => by simp [standing.failing error]
      | cons lane lanes => simp [laneValues] at enough
  | succ bound ih =>
      obtain ⟨all, standing, remains⟩ := pending
      cases lanes with
      | nil =>
          refine ⟨_, _, _, rfl, .refl before, rfl, .ended ?_ ?_⟩
          · exact remains.nothing fun fp => by simp [standing.exactly fp]
          · exact fun error => by simp [standing.failing error]
      | cons lane lanes =>
          obtain ⟨result, after, entered, changes, calm, good⟩ :=
            enter_setsUp lane.rank standing.tail (standing.each lane List.mem_cons_self).tail
          have unfolded := advance_apply last bound lane lanes before
          rw [entered] at unfolded
          have sameErrors (error : Error) : errors error ↔
              (∃ other ∈ lanes, other.source.ending before = .failed error) ∨
                lane.source.ending before = .failed error := by
            rw [standing.failing error]
            simp only [List.mem_cons, exists_eq_or_imp, or_comm]
          cases result with
          | error error =>
              exact ⟨_, _, after, unfolded, changes, calm, .failed (good.imp_left (sameErrors error).mpr)⟩
          | ok admitted =>
              obtain ⟨others, count⟩ := good
              have standingStill := others.congr (fun _ => Iff.rfl) sameErrors
              have split (fp : Fingerprint) : all fp ↔ fp = lane.head ∨
                  ((∃ other ∈ lanes, fp ∈ other.head :: other.source.values before) ∨
                    fp ∈ lane.source.values before) := by
                rw [standing.exactly fp]
                simp only [List.mem_cons, exists_eq_or_imp, or_assoc]
                rw [or_comm (a := fp ∈ lane.source.values before)]
              by_cases repeated : last = some lane.head
              · have fewer : laneValues admitted ≤ bound := by
                  rw [laneValues, total_cons, ← laneValues] at enough
                  omega
                obtain ⟨next, pull, final, advanced, more, calmed, comes⟩ :=
                  ih fewer ⟨_, standingStill, remains.skip split repeated⟩
                refine ⟨next, pull, final, ?_, changes.trans more, calmed.trans calm, ?_⟩
                · rw [unfolded]
                  exact (if_pos repeated).trans advanced
                · cases comes with
                  | value split pending => exact .value split pending
                  | failed why =>
                      exact .failed (why.imp_right fun refused quiet => refused (changes.quiet quiet))
                  | ended empty none => exact .ended empty none
              · obtain ⟨rest, splitOut, still⟩ :=
                  remains.take split (fun _ => standing.least) repeated
                exact ⟨_, _, after, unfolded.trans (if_neg repeated), changes, calm,
                  .value splitOut ⟨_, standingStill, still⟩⟩

/-- Asking a merge gives the first value that is still to be given, and stops it behind the last one,
or earlier if a source fails. -/
theorem next_comes {merge : Merge} {out : List Fingerprint} {errors : Error → Prop}
    (pending : merge.Pending before out errors) :
    ∃ next pull after, merge.next before = ((next, pull), after) ∧
      Changes Nowhere NoFile before after ∧ after.calm = before.calm ∧
        Comes before after out errors next pull := by
  cases merge with
  | failed => exact pending.elim
  | running lanes last => exact advance_comes (laneValues lanes) (Nat.le_refl _) pending
  | fresh sources =>
      obtain ⟨ascending, rfl, failing⟩ := pending
      obtain ⟨result, after, started, changes, calm, good⟩ :=
        start_setsUp sources 0 (Standing.nil before) ascending
      have unfolded := next_fresh_apply sources before
      rw [started] at unfolded
      have sameErrors (error : Error) : errors error ↔
          False ∨ ∃ source ∈ sources, source.ending before = .failed error := by
        rw [failing, false_or]
      cases result with
      | error error =>
          exact ⟨_, _, after, unfolded, changes, calm,
            .failed (good.imp_left (sameErrors error).mpr)⟩
      | ok lanes =>
          have standing := good.1.congr (fun _ => Iff.rfl) sameErrors
          have remains : Remains (fun fp => False ∨ ∃ source ∈ sources, fp ∈ source.values before)
              none (sorted (sources.flatMap (·.values before))) :=
            { ascending := sorted_ascending _
              above := by simp
              exactly := by simp }
          obtain ⟨next, pull, final, advanced, more, calmed, comes⟩ :=
            advance_comes (laneValues lanes) (Nat.le_refl _) ⟨_, standing, remains⟩
          refine ⟨next, pull, final, unfolded.trans advanced, changes.trans more,
            calmed.trans calm, ?_⟩
          cases comes with
          | value split pending => exact .value split pending
          | failed why =>
              exact .failed (why.imp_right fun refused quiet => refused (changes.quiet quiet))
          | ended empty none => exact .ended empty none

/-! ## Asking again and again -/

/-- Ask a merge so many times. -/
def ask : Nat → Merge → StateM Volume (Merge × List Pull)
  | 0, merge => pure (merge, [])
  | asks + 1, merge => do
      let (merge, pull) ← merge.next
      let (merge, pulls) ← ask asks merge
      pure (merge, pull :: pulls)

theorem ask_succ (asks : Nat) (merge : Merge) (before : Volume) :
    (ask (asks + 1) merge before).1 =
      ((ask asks (merge.next before).1.1 (merge.next before).2).1.1,
        (merge.next before).1.2 ::
          (ask asks (merge.next before).1.1 (merge.next before).2).1.2) :=
  rfl

/-- A merge that has stopped. -/
inductive Stopped : Merge → Prop
  | ended (last : Option Fingerprint) : Stopped (running [] last)
  | failed : Stopped failed

/-- A merge that has stopped gives nothing more. -/
theorem ask_stopped {merge : Merge} (stopped : merge.Stopped) (asks : Nat) (before : Volume) :
    (ask asks merge before).1 = (merge, List.replicate asks .ended) := by
  induction asks generalizing before with
  | zero => rfl
  | succ asks ih =>
      have again : merge.next before = ((merge, .ended), before) := by cases stopped <;> rfl
      rw [ask_succ, again, ih]
      rfl

/-- What a merge gives when it is asked again and again: some values, then its end or an error, and
nothing more. -/
def Tells (merge : Merge) (before : Volume) (given : List Fingerprint) (ending : Pull) : Prop :=
  ∃ last, last.Stopped ∧ ∀ more, (ask (given.length + 1 + more) merge before).1 =
    (last, given.map .value ++ ending :: List.replicate more .ended)

theorem Tells.stops {merge next : Merge} {pull : Pull} {after : Volume} (stopped : next.Stopped)
    (asked : merge.next before = ((next, pull), after)) : merge.Tells before [] pull := by
  refine ⟨next, stopped, fun more => ?_⟩
  rw [List.length_nil, Nat.zero_add, Nat.add_comm, ask_succ, asked, ask_stopped stopped]
  rfl

theorem Tells.goesOn {merge next : Merge} {fp : Fingerprint} {given : List Fingerprint}
    {ending : Pull} {after : Volume} (asked : merge.next before = ((next, .value fp), after))
    (tells : next.Tells after given ending) : merge.Tells before (fp :: given) ending := by
  obtain ⟨last, stopped, told⟩ := tells
  refine ⟨last, stopped, fun more => ?_⟩
  rw [List.length_cons, Nat.add_right_comm, ask_succ, asked, told]
  rfl

/-- What a merge has given when it stopped, and how it stopped. -/
inductive Gave (quiet : Prop) (out : List Fingerprint) (errors : Error → Prop) :
    List Fingerprint → Pull → Prop
  | all (none : ∀ error, ¬errors error) : Gave quiet out errors out .ended
  | part {given : List Fingerprint} {error : Error} (initial : given <+: out)
      (why : errors error ∨ ¬quiet) : Gave quiet out errors given (.failed error)

/-- A merge gives all that it is to give, or a first part and an error, and nothing more. -/
theorem exists_tells {merge : Merge} {out : List Fingerprint} {errors : Error → Prop}
    (pending : merge.Pending before out errors) :
    ∃ given ending, merge.Tells before given ending ∧ Gave before.Quiet out errors given ending := by
  induction out generalizing before merge with
  | nil =>
      obtain ⟨next, pull, after, asked, changes, calm, comes⟩ := next_comes pending
      cases comes with
      | value split => exact nomatch split
      | failed why => exact ⟨[], _, .stops .failed asked, .part List.nil_prefix why⟩
      | ended empty none => exact ⟨[], _, .stops (.ended _) asked, .all none⟩
  | cons fp rest ih =>
      obtain ⟨next, pull, after, asked, changes, calm, comes⟩ := next_comes pending
      cases comes with
      | value split pending =>
          obtain ⟨rfl, rfl⟩ := List.cons.inj split
          obtain ⟨given, ending, tells, gave⟩ := ih pending
          refine ⟨fp :: given, ending, .goesOn asked tells, ?_⟩
          cases gave with
          | all none => exact .all none
          | part initial why =>
              exact .part ((List.prefix_cons_inj fp).mpr initial)
                (why.imp_right fun refused quiet => refused (changes.quiet quiet))
      | failed why => exact ⟨[], _, .stops .failed asked, .part List.nil_prefix why⟩
      | ended empty none => exact nomatch empty

end Merge

/-- A file that is read to its end without an error has given all its entries, and they have the
checksum that its header says. -/
theorem Source.file_ended {reader : SortedFile.Reader} (unfinished : reader.finished = false)
    (ended : (file reader).ending before = .ended) :
    ((file reader).values before).length = reader.remaining ∧
      ((file reader).values before).foldl Fnv.absorbFingerprint reader.sum =
        reader.header.checksum := by
  generalize given : (file reader).values before = values
  induction values generalizing reader with
  | nil =>
      obtain ⟨next, pull, after, asked, -, -, comes⟩ := (file reader).next_comes before.calm
      rw [next_file] at asked
      rcases read : reader.next before.calm with ⟨⟨last, answer⟩, later⟩
      rw [read] at asked
      cases asked
      cases comes with
      | value values => exact nomatch given.symm.trans values
      | failed ending => exact nomatch ended.symm.trans ending
      | refused refused => exact absurd (calm_quiet before) refused
      | ended =>
          obtain ⟨none, right⟩ := SortedFile.Reader.next_ended read unfinished
          exact ⟨none.symm, right⟩
  | cons fp rest ih =>
      obtain ⟨next, pull, after, asked, -, -, comes⟩ := (file reader).next_comes before.calm
      rw [next_file] at asked
      rcases read : reader.next before.calm with ⟨⟨last, answer⟩, later⟩
      rw [read] at asked
      cases asked
      cases comes with
      | value values ending =>
          obtain ⟨rfl, rfl⟩ := List.cons.inj (given.symm.trans values)
          obtain ⟨remaining, label, still⟩ := SortedFile.Reader.next_value read
          obtain ⟨-, header, sum⟩ := Prod.mk.inj label |>.imp_right Prod.mk.inj
          obtain ⟨length, right⟩ := ih still (ending.symm.trans ended) rfl
          rw [List.length_cons, length, List.foldl_cons, ← sum, remaining, ← header]
          exact ⟨rfl, right⟩
      | failed ending => exact nomatch ended.symm.trans ending
      | refused refused => exact absurd (calm_quiet before) refused
      | ended ending values => exact nomatch given.symm.trans values

/-! ## Merges of any sources -/

namespace Merge

/-- Whatever sources are merged, ascending as they are, some of their distinct values are given in
order, from the least on, and then the merge stops and gives nothing more.  It comes to its end only
with all values given and all files read to their ends, their entries having the checksums that the
headers say.  Otherwise it stops with the error of one of the sources, or with a refusal. -/
theorem sources_in_order (before : Volume) (sources : List Source)
    (ascending : ∀ source ∈ sources, (source.values before).Pairwise (· ≤ ·)) :
    ∃ given ending, (fresh sources).Tells before given ending ∧
      given <+: sorted (sources.flatMap (·.values before)) ∧
      (ending = .ended → given = sorted (sources.flatMap (·.values before)) ∧
        (∀ source ∈ sources, source.ending before = .ended) ∧
        ∀ reader, .file reader ∈ sources → reader.finished = false →
          ((Source.file reader).values before).length = reader.remaining ∧
          ((Source.file reader).values before).foldl Fnv.absorbFingerprint reader.sum =
            reader.header.checksum) ∧
      (ending ≠ .ended → ∃ error, ending = .failed error ∧
        ((∃ source ∈ sources, source.ending before = .failed error) ∨ ¬before.Quiet)) ∧
      (before.Quiet → (ending = .ended ↔ ∀ source ∈ sources, source.ending before = .ended)) := by
  obtain ⟨given, ending, tells, gave⟩ := @exists_tells before (fresh sources) _ _
    ⟨ascending, rfl, fun _ => Iff.rfl⟩
  refine ⟨given, ending, tells, ?_⟩
  cases gave with
  | all none =>
      have well (source : Source) (mem : source ∈ sources) : source.ending before = .ended := by
        cases ends : source.ending before with
        | value fp => exact absurd ends (source.ending_ne_value before fp)
        | failed error => exact absurd ⟨source, mem, ends⟩ (none error)
        | ended => rfl
      refine ⟨List.prefix_refl _, fun _ => ⟨rfl, well, fun reader mem unfinished => ?_⟩,
        fun different => absurd rfl different, fun _ => ⟨fun _ => well, fun _ => rfl⟩⟩
      exact Source.file_ended unfinished (well _ mem)
  | @part _ error initial why =>
      refine ⟨initial, nofun, fun _ => ⟨error, rfl, why⟩, fun quiet => ⟨nofun, fun well => ?_⟩⟩
      obtain ⟨source, mem, failing⟩ := why.resolve_right (not_not_intro quiet)
      exact nomatch (well source mem).symm.trans failing

/-- A file of three entries, and one of two that says another checksum than they have. -/
def spoiled : Volume :=
  (Volume.bind
    { contents := #[SortedFile.fileBytes .page [2, 4, 8],
        (SortedFile.fileBytes .page [5, 9]).setIfInBounds 16 0] } ["a"] (.file 0)).bind ["b"] (.file 1)

/-- Values in memory, one of them twice, and the two files. -/
def spoiledSources : List Source :=
  Source.memory [1, 4, 4, 7] :: ["a", "b"].filterMap fun name =>
    (SortedFile.Reader.openAt [name] .page spoiled).1.toOption.map Source.file

/-- The merge stops with the error of the second file, whatever the other sources still have. -/
theorem sources_in_order_spoiled :
    ∃ given, (fresh spoiledSources).Tells spoiled given (.failed (.corrupt ["b"] .checksumMismatch)) ∧
      given <+: [1, 2, 4, 5, 7, 8, 9] := by
  have values : spoiledSources.map (·.values spoiled) = [[1, 4, 4, 7], [2, 4, 8], [5, 9]] := by
    decide +kernel
  have endings : spoiledSources.map (·.ending spoiled) =
      [.ended, .ended, .failed (.corrupt ["b"] .checksumMismatch)] := by decide +kernel
  have quiet : spoiled.Quiet := fun _ _ => rfl
  have ascending (source : Source) (mem : source ∈ spoiledSources) :
      (source.values spoiled).Pairwise (· ≤ ·) := by
    have all : ∀ fps ∈ spoiledSources.map (·.values spoiled), fps.Pairwise (· ≤ ·) := by
      rw [values]
      decide
    exact all _ (List.mem_map_of_mem mem)
  obtain ⟨given, ending, tells, initial, -, failing, ended⟩ :=
    sources_in_order spoiled spoiledSources ascending
  have unended : ending ≠ .ended := by
    intro same
    have well : ∀ ending ∈ spoiledSources.map (·.ending spoiled), ending = .ended := by
      simpa using (ended quiet).mp same
    rw [endings] at well
    exact absurd well (by decide)
  obtain ⟨error, rfl, ⟨source, mem, same⟩ | refused⟩ := failing unended
  · have among : Pull.failed error ∈ spoiledSources.map (·.ending spoiled) :=
      List.mem_map.mpr ⟨source, mem, same⟩
    have right : error = .corrupt ["b"] .checksumMismatch := by simpa [endings] using among
    have out : sorted (spoiledSources.flatMap (·.values spoiled)) = [1, 2, 4, 5, 7, 8, 9] := by
      rw [List.flatMap, values]
      decide +kernel
    exact ⟨given, right ▸ tells, out ▸ initial⟩
  · exact absurd quiet refused

end Merge

end FingerprintSet
