import FingerprintSet.Merge
import FingerprintSet.Proofs.Ascending
import FingerprintSet.Proofs.SortedFile.Reading
import FingerprintSet.Proofs.SortedFile.Writing

/-!
# What a merge gives

The lanes of a merge are kept in the order of their heads, so the first head is the least
value still to come.  A merge therefore gives the values of all its sources ascending and
each once: what it gives is the ascending list with these members.
-/

namespace FingerprintSet

open Storage Volume

variable {before : Volume}

namespace Source

/-- A source gives the given values.  Files are read from among `used` only. -/
def Delivers (volume : Volume) (used : FileId → Prop) (values : List Fingerprint) :
    Source → Prop
  | memory fps => values = fps
  | file reader => reader.Delivers volume used values

theorem Delivers.unique {used : FileId → Prop} {source : Source} {first second : List Fingerprint}
    (delivers : source.Delivers before used first) (also : source.Delivers before used second) :
    first = second := by
  cases source with
  | memory => exact delivers.trans also.symm
  | file => exact SortedFile.Reader.Delivers.unique delivers also

theorem Delivers.exists_mem_iff {used : FileId → Prop} {source : Source}
    {values : List Fingerprint} (delivers : source.Delivers before used values) {fp : Fingerprint} :
    (∃ known, source.Delivers before used known ∧ fp ∈ known) ↔ fp ∈ values := by
  constructor
  · rintro ⟨known, knownDelivers, isValue⟩
    exact delivers.unique knownDelivers ▸ isValue
  · exact fun isValue => ⟨values, delivers, isValue⟩

theorem Delivers.mono {used more : FileId → Prop} {source : Source} {values : List Fingerprint}
    (delivers : source.Delivers before used values) (sub : ∀ id, used id → more id) :
    source.Delivers before more values := by
  cases source with
  | memory => exact delivers
  | file => exact SortedFile.Reader.Delivers.mono delivers sub

theorem Delivers.known {used : FileId → Prop} {source : Source} {values : List Fingerprint}
    (delivers : source.Delivers before used values) : source.Delivers before before.Known values := by
  cases source with
  | memory => exact delivers
  | file => exact SortedFile.Reader.Delivers.known delivers

theorem Delivers.remaining {used : FileId → Prop} {source : Source} {values : List Fingerprint}
    (delivers : source.Delivers before used values) : source.remaining = values.length := by
  cases source with
  | memory => rw [Source.remaining, show values = _ from delivers]
  | file => exact SortedFile.Reader.Delivers.remaining delivers

theorem Delivers.of_changes {used : FileId → Prop} {source : Source} {values : List Fingerprint}
    {after : Volume} {paths : Path → Prop} {files : FileId → Prop}
    (delivers : source.Delivers before used values) (changes : Changes paths files before after)
    (untouched : ∀ id, id < before.contents.size → used id → ¬files id) :
    source.Delivers after used values := by
  cases source with
  | memory => exact delivers
  | file => exact SortedFile.Reader.Delivers.of_changes delivers changes untouched

theorem next_changes (source : Source) (before : Volume) :
    Changes Nowhere NoFile before (source.next before).2 := by
  cases source with
  | memory fps => cases fps <;> exact .refl before
  | file reader => exact reader.next_changes before

theorem next_gives {source : Source} {used : FileId → Prop} {values : List Fingerprint}
    (delivers : source.Delivers before used values) :
    Gives source.next before values fun source after rest => source.Delivers after used rest := by
  cases source with
  | memory fps =>
      obtain rfl : values = fps := delivers
      cases values with
      | nil => exact ⟨_, _, _, rfl, .refl before, rfl, trivial⟩
      | cons fp rest => exact ⟨_, _, _, rfl, .refl before, rest, rfl, rfl⟩
  | file reader =>
      have unfolded : (file reader).next before =
          ((file (reader.next before).1.1, (reader.next before).1.2), (reader.next before).2) := rfl
      obtain ⟨reader, pull, after, result, changes, given⟩ :=
        SortedFile.Reader.next_gives delivers
      refine ⟨file reader, pull, after, ?_, changes, given⟩
      rw [unfolded, result]

end Source

namespace Lane

/-- A lane gives its head and then what its source gives. -/
def Delivers (volume : Volume) (used : FileId → Prop) (values : List Fingerprint)
    (lane : Lane) : Prop :=
  ∃ rest, values = lane.head :: rest ∧ lane.source.Delivers volume used rest

theorem Delivers.unique {used : FileId → Prop} {lane : Lane} {first second : List Fingerprint}
    (delivers : lane.Delivers before used first) (also : lane.Delivers before used second) :
    first = second := by
  obtain ⟨rest, rfl, fromSource⟩ := delivers
  obtain ⟨more, rfl, fromSourceToo⟩ := also
  rw [fromSource.unique fromSourceToo]

theorem head_le_of_before {lane other : Lane} (isBefore : lane.before other = true) :
    lane.head ≤ other.head := by
  simp only [before, Bool.or_eq_true, Bool.and_eq_true, decide_eq_true_eq, beq_iff_eq] at isBefore
  rcases isBefore with below | ⟨same, -⟩
  · exact UInt64.le_of_lt below
  · exact UInt64.le_of_eq same

theorem head_le_of_not_before {lane other : Lane} (notBefore : ¬lane.before other = true) :
    other.head ≤ lane.head := by
  apply UInt64.not_lt.mp
  intro below
  simp [before, below] at notBefore

/-- The first head is the least of the values of all lanes. -/
theorem head_le {lane other : Lane} {lanes : List Lane} {rest : List Fingerprint} {fp : Fingerprint}
    (ordered : (lane :: lanes).Pairwise fun first second => first.head ≤ second.head)
    (mem : other ∈ lane :: lanes) (ascending : (other.head :: rest).Pairwise (· ≤ ·))
    (isValue : fp ∈ other.head :: rest) : lane.head ≤ fp := by
  have headLe : lane.head ≤ other.head := by
    rcases List.mem_cons.mp mem with rfl | mem
    · exact UInt64.le_refl _
    · exact List.rel_of_pairwise_cons ordered mem
  rcases List.mem_cons.mp isValue with rfl | later
  · exact headLe
  · exact UInt64.le_trans headLe (List.rel_of_pairwise_cons ascending later)

end Lane

namespace Merge

/-- The lanes in the order of their heads, each ascending; together they still give exactly
the values in `all`. -/
structure Lanes (volume : Volume) (used : FileId → Prop) (lanes : List Lane)
    (all : Fingerprint → Prop) : Prop where
  each : ∀ lane ∈ lanes, ∃ values, lane.Delivers volume used values ∧ values.Pairwise (· ≤ ·)
  ordered : lanes.Pairwise fun first second => first.head ≤ second.head
  exactly : ∀ fp, all fp ↔ ∃ lane ∈ lanes, ∃ values, lane.Delivers volume used values ∧ fp ∈ values

theorem mem_place {lane other : Lane} {lanes : List Lane} :
    other ∈ place lane lanes ↔ other = lane ∨ other ∈ lanes := by
  induction lanes with
  | nil => simp [place]
  | cons first lanes ih =>
      rw [place]
      split
      · rw [List.mem_cons]
      · rw [List.mem_cons, ih, List.mem_cons]
        exact or_left_comm

theorem place_ordered {lane : Lane} {lanes : List Lane}
    (ordered : lanes.Pairwise fun first second => first.head ≤ second.head) :
    (place lane lanes).Pairwise fun first second => first.head ≤ second.head := by
  induction lanes with
  | nil => exact List.pairwise_singleton _ _
  | cons first lanes ih =>
      rw [List.pairwise_cons] at ordered
      rw [place]
      split
      · rename_i isBefore
        have below := Lane.head_le_of_before isBefore
        refine List.pairwise_cons.mpr ⟨?_, List.pairwise_cons.mpr ordered⟩
        intro other mem
        rcases List.mem_cons.mp mem with rfl | mem
        · exact below
        · exact UInt64.le_trans below (ordered.1 other mem)
      · rename_i notBefore
        refine List.pairwise_cons.mpr ⟨?_, ih ordered.2⟩
        intro other mem
        rcases mem_place.mp mem with rfl | mem
        · exact Lane.head_le_of_not_before notBefore
        · exact ordered.1 other mem

theorem laneValues_place (lane : Lane) (lanes : List Lane) :
    laneValues (place lane lanes) = lane.source.remaining + 1 + laneValues lanes := by
  induction lanes with
  | nil => rfl
  | cons first lanes ih =>
      rw [place]
      split
      · rfl
      · simp only [laneValues, total_cons] at ih ⊢
        rw [ih]
        omega

theorem Lanes.nil (volume : Volume) (used : FileId → Prop) :
    Lanes volume used [] fun _ => False where
  each := by simp
  ordered := List.Pairwise.nil
  exactly := by simp

/-- If each lane still delivers what it did, all of them still give the same. -/
theorem Lanes.still {used more : FileId → Prop} {lanes : List Lane} {all : Fingerprint → Prop}
    {after : Volume} (runs : Lanes before used lanes all)
    (still : ∀ (lane : Lane) values, lane.Delivers before used values →
      lane.Delivers after more values) : Lanes after more lanes all where
  each lane mem := by
    obtain ⟨values, delivers, ascending⟩ := runs.each lane mem
    exact ⟨values, still lane values delivers, ascending⟩
  ordered := runs.ordered
  exactly fp := by
    rw [runs.exactly fp]
    constructor
    · rintro ⟨lane, mem, values, delivers, isValue⟩
      exact ⟨lane, mem, values, still lane values delivers, isValue⟩
    · rintro ⟨lane, mem, values, delivers, isValue⟩
      obtain ⟨known, knownDelivers, -⟩ := runs.each lane mem
      rw [delivers.unique (still lane known knownDelivers)] at isValue
      exact ⟨lane, mem, known, knownDelivers, isValue⟩

theorem Lanes.of_changes {used : FileId → Prop} {lanes : List Lane} {all : Fingerprint → Prop}
    {after : Volume} {paths : Path → Prop} {files : FileId → Prop}
    (runs : Lanes before used lanes all) (changes : Changes paths files before after)
    (untouched : ∀ id, id < before.contents.size → used id → ¬files id) :
    Lanes after used lanes all :=
  runs.still fun _ _ delivers => delivers.imp fun _ ⟨equal, fromSource⟩ =>
    ⟨equal, fromSource.of_changes changes untouched⟩

theorem Lanes.mono {used more : FileId → Prop} {lanes : List Lane} {all : Fingerprint → Prop}
    (runs : Lanes before used lanes all) (sub : ∀ id, used id → more id) :
    Lanes before more lanes all :=
  runs.still fun _ _ delivers => delivers.imp fun _ ⟨equal, fromSource⟩ =>
    ⟨equal, fromSource.mono sub⟩

/-- One more lane brings its values. -/
theorem Lanes.place {used : FileId → Prop} {lanes : List Lane} {all : Fingerprint → Prop}
    {lane : Lane} {values : List Fingerprint} (runs : Lanes before used lanes all)
    (delivers : lane.Delivers before used values) (ascending : values.Pairwise (· ≤ ·)) :
    Lanes before used (place lane lanes) fun fp => all fp ∨ fp ∈ values where
  each := by
    intro other mem
    rcases mem_place.mp mem with rfl | mem
    · exact ⟨values, delivers, ascending⟩
    · exact runs.each other mem
  ordered := place_ordered runs.ordered
  exactly := by
    intro fp
    rw [runs.exactly fp]
    constructor
    · rintro (⟨other, mem, found⟩ | isValue)
      · exact ⟨other, mem_place.mpr (Or.inr mem), found⟩
      · exact ⟨lane, mem_place.mpr (Or.inl rfl), values, delivers, isValue⟩
    · rintro ⟨other, mem, known, knownDelivers, isValue⟩
      rcases mem_place.mp mem with rfl | mem
      · exact Or.inr (delivers.unique knownDelivers ▸ isValue)
      · exact Or.inl ⟨other, mem, known, knownDelivers, isValue⟩

theorem enter_eq (rank : Nat) (source : Source) (lanes : List Lane) (before : Volume) :
    enter rank source lanes before =
      (match (source.next before).1.2 with
        | .value head => pure (.ok (place { head, rank, source := (source.next before).1.1 } lanes))
        | .failed error => pure (.error error)
        | .ended => pure (.ok lanes) : StateM Volume (Except Error (List Lane)))
        (source.next before).2 :=
  rfl

theorem enter_apply (rank : Nat) (source : Source) (lanes : List Lane) (before : Volume) :
    enter rank source lanes before =
      match source.next before with
      | ((next, .value head), after) => (.ok (place { head, rank, source := next } lanes), after)
      | ((_, .failed error), after) => (.error error, after)
      | ((_, .ended), after) => (.ok lanes, after) := by
  rw [enter_eq]
  rcases source.next before with ⟨⟨next, _ | _ | _⟩, after⟩ <;> rfl

/-- Entering a source adds its values to those still to come. -/
def Enters (work : StateM Volume (Except Error (List Lane))) (before : Volume)
    (used : FileId → Prop) (all : Fingerprint → Prop) (count : Nat) : Prop :=
  ∃ result after, work before = (result, after) ∧ Changes Nowhere NoFile before after ∧
    match result with
    | .ok lanes => Lanes after used lanes all ∧ laneValues lanes = count
    | .error _ => ¬before.Quiet

theorem enter_enters {used : FileId → Prop} {lanes : List Lane} {all : Fingerprint → Prop}
    {source : Source} {values : List Fingerprint} (rank : Nat)
    (runs : Lanes before used lanes all) (delivers : source.Delivers before used values)
    (ascending : values.Pairwise (· ≤ ·)) :
    Enters (enter rank source lanes) before used (fun fp => all fp ∨ fp ∈ values)
      (laneValues lanes + values.length) := by
  obtain ⟨next, pull, after, result, changes, given⟩ := Source.next_gives delivers
  have unfolded := enter_apply rank source lanes before
  rw [result] at unfolded
  have still := runs.of_changes changes fun _ _ _ none => none
  cases pull with
  | value head =>
      obtain ⟨rest, rfl, restDelivers⟩ := given
      refine ⟨_, after, unfolded, changes, still.place ⟨rest, rfl, restDelivers⟩ ascending, ?_⟩
      rw [laneValues_place, restDelivers.remaining, List.length_cons]
      omega
  | failed error => exact ⟨_, after, unfolded, changes, given⟩
  | ended =>
      obtain ⟨rfl, -⟩ := given
      refine ⟨_, after, unfolded, changes, ?_, rfl⟩
      simpa using still

/-- All sources together give exactly the values in `all`. -/
structure Sources (volume : Volume) (used : FileId → Prop) (sources : List Source)
    (all : Fingerprint → Prop) : Prop where
  each : ∀ source ∈ sources, ∃ values,
    source.Delivers volume used values ∧ values.Pairwise (· ≤ ·)
  exactly : ∀ fp, all fp ↔ ∃ source ∈ sources, ∃ values,
    source.Delivers volume used values ∧ fp ∈ values

/-- If each source still delivers what it did, all of them still give the same. -/
theorem Sources.still {used more : FileId → Prop} {sources : List Source}
    {all : Fingerprint → Prop} {after : Volume} (gives : Sources before used sources all)
    (still : ∀ (source : Source) values, source.Delivers before used values →
      source.Delivers after more values) : Sources after more sources all where
  each source mem := by
    obtain ⟨values, delivers, ascending⟩ := gives.each source mem
    exact ⟨values, still source values delivers, ascending⟩
  exactly fp := by
    rw [gives.exactly fp]
    constructor
    · rintro ⟨source, mem, values, delivers, isValue⟩
      exact ⟨source, mem, values, still source values delivers, isValue⟩
    · rintro ⟨source, mem, values, delivers, isValue⟩
      obtain ⟨known, knownDelivers, -⟩ := gives.each source mem
      rw [delivers.unique (still source known knownDelivers)] at isValue
      exact ⟨source, mem, known, knownDelivers, isValue⟩

theorem Sources.of_changes {used : FileId → Prop} {sources : List Source}
    {all : Fingerprint → Prop} {after : Volume} {paths : Path → Prop} {files : FileId → Prop}
    (gives : Sources before used sources all) (changes : Changes paths files before after)
    (untouched : ∀ id, id < before.contents.size → used id → ¬files id) :
    Sources after used sources all :=
  gives.still fun _ _ delivers => delivers.of_changes changes untouched

theorem Sources.nil (volume : Volume) (used : FileId → Prop) :
    Sources volume used [] fun _ => False where
  each := by simp
  exactly := by simp

theorem Sources.cons {used : FileId → Prop} {source : Source} {sources : List Source}
    {values : List Fingerprint} {all : Fingerprint → Prop}
    (delivers : source.Delivers before used values) (ascending : values.Pairwise (· ≤ ·))
    (gives : Sources before used sources all) :
    Sources before used (source :: sources) fun fp => fp ∈ values ∨ all fp where
  each := List.forall_mem_cons.mpr ⟨⟨values, delivers, ascending⟩, gives.each⟩
  exactly := by
    intro fp
    simp only [List.mem_cons, exists_eq_or_imp, gives.exactly fp]
    rw [delivers.exists_mem_iff]

theorem Sources.congr {used : FileId → Prop} {sources : List Source}
    {all others : Fingerprint → Prop} (gives : Sources before used sources all)
    (same : ∀ fp, others fp ↔ all fp) : Sources before used sources others where
  each := gives.each
  exactly fp := (same fp).trans (gives.exactly fp)

theorem Sources.mono {used more : FileId → Prop} {sources : List Source}
    {all : Fingerprint → Prop} (gives : Sources before used sources all)
    (sub : ∀ id, used id → more id) : Sources before more sources all :=
  gives.still fun _ _ delivers => delivers.mono sub

/-- Only files that are there are read from. -/
theorem Sources.known {used : FileId → Prop} {sources : List Source} {all : Fingerprint → Prop}
    (gives : Sources before used sources all) : Sources before before.Known sources all :=
  gives.still fun _ _ delivers => delivers.known

theorem start_apply (source : Source) (sources : List Source) (rank : Nat) (lanes : List Lane)
    (before : Volume) :
    start rank lanes (source :: sources) before =
      match enter rank source lanes before with
      | (.ok lanes, after) => start (rank + 1) lanes sources after
      | (.error error, after) => (.error error, after) := by
  have opened : start rank lanes (source :: sources) before =
      (match (enter rank source lanes before).1 with
        | .ok lanes => start (rank + 1) lanes sources
        | .error error => pure (.error error))
        (enter rank source lanes before).2 := rfl
  rw [opened]
  rcases enter rank source lanes before with ⟨_ | _, _⟩ <;> rfl

theorem start_enters {used : FileId → Prop} (sources : List Source) {lanes : List Lane}
    {all more : Fingerprint → Prop} (rank : Nat) (runs : Lanes before used lanes all)
    (gives : Sources before used sources more) :
    Enters (start rank lanes sources) before used (fun fp => all fp ∨ more fp)
      (laneValues lanes + total Source.remaining sources) := by
  induction sources generalizing before lanes all more rank with
  | nil =>
      refine ⟨_, before, rfl, .refl before, ?_, rfl⟩
      have none (fp : Fingerprint) : ¬more fp := by simp [gives.exactly fp]
      have same : (fun fp => all fp ∨ more fp) = all := by
        funext fp
        exact propext (or_iff_left (none fp))
      rw [same]
      exact runs
  | cons source sources ih =>
      obtain ⟨values, delivers, ascending⟩ := gives.each source List.mem_cons_self
      obtain ⟨result, after, entered, changes, good⟩ := enter_enters rank runs delivers ascending
      have opened := start_apply source sources rank lanes before
      rw [entered] at opened
      cases result with
      | error error => exact ⟨_, after, opened, changes, good⟩
      | ok entered =>
          obtain ⟨runsStill, count⟩ := good
          have others : Sources before used sources fun fp => ∃ other ∈ sources, ∃ values,
              other.Delivers before used values ∧ fp ∈ values :=
            ⟨fun other mem => gives.each other (List.mem_cons_of_mem _ mem), fun _ => Iff.rfl⟩
          obtain ⟨last, final, started, moreChanges, holds⟩ :=
            ih (rank + 1) runsStill (others.of_changes changes fun _ _ _ none => none)
          refine ⟨last, final, opened.trans started, changes.trans moreChanges, ?_⟩
          cases last with
          | error error => exact fun quiet => holds (changes.quiet quiet)
          | ok lasting =>
              obtain ⟨runsAll, countAll⟩ := holds
              constructor
              · have same : (fun fp => all fp ∨ more fp) = fun fp =>
                    (all fp ∨ fp ∈ values) ∨ ∃ other ∈ sources, ∃ values,
                      other.Delivers before used values ∧ fp ∈ values := by
                  funext fp
                  simp only [gives.exactly fp, List.mem_cons, exists_eq_or_imp]
                  rw [delivers.exists_mem_iff, or_assoc]
                rw [same]
                exact runsAll
              · rw [countAll, count, total_cons, delivers.remaining, Nat.add_assoc]

/-- A merge that has come so far will give exactly the values in `out`.  Files are read from
among `used` only. -/
def Streams (volume : Volume) (used : FileId → Prop) (out : List Fingerprint) : Merge → Prop
  | fresh sources => Ascending out ∧ Sources volume used sources (· ∈ out)
  | running lanes last => Ascending out ∧ ∃ all, Lanes volume used lanes all ∧
      (∀ fp, last = some fp → ∀ other, all other → fp ≤ other) ∧
      ∀ fp, fp ∈ out ↔ all fp ∧ last ≠ some fp
  | failed => False

theorem Streams.of_changes {used : FileId → Prop} {out : List Fingerprint} {merge : Merge}
    {after : Volume} {paths : Path → Prop} {files : FileId → Prop}
    (streams : merge.Streams before used out) (changes : Changes paths files before after)
    (untouched : ∀ id, id < before.contents.size → used id → ¬files id) :
    merge.Streams after used out := by
  cases merge with
  | fresh sources => exact ⟨streams.1, streams.2.of_changes changes untouched⟩
  | running lanes last =>
      obtain ⟨ascending, all, runs, above, exactly⟩ := streams
      exact ⟨ascending, all, runs.of_changes changes untouched, above, exactly⟩
  | failed => exact streams

theorem Streams.mono {used more : FileId → Prop} {out : List Fingerprint} {merge : Merge}
    (streams : merge.Streams before used out) (sub : ∀ id, used id → more id) :
    merge.Streams before more out := by
  cases merge with
  | fresh sources => exact ⟨streams.1, streams.2.mono sub⟩
  | running lanes last =>
      obtain ⟨ascending, all, runs, above, exactly⟩ := streams
      exact ⟨ascending, all, runs.mono sub, above, exactly⟩
  | failed => exact streams

/-- A stream read from pages stays one while nothing happens to pages. -/
theorem Streams.paged {out : List Fingerprint} {merge : Merge} {after : Volume}
    {paths : Path → Prop} {files : FileId → Prop}
    (streams : merge.Streams before (SortedFile.IsPage before) out)
    (changes : Changes paths files before after)
    (pages : ∀ id, files id → ¬SortedFile.IsPage before id) :
    merge.Streams after (SortedFile.IsPage after) out := by
  have untouched (id : FileId) (isPage : SortedFile.IsPage before id) : ¬files id :=
    fun touched => pages id touched isPage
  exact (streams.of_changes changes fun id _ => untouched id).mono fun id isPage =>
    isPage.of_changes changes (untouched id isPage)

/-- The head of the first lane is the least value still to come. -/
theorem Lanes.least {used : FileId → Prop} {lane : Lane} {lanes : List Lane}
    {all : Fingerprint → Prop} (runs : Lanes before used (lane :: lanes) all)
    {fp : Fingerprint} (isValue : all fp) : lane.head ≤ fp := by
  obtain ⟨other, mem, values, delivers, isValue⟩ := (runs.exactly fp).mp isValue
  obtain ⟨known, knownDelivers, ascending⟩ := runs.each other mem
  obtain rfl := delivers.unique knownDelivers
  obtain ⟨rest, rfl, -⟩ := delivers
  exact Lane.head_le runs.ordered mem ascending isValue

/-- Without its first lane a merge still gives the values of the others. -/
theorem Lanes.tail {used : FileId → Prop} {lane : Lane} {lanes : List Lane}
    {all : Fingerprint → Prop} (runs : Lanes before used (lane :: lanes) all) :
    ∃ rest others, lane.source.Delivers before used rest ∧ rest.Pairwise (· ≤ ·) ∧
      Lanes before used lanes others ∧ ∀ fp, all fp ↔ fp = lane.head ∨ others fp ∨ fp ∈ rest := by
  obtain ⟨values, ⟨rest, rfl, delivers⟩, ascending⟩ := runs.each lane List.mem_cons_self
  refine ⟨rest, fun fp => ∃ other ∈ lanes, ∃ values, other.Delivers before used values ∧
    fp ∈ values, delivers, ascending.tail, ?_, ?_⟩
  · exact
      { each := fun other mem => runs.each other (List.mem_cons_of_mem _ mem)
        ordered := runs.ordered.tail
        exactly := fun _ => Iff.rfl }
  · intro fp
    have first : (∃ known, lane.Delivers before used known ∧ fp ∈ known) ↔
        fp = lane.head ∨ fp ∈ rest := by
      rw [← List.mem_cons]
      constructor
      · rintro ⟨known, knownDelivers, isValue⟩
        exact knownDelivers.unique ⟨rest, rfl, delivers⟩ ▸ isValue
      · exact fun isValue => ⟨_, ⟨rest, rfl, delivers⟩, isValue⟩
    simp only [runs.exactly fp, List.mem_cons, exists_eq_or_imp, first, or_assoc]
    rw [or_comm (a := fp ∈ rest)]

theorem advance_eq (last : Option Fingerprint) (bound : Nat) (lane : Lane) (lanes : List Lane)
    (before : Volume) :
    advance last (bound + 1) (lane :: lanes) before =
      (match (enter lane.rank lane.source lanes before).1 with
        | .error error => pure (failed, .failed error)
        | .ok lanes =>
            if last = some lane.head then advance last bound lanes
            else pure (running lanes (some lane.head), .value lane.head) :
        StateM Volume (Merge × Pull))
        (enter lane.rank lane.source lanes before).2 :=
  rfl

theorem advance_apply (last : Option Fingerprint) (bound : Nat) (lane : Lane) (lanes : List Lane)
    (before : Volume) :
    advance last (bound + 1) (lane :: lanes) before =
      match enter lane.rank lane.source lanes before with
      | (.error error, after) => ((failed, .failed error), after)
      | (.ok lanes, after) =>
          if last = some lane.head then advance last bound lanes after
          else ((running lanes (some lane.head), .value lane.head), after) := by
  rw [advance_eq]
  rcases enter lane.rank lane.source lanes before with ⟨_ | _, _⟩
  · rfl
  · show (if _ then _ else _ : StateM Volume (Merge × Pull)) _ = _
    split <;> rfl

/-- What is still to be given, by what the lanes hold and what was given last. -/
structure Remains (all : Fingerprint → Prop) (last : Option Fingerprint) (out : List Fingerprint) :
    Prop where
  ascending : Ascending out
  above : ∀ fp, last = some fp → ∀ other, all other → fp ≤ other
  exactly : ∀ fp, fp ∈ out ↔ all fp ∧ last ≠ some fp

section Remains

variable {all others : Fingerprint → Prop} {head : Fingerprint} {last : Option Fingerprint}
  {out : List Fingerprint}

/-- A value that was given already is passed by. -/
theorem Remains.skip (remains : Remains all last out)
    (split : ∀ fp, all fp ↔ fp = head ∨ others fp) (repeated : last = some head) :
    Remains others last out where
  ascending := remains.ascending
  above fp lastEq other isValue := remains.above fp lastEq other ((split other).mpr (Or.inr isValue))
  exactly fp := by
    rw [remains.exactly fp, split fp, repeated]
    constructor
    · rintro ⟨same | isValue, different⟩
      · exact absurd (congrArg some same.symm) different
      · exact ⟨isValue, different⟩
    · rintro ⟨isValue, different⟩
      exact ⟨Or.inr isValue, different⟩

/-- The least value that differs from the last one is the first that is given, and then the others
are still to come. -/
theorem Remains.take (remains : Remains all last out) (split : ∀ fp, all fp ↔ fp = head ∨ others fp)
    (least : ∀ other, all other → head ≤ other) (new : last ≠ some head) :
    ∃ rest, out = head :: rest ∧ Remains others (some head) rest := by
  have headMem : head ∈ out := (remains.exactly head).mpr ⟨(split head).mpr (Or.inl rfl), new⟩
  cases out with
  | nil => exact absurd headMem List.not_mem_nil
  | cons first rest =>
      have same := remains.ascending.head_eq headMem fun other mem =>
        least other ((remains.exactly other).mp mem).1
      subst same
      refine ⟨rest, rfl, remains.ascending.tail, ?_, ?_⟩
      · rintro _ ⟨⟩ other isValue
        exact least other ((split other).mpr (Or.inr isValue))
      · intro fp
        rw [remains.ascending.mem_tail_iff, remains.exactly fp, split fp]
        constructor
        · rintro ⟨⟨same | isValue, -⟩, different⟩
          · exact absurd same different
          · exact ⟨isValue, fun same => different (Option.some.inj same).symm⟩
        · rintro ⟨isValue, different⟩
          have isNot : fp ≠ first := fun same => different (congrArg some same.symm)
          refine ⟨⟨Or.inr isValue, fun lastEq => isNot ?_⟩, isNot⟩
          exact UInt64.le_antisymm (remains.above fp lastEq first ((split first).mpr (Or.inl rfl)))
            (least fp ((split fp).mpr (Or.inr isValue)))

/-- Where nothing is held nothing is still to be given. -/
theorem Remains.nothing (remains : Remains all last out) (none : ∀ fp, ¬all fp) : out = [] := by
  apply List.eq_nil_iff_forall_not_mem.mpr
  exact fun fp mem => none fp ((remains.exactly fp).mp mem).1

/-- Lanes that hold what is still to be given. -/
theorem Remains.streams {used : FileId → Prop} {lanes : List Lane} (remains : Remains all last out)
    (runs : Lanes before used lanes all) : (running lanes last).Streams before used out :=
  ⟨remains.ascending, all, runs, remains.above, remains.exactly⟩

end Remains

theorem advance_gives {used : FileId → Prop} {lanes : List Lane} {last : Option Fingerprint}
    {out : List Fingerprint} (bound : Nat) (enough : laneValues lanes = bound)
    (streams : (running lanes last).Streams before used out) :
    Gives (advance last bound lanes) before out
      (fun merge after rest => merge.Streams after used rest ∧ merge.remaining < bound)
      fun merge after => merge.Streams after used [] := by
  induction bound generalizing before lanes with
  | zero =>
      obtain ⟨ascending, all, runs, above, exactly⟩ := id streams
      cases lanes with
      | nil =>
          have remains : Remains all last out := ⟨ascending, above, exactly⟩
          have empty := remains.nothing fun fp isValue => by simpa using (runs.exactly fp).mp isValue
          exact ⟨_, _, _, rfl, .refl before, empty, empty ▸ streams⟩
      | cons lane lanes => simp [laneValues] at enough
  | succ bound ih =>
      obtain ⟨ascending, all, runs, above, exactly⟩ := streams
      cases lanes with
      | nil => simp [laneValues] at enough
      | cons lane lanes =>
          have remains : Remains all last out := ⟨ascending, above, exactly⟩
          obtain ⟨rest, others, delivers, restAscending, tail, split⟩ := runs.tail
          obtain ⟨result, after, enteredEq, changes, good⟩ :=
            enter_enters lane.rank tail delivers restAscending
          have unfolded := advance_apply last bound lane lanes before
          rw [enteredEq] at unfolded
          cases result with
          | error error => exact ⟨_, _, after, unfolded, changes, good⟩
          | ok entered =>
              obtain ⟨runsStill, count⟩ := good
              have fewer : laneValues entered = bound := by
                rw [laneValues, total_cons, delivers.remaining] at enough
                rw [count, laneValues]
                omega
              by_cases repeated : last = some lane.head
              · have goesOn := (remains.skip split repeated).streams runsStill
                obtain ⟨merge, pull, final, advanced, more, given⟩ := ih fewer goesOn
                refine ⟨merge, pull, final, ?_, changes.trans more, ?_⟩
                · rw [unfolded]
                  exact (if_pos repeated).trans advanced
                · cases pull with
                  | value fp =>
                      obtain ⟨more, equal, still, less⟩ := given
                      exact ⟨more, equal, still, Nat.lt_succ_of_lt less⟩
                  | failed error => exact fun quiet => given (changes.quiet quiet)
                  | ended => exact given
              · obtain ⟨behind, rfl, still⟩ := remains.take split (fun _ => runs.least) repeated
                refine ⟨_, _, after, unfolded.trans (if_neg repeated), changes, behind, rfl,
                  still.streams runsStill, ?_⟩
                rw [remaining, fewer]
                exact Nat.lt_succ_self bound

theorem next_fresh_eq (sources : List Source) (before : Volume) :
    (fresh sources).next before =
      (match (start 0 [] sources before).1 with
        | .error error => pure (failed, .failed error)
        | .ok lanes => advance none (laneValues lanes) lanes : StateM Volume (Merge × Pull))
        (start 0 [] sources before).2 :=
  rfl

theorem next_fresh_apply (sources : List Source) (before : Volume) :
    (fresh sources).next before =
      match start 0 [] sources before with
      | (.error error, after) => ((failed, .failed error), after)
      | (.ok lanes, after) => advance none (laneValues lanes) lanes after := by
  rw [next_fresh_eq]
  rcases start 0 [] sources before with ⟨_ | _, _⟩ <;> rfl

/-- Asking a merge gives the least value still to come. -/
theorem next_gives {used : FileId → Prop} {merge : Merge} {out : List Fingerprint}
    (streams : merge.Streams before used out) :
    Gives merge.next before out
      (fun next after rest => next.Streams after used rest ∧ next.remaining < merge.remaining)
      fun next after => next.Streams after used [] := by
  cases merge with
  | failed => exact streams.elim
  | running lanes last => exact advance_gives (laneValues lanes) rfl streams
  | fresh sources =>
      obtain ⟨ascending, gives⟩ := streams
      obtain ⟨result, after, started, changes, good⟩ :=
        start_enters sources 0 (Lanes.nil before used) gives
      have unfolded := next_fresh_apply sources before
      rw [started] at unfolded
      cases result with
      | error error => exact ⟨_, _, after, unfolded, changes, good⟩
      | ok lanes =>
          obtain ⟨runs, count⟩ := good
          have running : (running lanes none).Streams after used out := by
            refine ⟨ascending, _, runs, ?_, ?_⟩ <;> simp
          have total : laneValues lanes = (fresh sources).remaining := by
            simpa [laneValues, remaining] using count
          obtain ⟨merge, pull, final, advanced, more, given⟩ :=
            advance_gives (laneValues lanes) rfl running
          refine ⟨merge, pull, final, unfolded.trans advanced, changes.trans more, ?_⟩
          rw [← total]
          cases pull with
          | value fp => exact given
          | failed error => exact fun quiet => given (changes.quiet quiet)
          | ended => exact given

/-! ## Asking any merge -/

theorem enter_changes (rank : Nat) (source : Source) (lanes : List Lane) (before : Volume) :
    Changes Nowhere NoFile before (enter rank source lanes before).2 := by
  have asked := source.next_changes before
  rw [enter_apply]
  revert asked
  rcases source.next before with ⟨⟨next, _ | _ | _⟩, after⟩ <;> exact id

theorem start_changes (sources : List Source) (rank : Nat) (lanes : List Lane)
    (before : Volume) : Changes Nowhere NoFile before (start rank lanes sources before).2 := by
  induction sources generalizing rank lanes before with
  | nil => exact .refl before
  | cons source sources ih =>
      have entered := enter_changes rank source lanes before
      rw [start_apply]
      revert entered
      rcases enter rank source lanes before with ⟨error | lanes, after⟩
      · exact id
      · exact fun entered => entered.trans (ih _ _ _)

theorem advance_changes (last : Option Fingerprint) (bound : Nat) (lanes : List Lane)
    (before : Volume) : Changes Nowhere NoFile before (advance last bound lanes before).2 := by
  induction bound generalizing lanes before with
  | zero => cases lanes <;> exact .refl before
  | succ bound ih =>
      cases lanes with
      | nil => exact .refl before
      | cons lane lanes =>
          have entered := enter_changes lane.rank lane.source lanes before
          rw [advance_apply]
          revert entered
          rcases enter lane.rank lane.source lanes before with ⟨error | lanes, after⟩
          · exact id
          · intro entered
            dsimp only
            split
            · exact entered.trans (ih _ _)
            · exact entered

/-- Asking any merge changes nothing. -/
theorem next_changes (merge : Merge) (before : Volume) :
    Changes Nowhere NoFile before (merge.next before).2 := by
  cases merge with
  | failed => exact .refl before
  | running lanes last => exact advance_changes last (laneValues lanes) lanes before
  | fresh sources =>
      have started := start_changes sources 0 [] before
      rw [next_fresh_apply]
      revert started
      rcases start 0 [] sources before with ⟨error | lanes, after⟩
      · exact id
      · exact fun started => started.trans (advance_changes _ _ _ _)

/-! ## Giving everything to a sink -/

section Fold

variable {σ : Type} {sink : σ → Fingerprint → Task σ} {giveUp : σ → Task Unit}
  {paths : Path → Prop} {files used : FileId → Prop} {whole : List Fingerprint}
  {taken : σ → List Fingerprint → Volume → Prop}

theorem foldTo_eq (bound : Nat) (merge : Merge) (state : σ) (before : Volume) :
    foldTo sink giveUp (bound + 1) merge state before =
      (match (merge.next before).1.2 with
        | .ended => pure state
        | .failed error => do giveUp state; throw error
        | .value fp => do
            let state ← sink state fp
            foldTo sink giveUp bound (merge.next before).1.1 state : Task σ)
        (merge.next before).2 :=
  rfl

theorem foldTo_apply (bound : Nat) (merge : Merge) (state : σ) (before : Volume) :
    foldTo sink giveUp (bound + 1) merge state before =
      match merge.next before with
      | ((_, .ended), after) => (.ok state, after)
      | ((_, .failed error), after) => (do giveUp state; throw error : Task σ) after
      | ((next, .value fp), after) =>
          (do let state ← sink state fp; foldTo sink giveUp bound next state : Task σ) after := by
  rw [foldTo_eq]
  rcases merge.next before with ⟨⟨_, _ | _ | _⟩, _⟩ <;> rfl

/-- A sink that takes in one value after the other has taken in all that a merge gives. -/
theorem foldTo_runs (apart : ∀ id, used id → ¬files id)
    (steady : ∀ state done before after, before.Sound → Changes Nowhere NoFile before after →
      taken state done before → taken state done after)
    (sinks : ∀ state done fp rest before, before.Sound → done ++ fp :: rest = whole →
      taken state done before →
        Runs (sink state fp) before paths files fun state after => taken state (done ++ [fp]) after)
    (givesUp : ∀ state done before, before.Sound → taken state done before →
      Runs (giveUp state) before paths files fun _ _ => True)
    (bound : Nat) {merge : Merge} {state : σ} {done out : List Fingerprint}
    (sound : before.Sound) (split : done ++ out = whole)
    (streams : merge.Streams before used out) (enough : merge.remaining < bound)
    (already : taken state done before) :
    Runs (foldTo sink giveUp bound merge state) before paths files fun state after =>
      taken state whole after := by
  induction bound generalizing before merge state done out with
  | zero => exact absurd enough (Nat.not_lt_zero _)
  | succ bound ih =>
      obtain ⟨next, pull, after, asked, changes, given⟩ := next_gives streams
      have unfolded : foldTo sink giveUp (bound + 1) merge state before = _ :=
        foldTo_apply bound merge state before
      rw [asked] at unfolded
      have stillTaken := steady state done before after sound changes already
      cases pull with
      | ended =>
          obtain ⟨rfl, -⟩ := given
          rw [List.append_nil] at split
          exact Meets.of_ok unfolded ⟨changes.ofNothing, split ▸ stillTaken⟩
      | failed error =>
          dsimp only at unfolded
          apply Meets.comesTo unfolded
          have gaveUp : Meets (giveUp state) after
              (fun _ final => Changes paths files before final)
              fun _ final => Changes paths files before final ∧ ¬before.Quiet :=
            Meets.mono (givesUp state done after (changes.sound sound) stillTaken)
              (fun _ _ ⟨more, _⟩ => changes.ofNothing.trans more)
              fun _ _ ⟨more, _⟩ => ⟨changes.ofNothing.trans more, given⟩
          apply Meets.bind gaveUp
          exact fun _ final more => Meets.of_error rfl ⟨more, given⟩
      | value fp =>
          obtain ⟨rest, rfl, streamsStill, fewer⟩ := given
          dsimp only at unfolded
          apply Meets.comesTo unfolded
          apply Runs.since changes.ofNothing
          apply Runs.bind (sinks state done fp rest after (changes.sound sound) split stillTaken)
          intro state final more takenMore
          apply ih (more.sound (changes.sound sound)) _ _ (Nat.lt_of_lt_of_le fewer _) takenMore
          · exact rest
          · simpa using split
          · exact streamsStill.of_changes more fun id _ isUsed => apart id isUsed
          · exact Nat.le_of_lt_succ enough

theorem fold_runs (apart : ∀ id, used id → ¬files id)
    (steady : ∀ state done before after, before.Sound → Changes Nowhere NoFile before after →
      taken state done before → taken state done after)
    (sinks : ∀ state done fp rest before, before.Sound → done ++ fp :: rest = whole →
      taken state done before →
        Runs (sink state fp) before paths files fun state after => taken state (done ++ [fp]) after)
    (givesUp : ∀ state done before, before.Sound → taken state done before →
      Runs (giveUp state) before paths files fun _ _ => True)
    {merge : Merge} {state : σ} {done out : List Fingerprint}
    (sound : before.Sound) (split : done ++ out = whole)
    (streams : merge.Streams before used out) (already : taken state done before) :
    Runs (merge.fold sink giveUp state) before paths files fun state after =>
      taken state whole after :=
  foldTo_runs apart steady sinks givesUp _ sound split streams (Nat.lt_succ_self _) already

end Fold

/-! ## Writing everything to a file -/

/-- Another state of a writer, with these entries in its file. -/
def Carries (writer last : SortedFile.Writer) (fps : List Fingerprint) (volume : Volume) : Prop :=
  last.Sound volume fps ∧ last.target = writer.target

theorem Carries.file {writer last : SortedFile.Writer} {fps : List Fingerprint}
    (carries : Carries writer last fps before) : last.file = writer.file :=
  congrArg (·.2.2.1) carries.2

/-- A merge of other files is written out behind what the file has already. -/
theorem fold_push_runs {used : FileId → Prop} {merge : Merge} {writer : SortedFile.Writer}
    {done out : List Fingerprint} (sound : before.Sound) (taken : writer.Sound before done)
    (streams : merge.Streams before used out) (apart : ∀ id, used id → ¬Only writer.file id) :
    Runs (merge.fold SortedFile.Writer.push SortedFile.Writer.abandon writer) before Nowhere (Only writer.file) fun last after =>
      last.Sound after (done ++ out) ∧ last.target = writer.target := by
  have steady (last : SortedFile.Writer) (fps : List Fingerprint) (before after : Volume)
      (sound : before.Sound) (changes : Changes Nowhere NoFile before after)
      (carries : Carries writer last fps before) : Carries writer last fps after :=
    ⟨carries.1.of_changes sound changes (fun nowhere => nowhere) fun none => none, carries.2⟩
  have sinks (last : SortedFile.Writer) (fps : List Fingerprint) (fp : Fingerprint)
      (rest : List Fingerprint) (before : Volume) (sound : before.Sound)
      (_ : fps ++ fp :: rest = done ++ out) (carries : Carries writer last fps before) :
      Runs (last.push fp) before Nowhere (Only writer.file) fun last after =>
        Carries writer last (fps ++ [fp]) after := by
    rw [← carries.file]
    apply (SortedFile.Writer.push_runs sound carries.1 fp).mono
    exact fun pushed after _ ⟨pushedTaken, same⟩ => ⟨pushedTaken, same.trans carries.2⟩
  have givesUp (last : SortedFile.Writer) (fps : List Fingerprint) (before : Volume)
      (sound : before.Sound) (carries : Carries writer last fps before) :
      Runs last.abandon before Nowhere (Only writer.file) fun _ _ => True := by
    rw [← carries.file]
    exact SortedFile.Writer.abandon_runs (sound.stored _ _ carries.1.bound)
  exact fold_runs apart steady sinks givesUp sound rfl streams ⟨taken, rfl⟩

end Merge

end FingerprintSet
