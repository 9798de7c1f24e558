import FingerprintSet.Proofs.Segment.Spending

/-!
# Operations that may fail

An operation that fails leaves what the segment held where it was, or moved from place to place,
and a put may have taken its fingerprint in; and no reader of the pages is left behind.  So a
segment on which nothing else goes on can be put to and merged again and again, whatever the
volume refuses, as long as there are page numbers.
-/

namespace FingerprintSet

open Storage Volume SortedFile

namespace Segment

/-- Nothing goes on on a segment, whatever failed before, and so many page numbers were given out
at most. -/
structure Idle (homes : Homes) (volume : Volume) (entries : PageId → List Fingerprint)
    (spent : Nat) (segment : Segment) : Prop where
  sound : segment.Sound homes volume entries
  readers : segment.activeReaders = 0
  spent : segment.store.nextId ≤ spent

variable {homes : Homes} {before : Volume} {entries : PageId → List Fingerprint} {spent : Nat}
  {segment last : Segment}

/-- An idle segment after an operation.  It holds nothing but what it held and, perhaps, what it was
to gain. -/
def Endures (homes : Homes) (after : Volume) (entries : PageId → List Fingerprint)
    (segment : Segment) (gained : List Fingerprint) (spent : Nat) (last : Segment) : Prop :=
  ∃ others, last.Idle homes after others spent ∧
    last.store.directory = segment.store.directory ∧
    ∀ fp ∈ last.all others, fp ∈ segment.all entries ∨ fp ∈ gained

/-- A segment at rest is idle, and it has given out no more numbers than it may have entries, twice
over. -/
theorem Rests.isIdle (rests : segment.Rests homes before entries)
    (most : 2 * countLimit ≤ spent) : segment.Idle homes before entries spent where
  sound := rests.sound
  readers := rests.idle
  spent := by
    have less := rests.sound.contents_lt
    have room := rests.room
    dsimp only [Room, PageId] at room
    refine Nat.le_trans (m := 2 * countLimit) ?_ most
    omega

theorem Idle.mono {more : Nat} (idle : segment.Idle homes before entries spent)
    (below : spent ≤ more) : segment.Idle homes before entries more :=
  { idle with spent := Nat.le_trans idle.spent below }

/-- Work outside the directory of a segment leaves the segment idle. -/
theorem Idle.of_changes {paths : Path → Prop} {after : Volume}
    (idle : segment.Idle homes before entries spent) (volumeSound : before.Sound)
    (changes : Changes paths NoFile before after)
    (outside : ∀ path, Within segment.store.directory path → ¬paths path) :
    segment.Idle homes after entries spent :=
  { idle with sound := idle.sound.of_changes volumeSound changes outside }

/-- What a segment became is what an operation leaves if nothing reads the pages any more. -/
theorem Becomes.endures {after : Volume} {gains gained : List Fingerprint}
    {others : PageId → List Fingerprint} {count : Nat}
    (becomes : Becomes homes after entries segment gains others last) (sub : gains ⊆ gained)
    (readers : last.activeReaders = 0) (idle : segment.Idle homes before entries spent)
    (spends : last.store.nextId ≤ segment.store.nextId + count) :
    Endures homes after entries segment gained (spent + count) last := by
  refine ⟨others, ⟨becomes.sound, readers, ?_⟩, becomes.directory, fun fp mem => ?_⟩
  · exact Nat.le_trans spends (Nat.add_le_add_right idle.spent count)
  · rw [becomes.holds.mem_iff, List.mem_append] at mem
    exact mem.symm.imp_right fun gain => sub gain

/-- A merge that was prepared on an idle segment is run and settled. -/
theorem offered_falters {after : Volume} (volumeSound : after.Sound) {gained : List Fingerprint}
    {others : PageId → List Fingerprint} {job : CompactionJob}
    (moves : Moves homes after entries segment gained others last)
    (offers : Offers segment last after others (some job)) (few : last.store.nextId < numberLimit) :
    Keeping.Runs (runCompaction job) last after segment.Pages NoFile
      (fun _ final volume => Falters homes volume entries segment gained final)
      fun final volume => Falters homes volume entries segment gained final := by
  apply (offered_settles volumeSound moves offers few).mono
  · rintro _ final volume _ ⟨becomes, idle, -⟩
    exact ⟨others, becomes, idle⟩
  · exact fun _ _ _ falters => falters

/-- A put leaves an idle segment idle. -/
theorem Idle.put_runs (idle : segment.Idle homes before entries spent) (volumeSound : before.Sound)
    (few : spent + 2 < numberLimit) (fp : Fingerprint) :
    Keeping.Runs (put (homes.home fp) fp) segment before segment.Pages NoFile
      (fun _ last after => Endures homes after entries segment [fp] (spent + 2) last)
      fun last after => Endures homes after entries segment [fp] (spent + 2) last := by
  have room : segment.store.nextId < numberLimit :=
    Nat.lt_of_le_of_lt (Nat.le_trans idle.spent (Nat.le_add_right _ 2)) few
  suffices falters : Keeping.Runs (put (homes.home fp) fp) segment before segment.Pages NoFile
      (fun _ last after => ∃ gains, gains ⊆ [fp] ∧ Falters homes after entries segment gains last)
      fun last after => ∃ gains, gains ⊆ [fp] ∧ Falters homes after entries segment gains last by
    apply (falters.leaving (put_spends (homes.home fp) fp)).mono
    · rintro _ last after - ⟨⟨gains, sub, others, becomes, readers⟩, spends⟩
      exact becomes.endures sub readers idle spends.store.numbers
    · rintro last after - ⟨⟨gains, sub, others, becomes, readers⟩, spends⟩
      exact becomes.endures sub readers idle spends.store.numbers
  have begins := ((beginPut_runs volumeSound idle.sound room fp).widen (pagePath_pages segment)
    fun _ _ none => none).leaving (beginPut_spends (homes.home fp) fp)
  apply Keeping.Runs.bind (begins.mono (fun _ _ _ _ holds => holds) _)
  · rintro step last middle changes ⟨leaves, spends⟩
    cases step with
    | known =>
        obtain ⟨-, moves, kept, -⟩ := leaves
        refine Keeping.Runs.pure ⟨[], List.nil_subset _, entries, moves.becomes, ?_⟩
        rw [kept, idle.readers]
    | added job =>
        obtain ⟨-, others, moves, offers, -⟩ := leaves
        cases job with
        | none =>
            exact Keeping.Runs.pure
              ⟨[fp], List.Subset.refl _, others, moves.becomes, offers.trans idle.readers⟩
        | some job =>
            have fewStill : last.store.nextId < numberLimit := by
              have given := Nat.le_trans spends.store.numbers (Nat.add_le_add_right idle.spent 2)
              exact Nat.lt_of_le_of_lt given few
            have runs := offered_falters (changes.sound volumeSound) moves offers fewStill
            apply Keeping.Runs.bind (runs.mono (fun _ _ _ _ holds => holds) _)
            · intro _ final after _ falters
              exact Keeping.Runs.pure ⟨[fp], List.Subset.refl _, falters⟩
            · intro final after _ falters
              exact ⟨[fp], List.Subset.refl _, falters⟩
  · rintro last after _ ⟨⟨others, gains, which, moves, readers⟩, -⟩
    refine ⟨gains, ?_, others, moves.becomes, readers.trans idle.readers⟩
    rcases which with rfl | ⟨rfl, -⟩
    · exact List.nil_subset _
    · exact List.Subset.refl _

/-- A membership test leaves an idle segment idle. -/
theorem Idle.contains_runs (idle : segment.Idle homes before entries spent)
    (volumeSound : before.Sound) (fp : Fingerprint) :
    Keeping.Runs (contains (homes.home fp) fp) segment before segment.Pages NoFile
      (fun _ last after => Endures homes after entries segment [] spent last)
      fun last after => Endures homes after entries segment [] spent last := by
  have endures {last : Segment} {after : Volume}
      (moves : Moves homes after entries segment [] entries last)
      (kept : last = { segment with store := last.store })
      (same : segment.store.SameButHandles last.store) :
      Endures homes after entries segment [] spent last := by
    have readers : last.activeReaders = 0 := by rw [kept, idle.readers]
    have given : last.store.nextId ≤ segment.store.nextId + 0 := Nat.le_of_eq same.nextId
    exact moves.becomes.endures (List.nil_subset _) readers idle given
  apply (Segment.contains_runs volumeSound idle.sound fp).ofNothing.mono
  · exact fun _ _ _ _ ⟨moves, kept, same, _⟩ => endures moves kept same
  · exact fun _ _ _ ⟨moves, kept, same⟩ => endures moves kept same

/-- A merge of all pages leaves an idle segment idle. -/
theorem Idle.compact_runs (idle : segment.Idle homes before entries spent)
    (volumeSound : before.Sound) (few : spent + 1 < numberLimit) :
    Keeping.Runs compact segment before segment.Pages NoFile
      (fun _ last after => Endures homes after entries segment [] (spent + 1) last)
      fun last after => Endures homes after entries segment [] (spent + 1) last := by
  suffices falters : Keeping.Runs compact segment before segment.Pages NoFile
      (fun _ last after => Falters homes after entries segment [] last)
      fun last after => Falters homes after entries segment [] last by
    apply (falters.leaving compact_spends).mono
    · rintro _ last after - ⟨⟨others, becomes, readers⟩, spends⟩
      exact becomes.endures (List.nil_subset _) readers idle spends.store.numbers
    · rintro last after - ⟨⟨others, becomes, readers⟩, spends⟩
      exact becomes.endures (List.nil_subset _) readers idle spends.store.numbers
  have prepares : Keeping.Runs beginCompact segment before segment.Pages NoFile _ _ :=
    (beginCompact_runs volumeSound idle.sound).ofNothing
  have begins := prepares.leaving beginCompact_spends
  apply Keeping.Runs.bind (begins.mono (fun _ _ _ _ holds => holds) _)
  · rintro job last middle changes ⟨⟨others, moves, offers, -⟩, spends⟩
    cases job with
    | none => exact Keeping.Runs.pure ⟨others, moves.becomes, offers.trans idle.readers⟩
    | some job =>
        have fewStill : last.store.nextId < numberLimit := by
          have given := Nat.le_trans spends.store.numbers (Nat.add_le_add_right idle.spent 1)
          exact Nat.lt_of_le_of_lt given few
        exact offered_falters (changes.sound volumeSound) moves offers fewStill
  · rintro last after _ ⟨⟨moves, readers⟩, -⟩
    exact ⟨entries, moves.becomes, readers.trans idle.readers⟩

/-- A snapshot that is taken counts as a reader. -/
theorem takeSnapshot_leaves : Keeping.Leaves takeSnapshot segment fun result last =>
    last = if result.isOk then segment.addReader else segment := by
  apply Keeping.Leaves.getThen
  refine Keeping.Leaves.bind (fun _ last => segment = last) (Keeping.Leaves.lift fun _ => rfl) ?_
    fun _ _ same => same.symm
  rintro readers _ rfl
  exact Keeping.Leaves.getThen (Keeping.Leaves.modifyThen (Keeping.Leaves.pure rfl))

/-- A scan leaves the segment as it was, however it ends. -/
theorem scan_leaves {σ : Type} (sink : σ → Fingerprint → Task σ) (giveUp : σ → Task Unit)
    (state : σ) :
    Keeping.Leaves (scan sink giveUp state) segment fun _ last => last = segment := by
  refine Keeping.Leaves.bind
    (fun result last => last = if result.isOk then segment.addReader else segment) ?_ ?_
    fun _ _ same => same
  · refine Keeping.Leaves.tryCatch takeSnapshot_leaves (fun _ _ same => same) ?_
    rintro error _ same
    refine Keeping.Leaves.bind (fun _ last => last = segment)
      (Keeping.Leaves.lift fun _ => same) ?_ fun _ _ same => same
    exact fun _ _ same => Keeping.Leaves.ofExcept same
  · -- A snapshot that was taken is let go of, whatever became of the reading.
    rintro snapshot _ same
    refine Keeping.Leaves.bind (fun result last => result.isOk = true ∧ last = segment.addReader)
      (Keeping.Leaves.outcome (Keeping.Leaves.lift fun _ => ⟨rfl, same⟩)) ?_ ?_
    · rintro outcome _ ⟨-, rfl⟩
      exact Keeping.Leaves.modifyThen (Keeping.Leaves.ofExcept rfl)
    · rintro error _ ⟨impossible, -⟩
      contradiction

end Segment

end FingerprintSet
