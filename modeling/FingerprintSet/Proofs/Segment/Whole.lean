import FingerprintSet.Proofs.Segment.Basic
import FingerprintSet.Segment.Snapshot

/-!
# Operations without others in between

What a whole operation does to a segment that is at rest: no merge is under way and nothing
reads the pages.  The segment is at rest again when the operation is through.
-/

namespace FingerprintSet

open Storage Volume SortedFile

namespace Segment

/-- Nothing reads the pages of a segment, and no merge is under way. -/
structure Rests (homes : Homes) (volume : Volume) (entries : PageId → List Fingerprint)
    (segment : Segment) : Prop where
  sound : segment.Sound homes volume entries
  idle : segment.activeReaders = 0
  room : segment.Room entries 0

variable {homes : Homes} {before : Volume} {entries : PageId → List Fingerprint}
  {segment : Segment}

/-- A segment at rest after it gained some fingerprints. -/
def Gains (homes : Homes) (after : Volume) (entries : PageId → List Fingerprint)
    (segment : Segment) (gained : List Fingerprint) (last : Segment) : Prop :=
  ∃ others, last.Rests homes after others ∧ Becomes homes after entries segment gained others last

/-- What is left of a segment at rest when an operation on it failed. -/
def Falters (homes : Homes) (after : Volume) (entries : PageId → List Fingerprint)
    (segment : Segment) (gained : List Fingerprint) (last : Segment) : Prop :=
  ∃ others, Becomes homes after entries segment gained others last ∧ last.activeReaders = 0

/-- Work outside the directory of a segment leaves the segment sound. -/
theorem Sound.of_changes {paths : Path → Prop} {after : Volume}
    (sound : segment.Sound homes before entries) (volumeSound : before.Sound)
    (changes : Changes paths NoFile before after)
    (outside : ∀ path, Within segment.store.directory path → ¬paths path) :
    segment.Sound homes after entries := by
  have store : segment.store.Sound after entries := by
    apply sound.store.of_changes volumeSound changes fun _ none => none.elim
    · exact outside _ (Path.within_self _)
    · exact fun id inside => absurd inside (outside _ (pagePath_below _ id).within)
  exact sound.restored store (List.Perm.refl _)

/-- Work outside the directory of a segment leaves the segment at rest. -/
theorem Rests.of_changes {paths : Path → Prop} {after : Volume}
    (rests : segment.Rests homes before entries) (volumeSound : before.Sound)
    (changes : Changes paths NoFile before after)
    (outside : ∀ path, Within segment.store.directory path → ¬paths path) :
    segment.Rests homes after entries :=
  { rests with sound := rests.sound.of_changes volumeSound changes outside }

/-! ## Creating -/

/-- The name of a segment's directory. -/
def directoryName (index : Nat) : String :=
  "seg-" ++ Text.zeroPadded 4 index

theorem directoryName_eq (index : Nat) : directoryName index = numbered "seg-" 4 index "" := by
  rw [numbered, String.append_empty]
  rfl

theorem directoryName_inj {first second : Nat} :
    directoryName first = directoryName second ↔ first = second := by
  rw [directoryName_eq, directoryName_eq, numbered_inj]

theorem directoryName_fits {index : Nat} (below : index < numberLimit) :
    FitsDirectory (directoryName index) := by
  rw [directoryName_eq]
  exact numbered_fits (by decide) (by decide) (by decide) (by decide) below

/-- What a plan and settings must be for segments to be created. -/
structure Shapes (plan : Plan) (storage : StorageSettings) : Prop where
  wide : 0 < plan.bucketEntries
  narrow : plan.bucketEntries ≤ 255
  stride : 0 < storage.pageIndexStride.toNat
  small : storage.pageIndexStride.toNat * entryLength ≤ PageStore.maxBlockBytes
  handles : HandleCache.isRepresentable (storage.openPagesPerSegment plan.segmentCount) = true

theorem create_runs (volumeSound : before.Sound) {index : Nat} {plan : Plan}
    {storage : StorageSettings} {overflow : Path} (shapes : Shapes plan storage)
    (buckets : homes.buckets = plan.bucketsPerSegment)
    (creatable : Creatable before (overflow.child (directoryName index)))
    (free : ∀ path, Below (overflow.child (directoryName index)) path →
      before.binding? path = none) :
    Runs (create index plan storage overflow) before
      (Missing before (overflow.child (directoryName index))) NoFile fun segment after =>
        segment.Rests homes after entries ∧ segment.all entries = [] ∧
          segment.store.directory = overflow.child (directoryName index) := by
  have creates := @PageStore.create_runs _ entries volumeSound _
    { stride := storage.pageIndexStride.toNat
      durable := storage.syncWrites
      indexEntries := plan.indexEntriesPerSegment
      openHandles := storage.openPagesPerSegment plan.segmentCount }
    creatable shapes.handles shapes.small shapes.stride
    fun id => free _ (below_iff.mpr ⟨PageStore.pageName id, [], rfl⟩)
  apply Runs.bind creates
  rintro store after _ ⟨storeSound, directory, pages, nextId, count, -⟩
  apply Runs.pure
  have table : (BucketTable.empty plan.bucketsPerSegment plan.bucketEntries).toList = [] :=
    BucketTable.empty_toList _ _
  have contents : store.contents entries = [] := by
    rw [PageStore.contents, PageStore.ids, pages]
    rfl
  have none : ∀ segment : Segment, segment.table = .empty plan.bucketsPerSegment plan.bucketEntries →
      segment.pending = ∅ → segment.store = store → segment.all entries = [] := by
    rintro segment tableEq pendingEq storeEq
    rw [all, tableEq, pendingEq, storeEq, table, contents]
    rfl
  refine ⟨⟨?_, rfl, ?_⟩, none _ rfl rfl rfl, directory⟩
  · exact
      { table := buckets ▸ BucketTable.empty_shaped shapes.wide shapes.narrow
        homed := by
          intro bucket fp mem
          rw [BucketTable.bucket, BucketTable.empty_occupied] at mem
          contradiction
        store := storeSound
        distinct := by
          rw [none _ rfl rfl rfl]
          exact List.nodup_nil
        counted := by
          rw [none _ rfl rfl rfl]
          rfl
        evicted := by
          show 0 = 0 + store.entries
          rw [count]
        stocked := fun _ => none _ rfl rfl rfl }
  · rw [Room, PageStore.ids, pages, nextId]
    exact Nat.zero_le _

theorem pagePath_pages (segment : Segment) (path : Path)
    (same : At (segment.store.pagePath segment.store.nextId) path) : segment.Pages path :=
  same ▸ pagePath_below _ _

/-- A merge that was left to run is run and settled.  It moves fingerprints at most, and it takes the
room that was left for it. -/
theorem offered_settles {after : Volume} (volumeSound : after.Sound) {gained : List Fingerprint}
    {others : PageId → List Fingerprint} {last : Segment} {job : CompactionJob}
    (moves : Moves homes after entries segment gained others last)
    (offers : Offers segment last after others (some job)) (few : last.store.nextId < numberLimit) :
    Keeping.Runs (runCompaction job) last after segment.Pages NoFile
      (fun _ final volume => Becomes homes volume entries segment gained others final ∧
        final.activeReaders = 0 ∧ ∀ jobs, last.Room others (jobs + 1) → final.Room others jobs)
      fun final volume => Falters homes volume entries segment gained final := by
  obtain ⟨-, busy, prepared, live, several⟩ := offers
  have pages : last.Pages = segment.Pages := by
    rw [Pages, moves.grows.directory]
    rfl
  have numbered := Nat.lt_trans prepared.numbered few
  have runs := runCompaction_runs volumeSound moves.sound prepared numbered live several
  rw [pages, busy] at runs
  apply runs.mono
  · rintro _ final volume _ ⟨becomes, idle, room⟩
    exact ⟨moves.becomes.trans becomes, idle, room⟩
  · rintro final volume _ ⟨becomes, idle⟩
    exact ⟨others, moves.becomes.trans becomes, idle⟩

/-- Where there is room for a merge that was left to run, it leaves a segment at rest. -/
theorem offered_runs {after : Volume} (volumeSound : after.Sound) {gained : List Fingerprint}
    {others : PageId → List Fingerprint} {last : Segment} {job : CompactionJob}
    (moves : Moves homes after entries segment gained others last)
    (offers : Offers segment last after others (some job)) (room : last.Room others 1) :
    Keeping.Runs (runCompaction job) last after segment.Pages NoFile
      (fun _ final volume => Gains homes volume entries segment gained final)
      fun final volume => Falters homes volume entries segment gained final := by
  have few := Nat.lt_of_succ_lt (moves.sound.room room (by decide))
  apply (offered_settles volumeSound moves offers few).mono
  · rintro _ final volume _ ⟨becomes, idle, roomStill⟩
    exact ⟨others, ⟨becomes.sound, idle, roomStill 0 room⟩, becomes⟩
  · exact fun _ _ _ falters => falters

/-- A segment at rest that was only looked at is at rest still. -/
theorem Rests.looked {after : Volume} {last : Segment} (rests : segment.Rests homes before entries)
    (moves : Moves homes after entries segment [] entries last)
    (kept : last = { segment with store := last.store })
    (same : segment.store.SameButHandles last.store) :
    Gains homes after entries segment [] last := by
  refine ⟨entries, ⟨moves.sound, ?_, rests.room.looked same⟩, moves.becomes⟩
  rw [kept, rests.idle]

/-- A membership test answers whether the fingerprint is held. -/
theorem contains_rests (volumeSound : before.Sound) (rests : segment.Rests homes before entries)
    (fp : Fingerprint) :
    Keeping.Runs (contains (homes.home fp) fp) segment before segment.Pages NoFile
      (fun answer last after => (answer = true ↔ fp ∈ segment.all entries) ∧
        Gains homes after entries segment [] last) fun _ _ => True := by
  apply (contains_runs volumeSound rests.sound fp).ofNothing.mono
  · exact fun _ _ _ _ ⟨moves, kept, same, decides⟩ => ⟨decides, rests.looked moves kept same⟩
  · exact fun _ _ _ _ => trivial

/-- A put answers whether the fingerprint was held, and then it is held. -/
theorem put_runs (volumeSound : before.Sound) (rests : segment.Rests homes before entries)
    (fp : Fingerprint) :
    Keeping.Runs (put (homes.home fp) fp) segment before segment.Pages NoFile
      (fun answer last after => (answer = true ↔ fp ∈ segment.all entries) ∧
        Gains homes after entries segment (if answer then [] else [fp]) last)
      fun last after => ∃ gained, (gained = [] ∨ gained = [fp] ∧ fp ∉ segment.all entries) ∧
        Falters homes after entries segment gained last := by
  have few := Nat.lt_of_succ_lt (rests.sound.room rests.room (by decide))
  have begins := (beginPut_runs volumeSound rests.sound few fp).widen
    (pagePath_pages segment) fun _ _ none => none
  apply Keeping.Runs.bind (begins.mono (fun _ _ _ _ holds => holds) _)
  · rintro step last middle changes leaves
    cases step with
    | known =>
        obtain ⟨mem, moves, kept, same⟩ := leaves
        apply Keeping.Runs.pure
        exact ⟨iff_of_true rfl mem, rests.looked moves kept same⟩
    | added job =>
        obtain ⟨new, others, moves, offers, fits⟩ := leaves
        have room := fits 0 rests.room
        cases job with
        | none =>
            apply Keeping.Runs.pure
            exact ⟨iff_of_false Bool.false_ne_true new, others,
              ⟨moves.sound, offers.trans rests.idle, room⟩, moves.becomes⟩
        | some job =>
            have runs := offered_runs (changes.sound volumeSound) moves offers room
            apply Keeping.Runs.bind (runs.mono (fun _ _ _ _ holds => holds) _)
            · intro _ final after _ gains
              exact Keeping.Runs.pure ⟨iff_of_false Bool.false_ne_true new, gains⟩
            · intro final after _ falters
              exact ⟨[fp], Or.inr ⟨rfl, new⟩, falters⟩
  · rintro last after _ ⟨others, gained, which, moves, readers⟩
    exact ⟨gained, which, others, moves.becomes, readers.trans rests.idle⟩

/-! ## Merging all pages -/

theorem beginCompact_runs (volumeSound : before.Sound)
    (sound : segment.Sound homes before entries) :
    Keeping.Runs beginCompact segment before Nowhere NoFile
      (fun job last after => ∃ others, Moves homes after entries segment [] others last ∧
        Offers segment last after others job ∧
        ∀ jobs, segment.Room entries jobs → last.Room others (jobs + pendingJobs job))
      fun last after => Moves homes after entries segment [] entries last ∧
        last.activeReaders = segment.activeReaders := by
  apply Keeping.Runs.getThen
  split
  · apply Keeping.Runs.pure
    exact ⟨entries, ⟨sound, .refl _ _, List.Perm.refl _⟩, rfl, fun _ room => room⟩
  · rename_i idle
    have prepares := PageStore.compactionJob_runs volumeSound sound.store sound.few
    apply prepare_runs volumeSound sound (fun _ mem => mem) (Nat.eq_zero_of_not_pos idle)
    apply prepares.mono
    · exact fun _ _ _ _ offered => Or.inr offered
    · exact fun _ _ _ same => same

/-- Merging all pages leaves a segment with what it holds. -/
theorem compact_runs (volumeSound : before.Sound) (rests : segment.Rests homes before entries) :
    Keeping.Runs compact segment before segment.Pages NoFile
      (fun _ last after => Gains homes after entries segment [] last)
      fun last after => Falters homes after entries segment [] last := by
  have begins := beginCompact_runs volumeSound rests.sound
  apply Keeping.Runs.bind (begins.ofNothing.mono (fun _ _ _ _ holds => holds) _)
  · rintro job last middle changes ⟨others, moves, offers, fits⟩
    have room := fits 0 rests.room
    cases job with
    | none =>
        apply Keeping.Runs.pure
        exact ⟨others, ⟨moves.sound, offers.trans rests.idle, room⟩, moves.becomes⟩
    | some job => exact offered_runs (changes.sound volumeSound) moves offers room
  · rintro last after _ ⟨moves, readers⟩
    exact ⟨entries, moves.becomes, readers.trans rests.idle⟩

/-! ## Snapshots -/

theorem memoryCopy_ascending (segment : Segment) :
    segment.memoryCopy.Pairwise (· ≤ ·) := by
  have trans (a b c : Fingerprint) (first : decide (a ≤ b) = true) (second : decide (b ≤ c) = true) :
      decide (a ≤ c) = true :=
    decide_eq_true (UInt64.le_trans (of_decide_eq_true first) (of_decide_eq_true second))
  have total (a b : Fingerprint) : (decide (a ≤ b) || decide (b ≤ a)) = true := by
    rw [Bool.or_eq_true, decide_eq_true_iff, decide_eq_true_iff]
    exact UInt64.le_total a b
  have ordered := List.pairwise_mergeSort trans total
    (segment.table.toList ++ segment.pending.toList)
  exact ordered.imp fun below => of_decide_eq_true below

/-- A snapshot gives what the segment holds, in ascending order. -/
theorem takeSnapshot_runs (volumeSound : before.Sound)
    (sound : segment.Sound homes before entries) :
    Keeping.Runs takeSnapshot segment before Nowhere NoFile
      (fun snapshot last after => last = segment.addReader ∧
        snapshot.Streams after (Behind before segment.store.pages) (sorted (segment.all entries)))
      fun last _ => last = segment := by
  have opens := PageStore.openPages_runs volumeSound segment.store.pages sound.store.filed
    (fun page mem => (sound.store.describes page mem).ascending)
    fun page mem => sound.few page.id (List.mem_map_of_mem mem)
  apply Keeping.Runs.getThen
  apply Keeping.Runs.liftThen opens
  · exact fun _ _ => rfl
  · intro readers after changes gives
    apply Keeping.Runs.getThen
    apply Keeping.Runs.modifyThen
    apply Keeping.Runs.pure
    refine ⟨rfl, sorted_ascending _, ?_⟩
    have delivers : (Source.memory segment.memoryCopy).Delivers after
        (Behind before segment.store.pages) segment.memoryCopy := rfl
    apply (Merge.Sources.cons delivers segment.memoryCopy_ascending gives).congr
    intro fp
    rw [mem_sorted, all, List.mem_append, ← PageStore.mem_contents, memoryCopy,
      List.mem_mergeSort]

section Scan

variable {σ : Type} {sink : σ → Fingerprint → Task σ} {giveUp : σ → Task Unit} {state : σ}
  {paths : Path → Prop} {files : FileId → Prop} {good : σ → Volume → Prop}

/-- A scan gives the sink what the segment holds and leaves the segment as it was. -/
theorem scan_runs (volumeSound : before.Sound) (sound : segment.Sound homes before entries)
    (folds : ∀ (snapshot : Merge) middle, Changes Nowhere NoFile before middle →
      snapshot.Streams middle (Behind before segment.store.pages) (sorted (segment.all entries)) →
      Storage.Runs (snapshot.fold sink giveUp state) middle paths files good)
    (givesUp : ∀ middle, Changes Nowhere NoFile before middle →
      Storage.Runs (giveUp state) middle paths files fun _ _ => True) :
    Keeping.Runs (scan sink giveUp state) segment before paths files
      (fun result last after => last = segment ∧ good result after)
      fun last _ => last = segment := by
  have takes := (takeSnapshot_runs volumeSound sound).mono
    (fun _ last after changes holds => And.intro changes holds)
    fun last after changes same => And.intro changes same
  apply Keeping.Runs.bind (Keeping.Runs.cleanUp takes.ofNothing _ _)
  · rintro snapshot last middle _ ⟨changes, rfl, streams⟩
    have unfolded : (do
        let outcome ← Keeping.outcome (snapshot.fold sink giveUp state : Task σ)
        releaseSnapshot
        Keeping.ofExcept outcome : Keeping Segment σ) segment.addReader middle =
          (((snapshot.fold sink giveUp state middle).1, segment),
            (snapshot.fold sink giveUp state middle).2) := rfl
    rcases Meets.cases (folds snapshot middle changes streams) with
      ⟨result, after, folded, more, holds⟩ | ⟨error, after, folded, more, refused⟩
    · exact Keeping.Runs.of_ok (by rw [unfolded, folded]) more ⟨rfl, holds⟩
    · exact Keeping.Runs.of_error (by rw [unfolded, folded]) more rfl refused
  · exact fun last after _ ⟨changes, _⟩ => givesUp after changes
  · exact fun last _ _ ⟨_, same⟩ _ => same

end Scan

end Segment

end FingerprintSet
