import FingerprintSet.Proofs.BoundedSet.Checkpoint
import FingerprintSet.Proofs.Plan

/-!
# Opening and closing a bounded set

Whatever pages an earlier set left behind are cleared away, so the new segments are empty and
hold what they are given from the last checkpoint only.
-/

namespace FingerprintSet

open Storage Volume SortedFile Checkpoint

namespace BoundedSet

variable {before : Volume} {dir : Path} {name : String} {plan : Plan} {storage : StorageSettings}
  {overflow : Path} {homes : Homes}

/-! ## Creating the segments -/

/-- A segment that holds nothing, in its place. -/
structure Blank (homes : Homes) (overflow : Path) (volume : Volume) (index : Nat)
    (segment : Segment) : Prop where
  rests : segment.Rests homes volume fun _ => []
  empty : segment.all (fun _ => []) = []
  placed : segment.store.directory = overflow.child (Segment.directoryName index)

/-- The first segments are there, and nothing else is in the directory of the pages. -/
structure Laid (homes : Homes) (overflow : Path) (count : Nat) (segments : Array Segment)
    (volume : Volume) : Prop where
  size : segments.size = count
  isDir : volume.IsDir overflow
  blank : ∀ index < count, Blank homes overflow volume index (segments.getD index default)
  others : ∀ path, Below overflow path → volume.binding? path ≠ none →
    ∃ index < count, Within (overflow.child (Segment.directoryName index)) path

theorem below_overflow {index : Nat} {path : Path}
    (within : Within (overflow.child (Segment.directoryName index)) path) : Below overflow path := by
  obtain ⟨rest, rfl⟩ := Path.within_iff.mp within
  exact below_iff.mpr ⟨Segment.directoryName index, rest, by simp [Path.child]⟩

theorem not_within_both {first second : Nat} {path : Path} (different : first ≠ second)
    (within : Within (overflow.child (Segment.directoryName first)) path) :
    ¬Within (overflow.child (Segment.directoryName second)) path := by
  intro other
  have names : Segment.directoryName first ≠ Segment.directoryName second :=
    fun same => different (Segment.directoryName_inj.mp same)
  rw [Within, Path.not_within_sibling names within] at other
  contradiction

theorem Laid.free {count : Nat} {segments : Array Segment}
    (laid : Laid homes overflow count segments before) (path : Path)
    (within : Within (overflow.child (Segment.directoryName count)) path) :
    before.binding? path = none := by
  by_contra present
  obtain ⟨index, earlier, other⟩ := laid.others path (below_overflow within) present
  exact not_within_both (Nat.ne_of_lt earlier) other within

/-- One more segment is created. -/
theorem createSegment_runs (volumeSound : before.Sound) (shapes : Segment.Shapes plan storage)
    (buckets : homes.buckets = plan.bucketsPerSegment) {count : Nat} {segments : Array Segment}
    (laid : Laid homes overflow count segments before) (few : count < numberLimit) :
    Runs (do return segments.push (← Segment.create count plan storage overflow)) before
      (Below overflow) NoFile (Laid homes overflow (count + 1)) := by
  have creatable : Creatable before (overflow.child (Segment.directoryName count)) := by
    apply Creatable.child volumeSound laid.isDir (Segment.directoryName_fits few)
    intro id
    rw [laid.free _ (Path.within_self _)]
    exact fun none => nomatch none
  have own (path : Path) (missing : Missing before (overflow.child (Segment.directoryName count)) path) :
      Within (overflow.child (Segment.directoryName count)) path := by
    rw [missing_child volumeSound laid.isDir missing]
    exact Path.within_self _
  have creates := @Segment.create_runs homes before (fun _ => []) volumeSound count plan storage
    overflow shapes buckets creatable fun path below => laid.free path below.within
  have noting := creates.mono fun _ _ changes holds => And.intro changes holds
  apply Runs.bind (noting.widen (fun path missing => below_overflow (own path missing))
    fun _ _ none => none)
  rintro segment after - ⟨changes, rests, empty, placed⟩
  apply Runs.pure
  constructor
  · rw [Array.size_push, laid.size]
  · apply changes.isDir _ laid.isDir
    intro missing
    obtain ⟨rest, same⟩ := Path.within_iff.mp (own overflow missing)
    simpa [Path.child] using congrArg List.length same
  · intro index below
    rw [Array.getD_eq_getD_getElem?, Array.getElem?_push, laid.size]
    split
    · rename_i here
      subst here
      exact ⟨rests, empty, placed⟩
    · rename_i different
      have earlier : index < count := Nat.lt_of_le_of_ne (Nat.le_of_lt_succ below) different
      have blank := laid.blank index earlier
      rw [Array.getD_eq_getD_getElem?] at blank
      refine ⟨blank.rests.of_changes volumeSound changes ?_, blank.empty, blank.placed⟩
      intro path within missing
      rw [blank.placed] at within
      exact not_within_both different within (own path missing)
  · intro path below present
    by_cases missing : Missing before (overflow.child (Segment.directoryName count)) path
    · exact ⟨count, Nat.lt_succ_self _, own path missing⟩
    · rw [changes.entry_eq path missing] at present
      obtain ⟨index, earlier, within⟩ := laid.others path below present
      exact ⟨index, Nat.lt_succ_of_lt earlier, within⟩

/-- All segments are created. -/
theorem createSegments_runs (volumeSound : before.Sound) (shapes : Segment.Shapes plan storage)
    (buckets : homes.buckets = plan.bucketsPerSegment) (few : plan.segmentCount ≤ numberLimit)
    (isDir : before.IsDir overflow)
    (free : ∀ path, Below overflow path → before.binding? path = none) :
    Runs (createSegments plan storage overflow) before (Below overflow) NoFile
      (Laid homes overflow plan.segmentCount) := by
  have none : Laid homes overflow 0 #[] before :=
    { size := rfl
      isDir
      blank := fun _ below => absurd below (Nat.not_lt_zero _)
      others := fun path below present => absurd (free path below) present }
  apply Runs.foldRange (Laid homes overflow) none
  intro count below segments after changes laid
  exact createSegment_runs (changes.sound volumeSound) shapes buckets laid
    (Nat.lt_of_lt_of_le below few)

/-- Segments that hold nothing make a sound set. -/
theorem Laid.sound {set : BoundedSet} (shaped : plan.Shaped)
    (laid : Laid homes set.overflow plan.segmentCount set.segments before)
    (home : homes.home = set.router.bucket) (bits : set.router.segmentBits = plan.segmentBits) :
    set.Sound homes before fun _ _ => [] where
  bits := bits ▸ Nat.le_trans shaped.bits (by decide)
  home := home
  count := laid.size.trans (bits ▸ rfl)
  rests index inside := (laid.blank index (laid.size ▸ inside)).rests
  placed index inside := (laid.blank index (laid.size ▸ inside)).placed
  routed := by
    intro index inside fp mem
    rw [segmentAt, (laid.blank index (laid.size ▸ inside)).empty] at mem
    contradiction

/-- Segments that hold nothing make a set that holds nothing. -/
theorem Laid.holds {set : BoundedSet} (shaped : plan.Shaped)
    (laid : Laid homes set.overflow plan.segmentCount set.segments before)
    (home : homes.home = set.router.bucket) (bits : set.router.segmentBits = plan.segmentBits) :
    set.Holds before [] := by
  refine ⟨homes, fun _ _ => [], laid.sound shaped home bits, ?_⟩
  rw [List.perm_nil, contents, List.flatMap_eq_nil_iff]
  intro index mem
  exact (laid.blank index (laid.size ▸ List.mem_range.mp mem)).empty

/-! ## Opening -/

/-- Settings and a name with which a bounded set can be opened. -/
structure Opens (settings : Settings) (name : String) (plan : Plan) : Prop where
  usable : isUsableName name = true
  fits : FitsDirectory (name ++ ".overflow")
  accepted : settings.storage.validate = .ok ()
  planned : Plan.compute settings.memory = .ok plan
  small : settings.storage.pageIndexStride.toNat * entryLength ≤ PageStore.maxBlockBytes
  handles : HandleCache.isRepresentable
    (settings.storage.openPagesPerSegment plan.segmentCount) = true

theorem stride_pos {settings : StorageSettings} (accepted : settings.validate = .ok ()) :
    0 < settings.pageIndexStride.toNat := by
  rw [StorageSettings.validate] at accepted
  split at accepted
  · contradiction
  · rename_i some
    exact Nat.pos_of_ne_zero fun zero => some (UInt64.toNat_inj.mp zero)

theorem Opens.shapes {settings : Settings} (opens : Opens settings name plan) :
    Segment.Shapes plan settings.storage where
  wide := (Plan.compute_shaped opens.planned).wide
  narrow := (Plan.compute_shaped opens.planned).narrow
  stride := stride_pos opens.accepted
  small := opens.small
  handles := opens.handles

/-- The router of a set with a plan. -/
def routerFor (plan : Plan) (seed : UInt64) : Router where
  seed := seed
  segmentBits := plan.segmentBits
  buckets := plan.bucketsPerSegment

/-- Nothing is left of the pages of an earlier set. -/
theorem clearOverflow_runs (volumeSound : before.Sound)
    (noFile : ∀ id, before.binding? (overflowDirectory dir name) ≠ some (.file id)) :
    Runs (CheckpointKeeper.clearDirectory .clearing (overflowDirectory dir name)) before
      (Within (overflowDirectory dir name)) NoFile fun _ after =>
        ∀ path, Within (overflowDirectory dir name) path → after.binding? path = none := by
  apply Meets.mono (CheckpointKeeper.clearDirectory_meets volumeSound .clearing noFile)
  · exact fun _ _ holds => holds
  · exact fun _ _ ⟨changes, refused⟩ =>
      ⟨changes.mono (fun _ => Below.within) fun _ _ none => none, refused⟩

/-- An empty directory takes the place of the pages that were there. -/
theorem makeOverflow_runs (volumeSound : before.Sound) (isDir : before.IsDir dir)
    (fits : FitsDirectory (name ++ ".overflow"))
    (free : ∀ path, Within (overflowDirectory dir name) path → before.binding? path = none) :
    Runs ((Activity.creating (overflowDirectory dir name)).run
        (makeDirectories (overflowDirectory dir name))) before
      (Within (overflowDirectory dir name)) NoFile fun _ after =>
        after.IsDir (overflowDirectory dir name) ∧
          ∀ path, Below (overflowDirectory dir name) path → after.binding? path = none := by
  have noFile (id : FileId) : before.binding? (dir.child (name ++ ".overflow")) ≠ some (.file id) := by
    rw [← overflowDirectory_eq, free _ (Path.within_self _)]
    exact fun none => nomatch none
  have own (path : Path) (missing : Missing before (overflowDirectory dir name) path) :
      path = overflowDirectory dir name :=
    missing_child volumeSound isDir missing
  have makes := makeDirectories_runs volumeSound (Creatable.child volumeSound isDir fits noFile)
  have noting := makes.mono fun _ _ changes holds => And.intro changes holds.2
  apply Activity.runs
  apply (noting.widen (fun path missing => own path missing ▸ Path.within_self _)
    fun _ _ none => none).mono
  rintro _ after - ⟨changes, there⟩
  refine ⟨there, fun path below => ?_⟩
  rw [changes.entry_eq path]
  · exact free path below.within
  · intro missing
    obtain ⟨part, rest, same⟩ := below_iff.mp (own path missing ▸ below)
    simpa using congrArg List.length same

variable {settings : Settings} {seed : UInt64} {latest : Option Generation}

/-- Lay the directory of the pages out anew, and create the segments in it. -/
def layOut (plan : Plan) (storage : StorageSettings) (overflow : Path) : Task (Array Segment) := do
  CheckpointKeeper.clearDirectory .clearing overflow
  (Activity.creating overflow).run (makeDirectories overflow)
  createSegments plan storage overflow

/-- Whatever was in the directory of the pages, the segments are laid out in it. -/
theorem layOut_runs (volumeSound : before.Sound) (isDir : before.IsDir dir)
    (opens : Opens settings name plan)
    (noFile : ∀ id, before.binding? (overflowDirectory dir name) ≠ some (.file id))
    (buckets : homes.buckets = plan.bucketsPerSegment) :
    Runs (layOut plan settings.storage (overflowDirectory dir name)) before
      (Within (overflowDirectory dir name)) NoFile
      (Laid homes (overflowDirectory dir name) plan.segmentCount) := by
  have shaped := Plan.compute_shaped opens.planned
  have clears := (clearOverflow_runs volumeSound noFile).mono fun _ _ changes holds =>
    And.intro changes holds
  apply Runs.bind clears
  rintro _ cleared - ⟨clearing, free⟩
  have clearedSound := clearing.sound volumeSound
  have isDirStill := clearing.isDir (apart_overflow dir name).directory isDir
  have makes := (makeOverflow_runs clearedSound isDirStill opens.fits free).mono
    fun _ _ changes holds => And.intro changes holds
  apply Runs.bind makes
  rintro _ made - ⟨making, there, freeBelow⟩
  have creates := createSegments_runs (making.sound clearedSound) opens.shapes buckets
    (Nat.le_trans shaped.segmentCount_le (by decide)) there freeBelow
  exact creates.widen (fun _ => Below.within) fun _ _ none => none

/-- What is left to do once the settings are accepted and the plan is made. -/
theorem openAt_eq (accepted : settings.storage.validate = .ok ())
    (planned : Plan.compute settings.memory = .ok plan) :
    openAt settings seed dir name = (do
      let checkpoints ← CheckpointKeeper.openAt dir name settings.storage.syncWrites
      let segments ← layOut plan settings.storage (overflowDirectory dir name)
      (holder dir name).restored put size
        { plan, segments, checkpoints
          router := routerFor plan seed
          overflow := overflowDirectory dir name }) := by
  rw [openAt, accepted, planned]
  simp only [layOut, bind_assoc]
  rfl

/-- A set that is opened holds what the last checkpoint holds. -/
theorem openAt_runs (quiet : before.Quiet) (volumeSound : before.Sound)
    (kept : Kept dir name latest before) (opens : Opens settings name plan)
    (noFile : ∀ id, before.binding? (overflowDirectory dir name) ≠ some (.file id))
    (room : ∀ last, latest = some last → last.number + 1 < generationLimit)
    (counted : ∀ last, latest = some last → last.Counted)
    (distinct : (Holder.published latest).Nodup) :
    Runs (openAt settings seed dir name) before
      (fun path => Owned dir name path ∨ Within (overflowDirectory dir name) path) NoFile
      fun set after => (holder dir name).Keeps latest none (Holder.published latest) after set := by
  have shaped := Plan.compute_shaped opens.planned
  have apart := apart_overflow dir name
  rw [openAt_eq opens.accepted opens.planned]
  have takes := (CheckpointKeeper.openAt_runs volumeSound kept opens.usable
    settings.storage.syncWrites room).mono fun _ _ changes holds => And.intro changes holds.1
  apply Runs.bind takes.ofNothing
  rintro keeper taken - ⟨taking, sound⟩
  have takenSound := taking.sound volumeSound
  have noFileStill (id : FileId) : taken.binding? (overflowDirectory dir name) ≠ some (.file id) := by
    rw [taking.entry_eq _ fun nowhere => nowhere]
    exact noFile id
  have buckets : ((routerFor plan seed).homes shaped.buckets).buckets = plan.bucketsPerSegment := rfl
  have lays := (layOut_runs takenSound sound.kept.isDir opens noFileStill buckets).mono
    fun _ _ changes holds => And.intro changes holds
  apply Runs.bind (lays.widen (fun _ => Or.inr) fun _ _ none => none)
  rintro segments laid - ⟨laying, blank⟩
  -- The checkpoints stay as they are while the directory of the pages is laid out anew.
  have charge := sound.of_changes takenSound laying apart
  apply Holder.restored_runs (puts dir name) _ apart _ counted distinct (laying.sound takenSound)
  · exact ⟨⟨blank.holds shaped rfl rfl, rfl, rfl⟩, charge⟩
  · exact fun volume held set holds => holds.1.size_eq
  · exact laying.quiet (taking.quiet quiet)

/-! ## What has to be there -/

/-- Work that has a result only if something holds. -/
def Needs {α : Type} (work : Task α) (before : Volume) (needed : Prop) : Prop :=
  Meets work before (fun _ _ => needed) fun _ _ => True

namespace Needs

variable {α β : Type} {work : Task α} {needed : Prop}

theorem ofHolds (holds : needed) : Needs work before needed := by
  rcases result : work before with ⟨error | a, after⟩
  · exact Meets.of_error result trivial
  · exact Meets.of_ok result holds

theorem ofFails (fails : Meets work before (fun _ _ => False) fun _ _ => True) :
    Needs work before needed :=
  fails.mono (fun _ _ impossible => impossible.elim) fun _ _ _ => trivial

/-- What the first step needs. -/
theorem here {next : α → Task β} (needs : Needs work before needed) :
    Needs (work >>= next) before needed :=
  Meets.bind needs fun _ _ holds => ofHolds holds

/-- What a later step needs. -/
theorem later {next : α → Task β} {paths : Path → Prop} {files : FileId → Prop}
    {good : α → Volume → Prop} (first : Runs work before paths files good)
    (second : ∀ a after, Changes paths files before after → good a after →
      Needs (next a) after needed) :
    Needs (work >>= next) before needed := by
  apply Meets.bind (Meets.mono first (fun _ _ holds => holds) fun _ _ _ => trivial)
  exact fun a after ⟨changes, holds⟩ => second a after changes holds

end Needs

theorem createStore_needs (directory : Path) (limits : StoreLimits) :
    Needs (PageStore.create directory limits) before
      (limits.stride * entryLength ≤ PageStore.maxBlockBytes ∧
        HandleCache.isRepresentable limits.openHandles = true) := by
  have makes : Meets ((Activity.creatingOverflow directory).run (makeDirectories directory)) before
      (fun _ _ => True) fun _ _ => True := Needs.ofHolds trivial
  apply Meets.bind makes
  rintro _ after -
  split
  · exact Meets.of_error rfl trivial
  · split
    · exact Meets.of_error rfl trivial
    · rename_i representable small
      exact Meets.of_ok rfl ⟨Nat.not_lt.mp small, by simpa using representable⟩

theorem createSegments_needs :
    Needs (createSegments plan storage overflow) before
      (storage.pageIndexStride.toNat * entryLength ≤ PageStore.maxBlockBytes ∧
        HandleCache.isRepresentable (storage.openPagesPerSegment plan.segmentCount) = true) := by
  obtain ⟨others, several⟩ := Nat.exists_eq_succ_of_ne_zero
    (Nat.ne_of_gt plan.segmentCount_pos)
  rw [createSegments, several, List.range_succ_eq_map, List.foldlM_cons, ← several]
  exact ((createStore_needs _ _).here).here.here

/-- The segments can be laid out only with such settings, and where no file is in the way. -/
theorem layOut_needs (volumeSound : before.Sound) (isDir : before.IsDir dir)
    (usable : isUsableName name = true) (accepted : settings.storage.validate = .ok ())
    (planned : Plan.compute settings.memory = .ok plan) :
    Needs (layOut plan settings.storage (overflowDirectory dir name)) before
      (Opens settings name plan ∧
        ∀ id, before.binding? (overflowDirectory dir name) ≠ some (.file id)) := by
  apply Meets.bind (CheckpointKeeper.clearDirectory_clears volumeSound .clearing)
  rintro _ cleared ⟨noFile, clearing, -⟩
  have clearedSound := clearing.sound volumeSound
  have isDirStill := clearing.isDir (apart_overflow dir name).directory isDir
  by_cases fits : FitsDirectory (name ++ ".overflow")
  · apply Meets.bind (Needs.ofHolds fits)
    intro _ made _
    apply createSegments_needs.mono
    · exact fun _ _ ⟨small, handles⟩ => ⟨⟨usable, fits, accepted, planned, small, handles⟩, noFile⟩
    · exact fun _ _ _ => trivial
  · apply Needs.here
    apply Needs.ofFails
    apply Meets.adapt
    exact (makeDirectories_unfit clearedSound isDirStill fits).mono (fun _ _ impossible => impossible)
      fun _ _ _ => trivial

/-- The segments are laid out, or something is in the way or is refused. -/
theorem layOut_meets (volumeSound : before.Sound) (isDir : before.IsDir dir)
    (usable : isUsableName name = true) (accepted : settings.storage.validate = .ok ())
    (planned : Plan.compute settings.memory = .ok plan)
    (buckets : homes.buckets = plan.bucketsPerSegment) :
    Meets (layOut plan settings.storage (overflowDirectory dir name)) before
      (fun segments laid => Changes (Within (overflowDirectory dir name)) NoFile before laid ∧
        Laid homes (overflowDirectory dir name) plan.segmentCount segments laid)
      fun _ _ => True := by
  rcases (layOut_needs volumeSound isDir usable accepted planned).cases with
    ⟨_, _, -, opens, noFile⟩ | ⟨error, laid, result, -⟩
  · apply Meets.mono (layOut_runs volumeSound isDir opens noFile buckets)
    · exact fun _ _ holds => holds
    · exact fun _ _ _ => trivial
  · exact Meets.of_error result trivial

/-- Only such a set can be opened. -/
theorem openAt_needs (volumeSound : before.Sound) (kept : Kept dir name latest before)
    (room : ∀ last, latest = some last → last.number + 1 < generationLimit) :
    Needs (openAt settings seed dir name) before (∃ plan, Opens settings name plan) := by
  rcases accepted : settings.storage.validate with error | _
  · rw [openAt, accepted]
    exact Meets.of_error rfl trivial
  rcases planned : Plan.compute settings.memory with error | plan
  · rw [openAt, accepted, planned]
    exact Meets.of_error rfl trivial
  rw [openAt_eq accepted planned]
  by_cases usable : isUsableName name = true
  · apply Needs.later (CheckpointKeeper.openAt_runs volumeSound kept usable _ room)
    rintro keeper taken taking ⟨sound, -⟩
    apply Needs.here
    have lays := layOut_needs (taking.sound volumeSound) sound.kept.isDir usable accepted planned
    exact lays.mono (fun _ _ needed => ⟨plan, needed.1⟩) fun _ _ _ => trivial
  · apply Needs.here
    rw [CheckpointKeeper.openAt, (Bool.not_eq_true _).mp usable]
    exact Meets.of_error rfl trivial

/-! ## Closing -/

variable {set : BoundedSet} {held : List Fingerprint}

/-- The directory of the pages is there as long as the set is. -/
theorem overflow_isDirectory (volumeSound : before.Sound) (holds : HoldsUnder dir name before held set) :
    before.binding? (overflowDirectory dir name) = some .directory := by
  obtain ⟨⟨homes, entries, sound, -⟩, place, -⟩ := holds
  exact sound.toArranged.overflow_isDirectory volumeSound place
    fun index inside => (sound.rests index inside).sound.store.isDir

/-- Closing a set removes its pages and nothing else. -/
theorem close_runs (volumeSound : before.Sound) (holds : HoldsUnder dir name before held set) :
    Runs (close set) before (Within (overflowDirectory dir name)) NoFile fun _ after =>
      ∀ path, Within (overflowDirectory dir name) path → after.binding? path = none := by
  have there := overflow_isDirectory volumeSound holds
  rw [close, holds.2.1]
  exact Activity.runs (removeTree_runs volumeSound there)

end BoundedSet

end FingerprintSet
