import FingerprintSet.Proofs.Checkpoint.Keeping
import FingerprintSet.Proofs.SortedFile.Writing

/-!
# Writing and publishing a generation

What each step of a checkpoint leaves behind, whether or not it was cut short.  Everything up to
the manifest happens below the staging directory, so the generation published last stays what
it is.  The renaming makes the staged generation the last one, and from then on only earlier
ones are touched.
-/

namespace FingerprintSet

open Storage Volume SortedFile Checkpoint

variable {before : Volume} {dir : Path} {name : String} {last staged : Option Generation}
  {keeper : CheckpointKeeper} {staging : Staging} {generation : Generation} {tried : List Nat}

/-- The generation with one more segment. -/
def Generation.add (generation : Generation) (part : Part) : Generation :=
  { generation with parts := generation.parts ++ [part] }

/-- A staging directory holds the segments recorded so far.  Its files are those of the segments
that were tried. -/
structure Writes (dir : Path) (name : String) (volume : Volume) (staging : Staging)
    (generation : Generation) (tried : List Nat) : Prop where
  path : staging.directory = dir.child (stagingName name)
  manifest : staging.manifest = generation.manifest
  there : volume.binding? (dir.child (stagingName name)) = some .directory
  parts : ∀ part ∈ generation.parts, part.Sound ∧ part.Stored volume (dir.child (stagingName name))
  files : ∀ file, volume.binding? ((dir.child (stagingName name)).child file) ≠ none →
    ∃ index ∈ tried, file = segmentFile index

/-- No file is in the place of the directory that is written to. -/
theorem Writes.noFile (writes : Writes dir name before staging generation tried) (id : FileId) :
    before.binding? (dir.child (stagingName name)) ≠ some (.file id) := by
  rw [writes.there]
  exact fun other => nomatch other

namespace CheckpointKeeper

/-- While nothing is staged, a keeper only needs the generations to be spared. -/
theorem Sound.spared (sound : keeper.Sound dir name last none before)
    (volumeSound : before.Sound) {paths : Path → Prop} {after : Volume}
    (changes : Changes paths NoFile before after) (spares : Spares dir name paths)
    (noFile : ∀ id, after.binding? (dir.child (stagingName name)) ≠ some (.file id)) :
    keeper.Sound dir name last none after :=
  { sound with
    kept := sound.kept.of_changes volumeSound changes spares noFile
    inStaging := fun _ none => nomatch none }

theorem Sound.staging_free (sound : keeper.Sound dir name last none before)
    (volumeSound : before.Sound) {after : Volume}
    (changes : Changes (Within (dir.child (stagingName name))) NoFile before after)
    (noFile : ∀ id, after.binding? (dir.child (stagingName name)) ≠ some (.file id)) :
    keeper.Sound dir name last none after :=
  sound.spared volumeSound changes (spares_staging dir name) noFile

/-- The next generation has the number that the keeper expects. -/
theorem Sound.numberBehind_ok {next : Nat} (sound : keeper.Sound dir name last staged before)
    (numbered : numberBehind keeper.nextGeneration last = .ok next) :
    next = keeper.nextGeneration ∧
      ∀ latest, last = some latest → latest.number < keeper.nextGeneration := by
  cases last with
  | none => exact ⟨(Except.ok.inj numbered).symm, fun _ none => nomatch none⟩
  | some latest =>
      rw [numberBehind, successor] at numbered
      split at numbered
      · rename_i below
        have behind := sound.behind latest rfl below
        have number : max keeper.nextGeneration (latest.number + 1) = next := Except.ok.inj numbered
        constructor
        · rw [← number, behind, Nat.max_self]
        · rintro _ same
          cases same
          rw [behind]
          exact Nat.lt_succ_self _
      · contradiction

theorem numberBehind_error {least : Nat} {error : Error}
    (fails : numberBehind least last = .error error) :
    ∃ latest, last = some latest ∧ ¬latest.number + 1 < generationLimit := by
  cases last with
  | none => contradiction
  | some latest =>
      refine ⟨latest, rfl, fun below => ?_⟩
      rw [numberBehind, successor, if_pos below] at fails
      contradiction

/-- What keeps a checkpoint from being begun when no step is refused. -/
def Hinders (name : String) (last staged : Option Generation) : Prop :=
  staged ≠ none ∨ ¬FitsDirectory (stagingName name) ∨
    ∃ latest, last = some latest ∧ ¬latest.number + 1 < generationLimit

/-- A checkpoint is begun in an empty directory, with a number above all others. -/
def Begins (dir : Path) (name : String) (keeper : CheckpointKeeper) (last staged : Option Generation)
    (seed : UInt64) (bits : Nat) (after : Volume) (staging : Staging) : Prop :=
  staged = none ∧ staging.durable = keeper.durable ∧
    (∀ latest, last = some latest → latest.number < keeper.nextGeneration) ∧
    Writes dir name after staging
      { number := keeper.nextGeneration, seed, segmentBits := bits, parts := [] } []

/-- All generations in a directory, in the order of their numbers. -/
def Lists (volume : Volume) (dir : Path) (name : String) (found : List (Nat × Path)) : Prop :=
  found.Pairwise (fun first second => first.1 ≤ second.1) ∧
    ∀ item, item ∈ found ↔ Stands volume dir name item

/-- The directory that is written to is made where nothing is, and nothing is in it then. -/
theorem makeStaging_meets (volumeSound : before.Sound) (isDir : before.IsDir dir)
    (gone : ∀ path, Within (dir.child (stagingName name)) path → before.binding? path = none) :
    Meets (makeDirectories (dir.child (stagingName name))) before
      (fun _ after => Changes (Within (dir.child (stagingName name))) NoFile before after ∧
        after.binding? (dir.child (stagingName name)) = some .directory ∧
        ∀ file, after.binding? ((dir.child (stagingName name)).child file) = none)
      fun _ after => Changes (Within (dir.child (stagingName name))) NoFile before after ∧
        (∀ id, after.binding? (dir.child (stagingName name)) ≠ some (.file id)) ∧
        (before.Quiet → ¬FitsDirectory (stagingName name)) := by
  have noFile (id : FileId) : before.binding? (dir.child (stagingName name)) ≠ some (.file id) := by
    rw [gone _ (Path.within_self _)]
    exact (Option.some_ne_none _).symm
  by_cases fits : FitsDirectory (stagingName name)
  · have creatable := Creatable.child volumeSound isDir fits noFile
    have within {after : Volume}
        (changes : Changes (Missing before (dir.child (stagingName name))) NoFile before after) :
        Changes (Within (dir.child (stagingName name))) NoFile before after := by
      apply changes.mono _ fun _ _ none => none
      exact fun path missing =>
        within_iff_below.mpr (Or.inl (missing_child volumeSound isDir missing))
    apply Meets.mono (makeDirectories_meets volumeSound creatable)
    · rintro _ after ⟨changes, -, isDirMade⟩
      refine ⟨within changes, isDirMade.resolve_left (Path.child_ne_nil dir _), fun file => ?_⟩
      rw [changes.entry_eq, gone _ (Path.within_child _ file)]
      intro missing
      exact Path.ne_child _ file (missing_child volumeSound isDir missing).symm
    · rintro _ after ⟨changes, creatableStill, refused⟩
      exact ⟨within changes, creatableStill.noFile _ (Path.within_self _),
        fun quiet => absurd quiet refused⟩
  · apply Meets.mono (makeDirectories_unfit volumeSound isDir fits)
    · exact fun _ _ impossible => impossible.elim
    · intro _ after changes
      exact ⟨changes.ofNothing, changes.entry_eq _ (fun nowhere => nowhere) ▸ noFile, fun _ => fits⟩

/-- What the beginning of a checkpoint leaves while none is staged: an empty directory for it, and a
number behind the generations there are. -/
theorem beginStaging_clears (volumeSound : before.Sound) (isDir : before.IsDir dir)
    (noFile : ∀ id, before.binding? (dir.child (stagingName name)) ≠ some (.file id))
    (path : keeper.directory = dir) (named : keeper.name = name) (idle : keeper.staged = none)
    (seed : UInt64) (bits : Nat) :
    Keeping.Ends (beginStaging seed bits) keeper before fun result final after =>
      Changes (Within (dir.child (stagingName name))) NoFile before after ∧
        (∀ id, after.binding? (dir.child (stagingName name)) ≠ some (.file id)) ∧
        match result with
        | .ok staging => ∃ found number, Lists before dir name found ∧
            numberAfter keeper.nextGeneration found = .ok number ∧
            final = { keeper with nextGeneration := number } ∧ staging.durable = keeper.durable ∧
            Writes dir name after staging { number, seed, segmentBits := bits, parts := [] } []
        | .error _ => final = keeper ∧ (before.Quiet → ¬FitsDirectory (stagingName name) ∨
            ∃ found error, Lists before dir name found ∧
              numberAfter keeper.nextGeneration found = .error error) := by
  have idleStill : ¬keeper.staged.isSome = true := by rw [idle]; exact Bool.false_ne_true
  have spares := spares_staging dir name
  apply Keeping.Ends.getThen
  rw [if_neg idleStill]
  simp only [stagingDirectory, path, named, generations]
  apply Keeping.Ends.liftThen
  · apply Meets.mono (clearDirectory_meets volumeSound .removing noFile)
    · exact fun _ _ holds => holds
    · rintro _ after ⟨changes, refused⟩
      have same := changes.entry_eq _ (not_below_self (dir.child (stagingName name)))
      exact ⟨changes.mono (fun _ => Below.within) fun _ _ none => none, same ▸ noFile, rfl,
        fun quiet => absurd quiet refused⟩
  rintro _ cleared ⟨sinceCleared, gone⟩
  have clearedSound := sinceCleared.sound volumeSound
  apply Keeping.Ends.liftThen
  · apply Meets.adapt
    apply Meets.mono (makeStaging_meets clearedSound (sinceCleared.isDir spares.1 isDir) gone)
    · exact fun _ _ holds => holds
    · rintro _ after ⟨changes, noFileStill, unfit⟩
      exact ⟨sinceCleared.trans changes, noFileStill, rfl,
        fun quiet => Or.inl (unfit (sinceCleared.quiet quiet))⟩
  rintro _ made ⟨changes, there, empty⟩
  have sinceMade := sinceCleared.trans changes
  have noFileMade (id : FileId) : made.binding? (dir.child (stagingName name)) ≠ some (.file id) := by
    rw [there]
    rintro ⟨⟩
  apply Keeping.Ends.liftThen
  · apply Meets.mono
      (generationsIn_runs (changes.sound clearedSound) (sinceMade.isDir spares.1 isDir))
    · exact fun _ _ holds => holds
    · rintro _ after ⟨more, refused⟩
      exact ⟨sinceMade.trans more.ofNothing, more.entry_eq _ (fun nowhere => nowhere) ▸ noFileMade,
        rfl, fun quiet => absurd (sinceMade.quiet quiet) refused⟩
  rintro found listed ⟨more, ordered, exactly⟩
  have sinceListed := sinceMade.trans more.ofNothing
  have noFileListed := more.entry_eq _ (fun nowhere => nowhere) ▸ noFileMade
  have lists : Lists before dir name found :=
    ⟨ordered, fun item => (exactly item).trans (stands_congr sinceMade spares)⟩
  apply Keeping.Ends.ofExceptThen
  · exact fun error fails =>
      ⟨sinceListed, noFileListed, rfl, fun _ => Or.inr ⟨found, error, lists, fails⟩⟩
  · intro next same
    refine Keeping.Ends.of_eq rfl
      ⟨sinceListed, noFileListed, found, next, lists, same, by rw [← path, ← named], rfl, ?_⟩
    exact
      { path := rfl
        manifest := rfl
        there := (more.entry_eq _ fun nowhere => nowhere).trans there
        parts := fun _ mem => absurd mem List.not_mem_nil
        files := by
          intro file present
          rw [more.entry_eq _ (fun nowhere => nowhere)] at present
          exact absurd (empty file) present }

theorem beginStaging_ends (volumeSound : before.Sound)
    (sound : keeper.Sound dir name last staged before) (seed : UInt64) (bits : Nat) :
    Keeping.Ends (beginStaging seed bits) keeper before fun result final after =>
      final = keeper ∧ keeper.Sound dir name last staged after ∧
        Changes (Within (dir.child (stagingName name))) NoFile before after ∧
        match result with
        | .ok staging => Begins dir name keeper last staged seed bits after staging
        | .error _ => before.Quiet → Hinders name last staged := by
  cases staged with
  | some generation =>
      have isStaged : keeper.staged.isSome = true := by rw [sound.isStaged]; rfl
      apply Keeping.Ends.getThen
      rw [if_pos isStaged]
      exact Keeping.Ends.of_eq rfl
        ⟨rfl, sound, .refl before, fun _ => Or.inl (Option.some_ne_none generation)⟩
  | none =>
      have numbered {found : List (Nat × Path)} (lists : Lists before dir name found) :
          numberAfter keeper.nextGeneration found = numberBehind keeper.nextGeneration last :=
        numberAfter_of_getLast? (getLast?_of_kept sound.kept lists.1 lists.2)
      apply (beginStaging_clears volumeSound sound.kept.isDir sound.kept.staging sound.path
        sound.named sound.isStaged seed bits).mono
      rintro (error | staging) final after ⟨changes, noFile, ends⟩
      · obtain ⟨rfl, hinders⟩ := ends
        refine ⟨rfl, sound.staging_free volumeSound changes noFile, changes, fun quiet => ?_⟩
        rcases hinders quiet with unfit | ⟨found, error, lists, fails⟩
        · exact Or.inr (Or.inl unfit)
        · exact Or.inr (Or.inr (numberBehind_error ((numbered lists).symm.trans fails)))
      · obtain ⟨found, number, lists, same, rfl, durable, writes⟩ := ends
        obtain ⟨rfl, above⟩ := sound.numberBehind_ok ((numbered lists).symm.trans same)
        exact ⟨rfl, sound.staging_free volumeSound changes noFile, changes, rfl, durable, above,
          writes⟩

end CheckpointKeeper

/-! ## Segments -/

theorem Generation.manifest_add (generation : Generation) (part : Part) :
    (generation.add part).manifest =
      { generation.manifest with
        count := generation.count + part.held.length
        segments := generation.manifest.segments ++ [part.entry] } := by
  have count : (generation.add part).count = generation.count + part.held.length :=
    total_append _ _ _
  have segments : (generation.add part).parts.map Part.entry =
      generation.parts.map Part.entry ++ [part.entry] := List.map_append
  rw [Generation.manifest, count, segments]
  rfl

namespace Writes

/-- The file of a segment that was not tried is not there. -/
theorem free (writes : Writes dir name before staging generation tried) {index : Nat}
    (new : index ∉ tried) :
    before.binding? ((dir.child (stagingName name)).child (segmentFile index)) = none := by
  cases bound : before.binding? ((dir.child (stagingName name)).child (segmentFile index)) with
  | none => rfl
  | some entry =>
      obtain ⟨other, mem, same⟩ := writes.files (segmentFile index) (by simp [bound])
      exact absurd (segmentFile_inj.mp same ▸ mem) new

theorem part_tried (writes : Writes dir name before staging generation tried) {part : Part}
    (mem : part ∈ generation.parts) : part.index ∈ tried := by
  obtain ⟨-, file, holds⟩ := writes.parts part mem
  obtain ⟨index, tried, same⟩ := writes.files part.file (by simp [holds.bound])
  exact segmentFile_inj.mp same ▸ tried

/-- Work on the file of one more segment leaves those recorded as they are. -/
theorem of_changes (writes : Writes dir name before staging generation tried)
    (volumeSound : before.Sound) {index : Nat} {paths : Path → Prop} {after : Volume}
    (new : index ∉ tried) (changes : Changes paths NoFile before after)
    (only : ∀ path, Within (dir.child (stagingName name)) path → paths path →
      path = (dir.child (stagingName name)).child (segmentFile index)) :
    Writes dir name after staging generation (index :: tried) where
  path := writes.path
  manifest := writes.manifest
  there := by
    rw [changes.entry_eq _ fun at_ => Path.ne_child _ _ (only _ (Path.within_self _) at_),
      writes.there]
  parts part mem := by
    obtain ⟨partSound, file, holds⟩ := writes.parts part mem
    have other : ¬paths ((dir.child (stagingName name)).child part.file) := by
      intro at_
      have same := Path.child_inj.mp (only _ (Path.within_child _ _) at_)
      exact new (segmentFile_inj.mp same ▸ writes.part_tried mem)
    exact ⟨partSound, file, holds.of_changes changes volumeSound other fun none => none⟩
  files file present := by
    by_cases same : file = segmentFile index
    · exact ⟨index, List.mem_cons_self, same⟩
    · rw [changes.entry_eq _ fun at_ =>
        same (Path.child_inj.mp (only _ (Path.within_child _ _) at_))] at present
      obtain ⟨other, mem, is⟩ := writes.files file present
      exact ⟨other, List.mem_cons_of_mem _ mem, is⟩

/-- Work elsewhere leaves all of them as they are. -/
theorem of_apart (writes : Writes dir name before staging generation tried)
    (volumeSound : before.Sound) {paths : Path → Prop} {after : Volume}
    (changes : Changes paths NoFile before after) (apart : Apart dir name paths) :
    Writes dir name after staging generation tried where
  path := writes.path
  manifest := writes.manifest
  there := by
    rw [changes.entry_eq _ (apart.owned _ (owned_staging (Path.within_self _))), writes.there]
  parts part mem := by
    obtain ⟨partSound, file, holds⟩ := writes.parts part mem
    have outside := apart.owned _ (owned_staging (Path.within_child _ part.file))
    exact ⟨partSound, file, holds.of_changes changes volumeSound outside fun none => none⟩
  files file present := by
    rw [changes.entry_eq _ (apart.owned _ (owned_staging (Path.within_child _ file)))] at present
    exact writes.files file present

/-- A finished segment file is recorded. -/
theorem record (writes : Writes dir name before staging generation tried) {part : Part}
    {written : Written} (partSound : part.Sound)
    (stored : part.Stored before (dir.child (stagingName name)))
    (describes : written.Describes 0 part.held) :
    Writes dir name before (staging.record part.index written) (generation.add part) tried where
  path := writes.path
  manifest := by
    rw [Generation.manifest_add, Staging.record, writes.manifest, Manifest.record,
      describes.count, describes.checksum]
    rfl
  there := writes.there
  parts other mem := by
    rcases List.mem_append.mp mem with mem | same
    · exact writes.parts other mem
    · rw [List.mem_singleton.mp same]
      exact ⟨partSound, stored⟩
  files := writes.files

/-- The file of a segment is created. -/
theorem segmentWriter_runs (writes : Writes dir name before staging generation tried)
    (volumeSound : before.Sound) {index : Nat} (new : index ∉ tried) (below : index < UInt64.size) :
    Runs (staging.segmentWriter index) before
      (At ((dir.child (stagingName name)).child (segmentFile index))) NoFile fun writer after =>
        writer.Sound after [] ∧ writer.target =
          ((dir.child (stagingName name)).child (segmentFile index), .checkpoint,
            before.contents.size, 0, staging.durable) := by
  rw [Staging.segmentWriter, writes.path]
  exact Writer.create_runs volumeSound (Or.inr writes.there) (segmentFile_fits below)
    (writes.free new) .checkpoint staging.durable 0

end Writes

/-! ## The manifest -/

theorem syncDirectory_runs (volumeSound : before.Sound) {path : Path} (isDir : before.IsDir path) :
    Runs (syncDirectory path) before Nowhere NoFile fun _ _ => True := by
  apply Activity.runs
  apply Runs.bind (openDirectory_runs volumeSound isDir)
  exact fun _ _ _ _ => sync_runs

/-- The manifest completes the generation. -/
theorem writeManifest_runs (writes : Writes dir name before staging generation tried)
    (volumeSound : before.Sound) :
    Runs (CheckpointKeeper.writeManifest staging) before (Below (dir.child (stagingName name))) NoFile
      fun _ after => after.binding? (dir.child (stagingName name)) = some .directory ∧
        generation.Complete after (dir.child (stagingName name)) := by
  have inside (path : Path)
      (same : At ((dir.child (stagingName name)).child manifestFile) path) :
      Below (dir.child (stagingName name)) path :=
    below_iff.mpr ⟨manifestFile, [], same⟩
  have free : before.binding? ((dir.child (stagingName name)).child manifestFile) = none := by
    cases bound : before.binding? ((dir.child (stagingName name)).child manifestFile) with
    | none => rfl
    | some entry =>
        obtain ⟨index, -, same⟩ := writes.files manifestFile (by simp [bound])
        exact absurd same.symm (segmentFile_ne_manifestFile index)
  have creates := createFile_runs volumeSound (Or.inr writes.there) manifestFile_fits free
  rw [CheckpointKeeper.writeManifest, writes.path, writes.manifest]
  apply (Runs.widen _ inside fun _ _ none => none)
  apply Runs.ofFresh
  apply Runs.bind
  · exact Activity.runs (creates.widen (fun _ same => same) fun _ _ none => none.elim)
  rintro id created changes ⟨fresh, known, bound, empty⟩
  have writesAt := (writeAt_runs known 0 generation.manifest.encode.toArray).mono
    fun _ _ changes bytes => And.intro ((changes.entry_eq _ fun nowhere => nowhere).trans bound) bytes
  apply Runs.bind
  · apply Runs.widen (Activity.runs writesAt)
    · exact fun _ nowhere => nowhere.elim
    · exact fun other _ only => Nat.le_of_eq (fresh ▸ only.symm)
  rintro _ written more ⟨stillBound, bytes⟩
  have since := (changes.trans more).ofFresh
  have writtenSound := since.sound volumeSound
  have there : written.binding? (dir.child (stagingName name)) = some .directory := by
    rw [since.entry_eq _ (Path.ne_child _ _), writes.there]
  have complete : generation.Complete written (dir.child (stagingName name)) :=
    { manifest := by
        refine ⟨id, stillBound, ?_⟩
        rw [bytes, empty]
        exact (splice_end #[] _).trans (by simp)
      parts := by
        intro part mem
        obtain ⟨-, file, holds⟩ := writes.parts part mem
        refine ⟨file, holds.of_changes since volumeSound (fun same => ?_) fun none => none⟩
        exact segmentFile_ne_manifestFile part.index (Path.child_inj.mp same) }
  split
  · have syncs : Runs (do
        (Activity.syncing ((dir.child (stagingName name)).child manifestFile)).run sync
        syncDirectory (dir.child (stagingName name)) : Task Unit) written Nowhere NoFile
        fun _ _ => True := by
      apply Runs.bind (Activity.runs sync_runs)
      intro _ synced changes _
      exact syncDirectory_runs (changes.sound writtenSound)
        (changes.isDir (fun nowhere => nowhere) (Or.inr there))
    apply (syncs.mono _).ofNothing
    intro _ after changes _
    refine ⟨(changes.entry_eq _ fun nowhere => nowhere).trans there, ?_⟩
    exact complete.of_changes writtenSound changes (fun _ nowhere => nowhere) fun _ _ _ none => none
  · exact Runs.pure ⟨there, complete⟩

namespace CheckpointKeeper

/-- A staged generation waits for its name. -/
theorem stage_runs (volumeSound : before.Sound) (sound : keeper.Sound dir name last none before)
    (writes : Writes dir name before staging generation tried)
    (generationSound : generation.Sound) (number : generation.number = keeper.nextGeneration)
    (above : ∀ latest, last = some latest → latest.number < generation.number) :
    Keeping.Runs (stage staging) keeper before (Below (dir.child (stagingName name))) NoFile
      (fun count final after => count = generation.count ∧
        final = { keeper with staged := some generation.manifest } ∧
          final.Sound dir name last (some generation) after)
      fun final after => final = keeper ∧ keeper.Sound dir name last none after := by
  have still {after : Volume}
      (changes : Changes (Below (dir.child (stagingName name))) NoFile before after) :
      keeper.Sound dir name last none after := by
    have same := changes.entry_eq _ (not_below_self (dir.child (stagingName name)))
    apply sound.staging_free volumeSound (changes.mono (fun _ => Below.within) fun _ _ none => none)
    rw [same]
    exact writes.noFile
  apply Keeping.Runs.liftThen (writeManifest_runs writes volumeSound)
  · exact fun after changes => ⟨rfl, still changes⟩
  rintro _ after changes ⟨there, complete⟩
  apply Keeping.Runs.modifyThen
  apply Keeping.Runs.pure
  rw [writes.manifest]
  refine ⟨rfl, rfl, ?_⟩
  exact
    { still changes with
      isStaged := rfl
      sound := by
        rintro _ same
        cases same
        exact generationSound
      inStaging := by
        rintro _ same
        cases same
        exact ⟨there, complete⟩
      number := by
        rintro _ same
        cases same
        exact ⟨number, above⟩ }

/-! ## Publishing -/

/-- Removing earlier generations touches only their directories and never fails. -/
theorem removeBelow_meets (volumeSound : before.Sound) (number : Nat) {found : List (Nat × Path)}
    (nonempty : ∀ item ∈ found, item.2 ≠ []) :
    Meets (removeBelow number found) before
      (fun _ after => Changes (fun path => ∃ item ∈ found, item.1 < number ∧ Within item.2 path)
        NoFile before after)
      fun _ _ => False := by
  induction found generalizing before with
  | nil => exact Meets.of_ok rfl (.refl before)
  | cons item found ih =>
      rw [List.forall_mem_cons] at nonempty
      have others {middle : Volume} (changes : Changes (fun path => ∃ other ∈ item :: found,
            other.1 < number ∧ Within other.2 path) NoFile before middle) :
          Meets (removeBelow number found) middle
            (fun _ after => Changes (fun path => ∃ other ∈ item :: found,
              other.1 < number ∧ Within other.2 path) NoFile before after)
            fun _ _ => False := by
        apply Meets.mono (ih (changes.sound volumeSound) nonempty.2)
        · intro _ after more
          apply changes.trans (more.mono _ fun _ _ none => none)
          exact fun path ⟨other, mem, holds⟩ => ⟨other, List.mem_cons_of_mem _ mem, holds⟩
        · exact fun _ _ impossible => impossible
      rw [removeBelow]
      split
      · rename_i below
        have first : Meets (removeGeneration item.2) before
            (fun _ after => Changes (Within item.2) NoFile before after) fun _ _ => False := by
          have unfolded : removeGeneration item.2 before = (.ok (), (removeTree item.2 before).2) :=
            rfl
          rcases (removeTree_changes volumeSound nonempty.1).cases with
            ⟨_, after, result, changes⟩ | ⟨_, after, result, changes⟩
          · exact Meets.of_ok (unfolded.trans (by rw [result])) changes
          · exact Meets.of_ok (unfolded.trans (by rw [result])) changes
        apply Meets.bind first
        intro _ middle changes
        apply others (changes.mono _ fun _ _ none => none)
        exact fun path within => ⟨item, List.mem_cons_self, below, within⟩
      · exact others (.refl before)

/-- What lies in the directories of generations below a number. -/
def Earlier (volume : Volume) (dir : Path) (name : String) (number : Nat) (path : Path) : Prop :=
  ∃ item, Stands volume dir name item ∧ item.1 < number ∧ Within item.2 path

/-- What lies in a directory that stands for no earlier generation. -/
theorem not_earlier {number : Nat} {entry : String}
    (other : ∀ earlier, generationOf? name entry = some earlier → number ≤ earlier) {path : Path}
    (within : Within (dir.child entry) path) : ¬Earlier before dir name number path := by
  rintro ⟨item, ⟨removed, named, same, -⟩, below, inItem⟩
  by_cases equal : entry = removed
  · subst equal
    exact absurd below (Nat.not_lt.mpr (other item.1 named))
  · rw [same, Within, Path.not_within_sibling equal within] at inItem
    contradiction

theorem staging_not_earlier {number : Nat} {path : Path}
    (within : Within (dir.child (stagingName name)) path) : ¬Earlier before dir name number path := by
  apply not_earlier _ within
  intro earlier named
  rw [generationOf?_stagingName] at named
  contradiction

/-- A generation is no earlier one. -/
theorem generation_not_earlier {number : Nat} (below : number < generationLimit) {path : Path}
    (within : Within (dir.child (generationName name number)) path) :
    ¬Earlier before dir name number path := by
  apply not_earlier _ within
  intro earlier named
  rw [generationOf?_generationName below] at named
  exact Nat.le_of_eq (Option.some.inj named)

theorem dir_not_earlier {number : Nat} : ¬Earlier before dir name number dir := by
  rintro ⟨item, ⟨removed, -, same, -⟩, -, within⟩
  rw [same, Within, Path.within_iff] at within
  obtain ⟨rest, equal⟩ := within
  simpa [Path.child] using congrArg List.length equal

theorem owned_earlier {number : Nat} {path : Path} (earlier : Earlier before dir name number path) :
    Owned dir name path := by
  obtain ⟨item, ⟨entry, stands, same, -⟩, -, within⟩ := earlier
  obtain ⟨suffix, rfl⟩ := stem_of_generationOf? stands
  exact ⟨suffix, same ▸ within⟩

/-- The generation published last is not touched when earlier ones are removed. -/
theorem kept_of_removal {after : Volume} (kept : Kept dir name (some generation) before)
    (volumeSound : before.Sound)
    (changes : Changes (Earlier before dir name generation.number) NoFile before after) :
    Kept dir name (some generation) after where
  isDir := changes.isDir dir_not_earlier kept.isDir
  earlier := by
    intro entry number stands present
    apply kept.earlier entry number stands
    by_cases removed : Earlier before dir name generation.number (dir.child entry)
    · obtain ⟨item, ⟨removed, -, same, there⟩, -, within⟩ := removed
      rw [same, Within, Path.within_iff] at within
      obtain ⟨rest, equal⟩ := within
      have child : dir.child entry = dir.child removed := by
        simp only [Path.child, List.append_assoc, List.singleton_append,
          List.append_cancel_left_eq, List.cons.injEq] at equal ⊢
        exact ⟨equal.1, trivial⟩
      rw [child, ← same, there]
      exact Option.some_ne_none _
    · rwa [changes.entry_eq _ removed] at present
  staging := by
    rw [changes.entry_eq _ (staging_not_earlier (Path.within_self _))]
    exact kept.staging
  sound := kept.sound
  isGeneration := by
    rintro _ same
    cases same
    have below := (kept.sound _ rfl).number
    rw [changes.entry_eq _ (generation_not_earlier below (Path.within_self _))]
    exact kept.isGeneration _ rfl
  complete := by
    rintro _ same
    cases same
    have below := (kept.sound _ rfl).number
    apply (kept.complete _ rfl).of_changes volumeSound changes
    · exact fun file => generation_not_earlier below (Path.within_child _ file)
    · exact fun _ _ _ none => none

/-- The name of a staged generation is free. -/
theorem Sound.target_free (sound : keeper.Sound dir name last (some generation) before) :
    before.binding? (dir.child (generationName name generation.number)) = none := by
  cases bound : before.binding? (dir.child (generationName name generation.number)) with
  | none => rfl
  | some entry =>
      have stands := @generationOf?_generationName name _ (sound.sound _ rfl).number
      obtain ⟨latest, same, below, -⟩ := sound.kept.earlier _ _ stands (by simp [bound])
      exact absurd below (Nat.not_le.mpr ((sound.number _ rfl).2 latest same))

/-- The renaming makes the staged generation the last one. -/
theorem Sound.published (sound : keeper.Sound dir name last (some generation) before)
    {after : Volume} (changes : Changes (fun path => Within (dir.child (stagingName name)) path ∨
      Within (dir.child (generationName name generation.number)) path) NoFile before after)
    (moved : ∀ rest, after.binding? (dir.child (generationName name generation.number) ++ rest) =
      before.binding? (dir.child (stagingName name) ++ rest))
    (gone : ∀ path, Within (dir.child (stagingName name)) path → after.binding? path = none)
    (volumeSound : before.Sound) : Kept dir name (some generation) after := by
  obtain ⟨there, complete⟩ := sound.inStaging _ rfl
  have movedChild (file : String) :
      after.binding? ((dir.child (generationName name generation.number)).child file) =
        before.binding? ((dir.child (stagingName name)).child file) := moved [file]
  have kept (id : FileId) (file : String)
      (bound : before.binding? ((dir.child (stagingName name)).child file) = some (.file id)) :
      after.read id = before.read id :=
    changes.read_eq id (volumeSound.stored _ id bound) fun none => none
  exact
    { isDir := by
        apply changes.isDir _ sound.kept.isDir
        rintro (within | within) <;> obtain ⟨rest, same⟩ := Path.within_iff.mp within <;>
          simpa [Path.child] using congrArg List.length same
      earlier := by
        intro entry number stands present
        refine ⟨generation, rfl, ?_⟩
        by_cases own : entry = generationName name generation.number
        · rw [own, generationOf?_generationName (sound.sound _ rfl).number] at stands
          obtain rfl := Option.some.inj stands
          exact ⟨Nat.le_refl _, fun _ => own⟩
        · have outside : ¬(Within (dir.child (stagingName name)) (dir.child entry) ∨
              Within (dir.child (generationName name generation.number)) (dir.child entry)) := by
            rintro (within | within)
            · exact (spares_staging dir name).2 entry number stands _ (Path.within_self _) within
            · have apart := Path.not_within_sibling (Ne.symm own) within
              rw [Path.within_self] at apart
              contradiction
          rw [changes.entry_eq _ outside] at present
          obtain ⟨latest, same, below, -⟩ := sound.kept.earlier entry number stands present
          have less := Nat.lt_of_le_of_lt below ((sound.number _ rfl).2 latest same)
          exact ⟨Nat.le_of_lt less, fun equal => absurd equal (Nat.ne_of_lt less)⟩
      staging := by
        intro id
        rw [gone _ (Path.within_self _)]
        exact (Option.some_ne_none _).symm
      sound := by
        rintro _ same
        cases same
        exact sound.sound _ rfl
      isGeneration := by
        rintro _ same
        cases same
        have root := moved []
        rw [List.append_nil, List.append_nil] at root
        rw [root, there]
      complete := by
        rintro _ same
        cases same
        constructor
        · obtain ⟨file, bound, bytes⟩ := complete.manifest
          exact ⟨file, (movedChild _).trans bound, (kept file _ bound).trans bytes⟩
        · intro part mem
          obtain ⟨file, holds⟩ := complete.parts part mem
          exact ⟨file, (movedChild _).trans holds.bound, (kept file _ holds.bound).trans holds.bytes⟩ }

theorem successor_ok {number next : Nat} (same : successor number = .ok next) :
    next = number + 1 ∧ next < generationLimit := by
  rw [successor] at same
  split at same
  · rename_i below
    obtain rfl := Except.ok.inj same
    exact ⟨rfl, below⟩
  · contradiction

/-- Owned paths that earlier generations and the published one lie at. -/
theorem owned_generation {path : Path} {number : Nat}
    (within : Within (dir.child (generationName name number)) path) : Owned dir name path :=
  ⟨Text.zeroPadded 8 number, within⟩

/-- What is done after the renaming: earlier generations go, and nothing else changes. -/
theorem clearEarlier_ends (volumeSound : before.Sound) {following : CheckpointKeeper}
    (path : keeper.directory = dir) (named : keeper.name = name)
    (sound : following.Sound dir name (some generation) none before) (manifest : Manifest) :
    Keeping.Ends (do
      let found ← (keeper.generations : Task (List (Nat × Path)))
      (removeBelow generation.number found : Task Unit)
      pure manifest : Keeping CheckpointKeeper Manifest) following before fun result final after =>
        final = following ∧ following.Sound dir name (some generation) none after ∧
          Changes (Owned dir name) NoFile before after ∧ (before.Quiet → result = .ok manifest) := by
  rw [generations, path, named]
  apply Keeping.Ends.liftThen
  · apply Meets.mono (generations_runs volumeSound sound.kept)
    · exact fun _ _ holds => holds
    · rintro _ _ ⟨changes, refused⟩
      exact ⟨rfl, sound.of_look volumeSound changes, changes.ofNothing,
        fun quiet => absurd quiet refused⟩
  rintro found listed ⟨changes, exactly, -⟩
  have listedSound := changes.sound volumeSound
  have soundListed := sound.of_look volumeSound changes
  have stand : ∀ item ∈ found, Stands listed dir name item := by
    intro item mem
    obtain ⟨entry, stands, same, there⟩ := (exactly item).mp mem
    exact ⟨entry, stands, same, (changes.entry_eq _ fun nowhere => nowhere).trans there⟩
  have nonempty : ∀ item ∈ found, item.2 ≠ [] := by
    intro item mem
    obtain ⟨entry, -, same, -⟩ := stand item mem
    rw [same]
    exact Path.child_ne_nil dir entry
  apply Keeping.Ends.liftThen
    (Meets.mono (removeBelow_meets listedSound generation.number nonempty) (fun _ _ holds => holds) _)
  · intro _ after more
    have earlier : Changes (Earlier listed dir name generation.number) NoFile listed after := by
      apply more.mono _ fun _ _ none => none
      rintro path ⟨item, mem, below, within⟩
      exact ⟨item, stand item mem, below, within⟩
    have kept := kept_of_removal soundListed.kept listedSound earlier
    have owned := earlier.mono (fun _ => owned_earlier) fun _ _ none => none
    refine Keeping.Ends.of_eq rfl ⟨rfl, ?_, changes.ofNothing.trans owned, fun _ => rfl⟩
    exact
      { soundListed with
        kept
        inStaging := by rintro _ ⟨⟩ }
  · exact fun _ _ impossible => impossible.elim

/-- What a commit leaves behind once the renaming is done. -/
def LeavesPublished (dir : Path) (name : String) (keeper : CheckpointKeeper) (generation : Generation)
    (before : Volume) (result : Except Error Manifest) (final : CheckpointKeeper) (after : Volume) :
    Prop :=
  final.Sound dir name (some generation) none after ∧ final.durable = keeper.durable ∧
    (before.Quiet → generation.number + 1 < generationLimit → result = .ok generation.manifest) ∧
    ∀ manifest, result = .ok manifest → generation.number + 1 < generationLimit

/-- What a commit leaves behind.  Either the renaming was done or nothing was. -/
def CommitLeaves (dir : Path) (name : String) (keeper : CheckpointKeeper)
    (last : Option Generation) (before : Volume) (result : Except Error Manifest)
    (final : CheckpointKeeper) (after : Volume) : Option Generation → Prop
  | none => final = keeper ∧ after = before ∧ ∃ error, result = .error error
  | some generation =>
      (final = keeper ∧ keeper.Sound dir name last (some generation) after ∧
        (∃ error, result = .error error) ∧
          (before.Quiet → ¬FitsDirectory (generationName name generation.number))) ∨
      (final.Sound dir name (some generation) none after ∧ final.durable = keeper.durable ∧
        (before.Quiet → generation.number + 1 < generationLimit → result = .ok generation.manifest) ∧
        ∀ manifest, result = .ok manifest → generation.number + 1 < generationLimit)

/-- A keeper is in charge of what is kept if it has nothing staged and numbers the next
generation behind the last. -/
theorem Sound.of_kept {generation : Generation} {volume : Volume}
    (kept : Kept dir name (some generation) volume) {keeper : CheckpointKeeper}
    (path : keeper.directory = dir) (named : keeper.name = name) (idle : keeper.staged = none)
    (next : keeper.nextGeneration < generationLimit)
    (behind : generation.number + 1 < generationLimit →
      keeper.nextGeneration = generation.number + 1) :
    keeper.Sound dir name (some generation) none volume where
  path := path
  named := named
  kept := kept
  next := next
  first := by rintro ⟨⟩
  behind := by
    rintro _ same
    cases same
    exact behind
  isStaged := idle
  sound := by rintro _ ⟨⟩
  inStaging := by rintro _ ⟨⟩
  number := by rintro _ ⟨⟩

/-- What is done after the renaming, whichever of its steps are refused. -/
theorem published_ends {renamed : Volume} (renamedSound : renamed.Sound)
    (sound : keeper.Sound dir name last (some generation) before)
    (kept : Kept dir name (some generation) renamed)
    (changes : Changes (Owned dir name) NoFile before renamed) :
    Keeping.Ends (do
      modify fun keeper => { keeper with staged := none }
      let next ← Keeping.ofExcept (successor generation.manifest.generation)
      modify fun keeper => { keeper with nextGeneration := next }
      if keeper.durable then
        (syncDirectory dir : Task Unit)
      let found ← (keeper.generations : Task (List (Nat × Path)))
      (removeBelow generation.manifest.generation found : Task Unit)
      pure generation.manifest : Keeping CheckpointKeeper Manifest) keeper renamed
      fun result final after => Changes (Owned dir name) NoFile before after ∧
        LeavesPublished dir name keeper generation before result final after := by
  apply Keeping.Ends.modifyThen
  apply Keeping.Ends.ofExceptThen
  · intro error fails
    have full : ¬generation.number + 1 < generationLimit := by
      intro below
      have number : generation.manifest.generation = generation.number := rfl
      rw [successor, number, if_pos below] at fails
      contradiction
    refine ⟨changes, ?_, rfl, fun _ below => absurd below full, by rintro _ ⟨⟩⟩
    exact Sound.of_kept kept sound.path sound.named rfl sound.next fun below => absurd below full
  · intro next same
    obtain ⟨rfl, below⟩ := successor_ok same
    apply Keeping.Ends.modifyThen
    have following := @Sound.of_kept _ _ generation _ kept { keeper with
      staged := none, nextGeneration := generation.manifest.generation + 1 }
      sound.path sound.named rfl below fun _ => rfl
    have clears {synced : Volume} (more : Changes Nowhere NoFile renamed synced) :=
      (clearEarlier_ends (more.sound renamedSound) sound.path sound.named
        (following.of_look renamedSound more) generation.manifest).mono
        fun result final after holds =>
          show Changes (Owned dir name) NoFile before after ∧
              LeavesPublished dir name keeper generation before result final after by
            obtain ⟨finalEq, finalSound, cleared, whenQuiet⟩ := holds
            exact ⟨(changes.trans more.ofNothing).trans cleared, finalEq ▸ finalSound,
              finalEq ▸ rfl, fun quiet _ => whenQuiet (more.quiet (changes.quiet quiet)),
              fun _ _ => below⟩
    split
    · have syncs := syncDirectory_runs renamedSound kept.isDir
      apply Keeping.Ends.liftThen (Meets.mono syncs (fun _ _ holds => holds) _)
      · exact fun _ synced holds => clears holds.1
      · rintro error synced ⟨more, refused⟩
        exact ⟨changes.trans more.ofNothing, following.of_look renamedSound more, rfl,
          fun quiet => absurd (changes.quiet quiet) refused, by rintro _ ⟨⟩⟩
    · exact clears (.refl renamed)

/-- The staging directory gets the name of a generation, unless that is refused or the name is one
that no directory takes. -/
theorem renaming_meets (volumeSound : before.Sound) {number : Nat}
    (there : before.binding? (dir.child (stagingName name)) = some .directory)
    (isDir : before.IsDir dir) (vacant : Vacant before (dir.child (generationName name number)))
    (below : number < generationLimit) :
    Meets (rename (dir.child (stagingName name)) (dir.child (generationName name number))) before
      (fun _ after =>
        Changes (fun path => Within (dir.child (stagingName name)) path ∨
          Within (dir.child (generationName name number)) path) NoFile before after ∧
        (∀ rest, after.binding? (dir.child (generationName name number) ++ rest) =
          before.binding? (dir.child (stagingName name) ++ rest)) ∧
        ∀ path, Within (dir.child (stagingName name)) path → after.binding? path = none)
      fun _ after => (Changes Nowhere NoFile before after ∧ ¬before.Quiet) ∨
        (after = before.ticked ∧ ¬FitsDirectory (generationName name number)) := by
  by_cases fits : FitsDirectory (generationName name number)
  · have outside : Path.within (dir.child (stagingName name))
        (dir.child (generationName name number)) = false :=
      Path.not_within_sibling (generationName_ne_stagingName below) (Path.within_self _)
    exact Meets.mono (rename_happens volumeSound there isDir fits vacant outside)
      (fun _ _ holds => holds) fun _ _ => Or.inl
  · exact Meets.mono (rename_unfit volumeSound there isDir fits) (fun _ _ => False.elim)
      fun _ _ ticked => Or.inr ⟨ticked, fits⟩

/-- With the renaming the staged generation is the last one that is kept. -/
theorem Sound.renaming_meets (volumeSound : before.Sound)
    (sound : keeper.Sound dir name last (some generation) before) :
    Meets (rename keeper.stagingDirectory (keeper.generationDirectory generation.number)) before
      (fun _ renamed => Changes (Owned dir name) NoFile before renamed ∧
        Kept dir name (some generation) renamed)
      fun _ after => Changes Nowhere NoFile before after ∧
        (before.Quiet → ¬FitsDirectory (generationName name generation.number)) := by
  rw [stagingDirectory, generationDirectory, sound.path, sound.named]
  apply Meets.mono (CheckpointKeeper.renaming_meets volumeSound (sound.inStaging _ rfl).1
    sound.kept.isDir (.of_free volumeSound sound.target_free) (sound.sound _ rfl).number)
  · rintro _ renamed ⟨changes, moved, gone⟩
    refine ⟨changes.mono ?_ fun _ _ none => none, sound.published changes moved gone volumeSound⟩
    exact fun _ => Or.rec owned_staging owned_generation
  · rintro _ _ (⟨changes, refused⟩ | ⟨rfl, unfit⟩)
    · exact ⟨changes, fun quiet => absurd quiet refused⟩
    · exact ⟨changes_ticked before, fun _ => unfit⟩

/-- A commit that does not get as far as the renaming changes nothing in the keeper. -/
theorem commit_unrenamed {manifest : Manifest} (staged : keeper.staged = some manifest)
    {failure : Failure} {after : Volume}
    (renames : rename keeper.stagingDirectory (keeper.generationDirectory manifest.generation) before =
      (.error failure, after)) :
    commit keeper before =
      ((.error (.storage (.publishing keeper.stagingDirectory
        (keeper.generationDirectory manifest.generation)) failure), keeper), after) := by
  rw [commit, Keeping.getThen_apply, staged]
  dsimp only
  rw [Keeping.bind_apply, Keeping.lift_apply, Activity.run, adapt_apply, renames]

/-- A commit that gets as far as the renaming publishes what was staged, whichever of its later steps
are refused. -/
theorem commit_renamed (volumeSound : before.Sound)
    (sound : keeper.Sound dir name last (some generation) before) {renamed : Volume}
    (renames : rename keeper.stagingDirectory (keeper.generationDirectory generation.number) before =
      (.ok (), renamed)) :
    Keeping.Ends commit keeper before fun result final after =>
      Changes (Owned dir name) NoFile before after ∧
        LeavesPublished dir name keeper generation before result final after := by
  rcases (sound.renaming_meets volumeSound).cases with ⟨_, _, same, changes, kept⟩ | ⟨_, _, same, -⟩
  · obtain ⟨-, rfl⟩ := Prod.mk.inj (renames.symm.trans same)
    have done : Meets (rename keeper.stagingDirectory (keeper.generationDirectory generation.number))
        before (fun _ after => after = renamed) fun _ _ => False := Meets.of_ok renames rfl
    apply Keeping.Ends.getThen
    rw [sound.isStaged]
    apply Keeping.Ends.liftThen (Meets.adapt (done.mono (fun _ _ same => same) fun _ _ => False.elim))
    rintro _ _ rfl
    obtain rfl := sound.path
    exact published_ends (changes.sound volumeSound) sound kept changes
  · cases renames.symm.trans same

theorem commit_ends (volumeSound : before.Sound)
    (sound : keeper.Sound dir name last staged before) :
    Keeping.Ends commit keeper before fun result final after =>
      Changes (Owned dir name) NoFile before after ∧
        CommitLeaves dir name keeper last before result final after staged := by
  cases staged with
  | none =>
      have isStaged := sound.isStaged
      apply Keeping.Ends.getThen
      rw [Option.map_none] at isStaged
      rw [isStaged]
      exact Keeping.Ends.of_eq rfl ⟨.refl before, rfl, rfl, _, rfl⟩
  | some generation =>
      rcases (sound.renaming_meets volumeSound).cases with
        ⟨_, renamed, renames, -⟩ | ⟨failure, after, renames, changes, unfit⟩
      · exact (commit_renamed volumeSound sound renames).mono
          fun _ _ _ ⟨changes, publishes⟩ => ⟨changes, Or.inr publishes⟩
      · exact Keeping.Ends.of_eq (commit_unrenamed sound.isStaged renames)
          ⟨changes.ofNothing, Or.inl ⟨rfl, sound.of_look volumeSound changes, ⟨_, rfl⟩, unfit⟩⟩

end CheckpointKeeper

end FingerprintSet
