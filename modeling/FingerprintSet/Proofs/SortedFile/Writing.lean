import FingerprintSet.Proofs.SortedFile.Layout
import FingerprintSet.SortedFile.Writer

/-!
# What writing a fingerprint file leaves

A writer's file and the bytes it has gathered are always the room for the header followed by
the entries so far.  Finishing puts the header in that room, so the file is then laid out as
a file with exactly these entries.
-/

namespace FingerprintSet.SortedFile

open Storage Volume

variable {before : Volume}

theorem splice_end (contents piece : Bytes) :
    splice contents contents.size piece = contents ++ piece := by
  have behind : contents.extract (contents.size + piece.size) contents.size = #[] :=
    Array.extract_empty_of_stop_le_start (Nat.le_add_right _ _)
  rw [splice, behind]
  simp

theorem splice_start (contents piece : Bytes) :
    splice contents 0 piece = piece ++ contents.extract piece.size contents.size := by
  simp [splice]

/-- What is known of a finished file is true of its entries. -/
structure Written.Describes (written : Written) (stride : Nat) (fps : List Fingerprint) :
    Prop where
  count : written.count = fps.length
  checksum : written.checksum = Fnv.checksum fps
  first : written.first = fps.head?
  last : written.last = fps.getLast?
  sampled : 0 < stride → Samples stride written.index fps

namespace Writer

/-- What a writer never changes. -/
def target (writer : Writer) : Path × Kind × FileId × Nat × Bool :=
  (writer.path, writer.kind, writer.file, writer.stride, writer.durable)

/-- A writer has taken in the given entries. -/
structure Sound (volume : Volume) (writer : Writer) (fps : List Fingerprint) : Prop where
  bound : volume.binding? writer.path = some (.file writer.file)
  written : writer.written = (volume.read writer.file).size
  bytes : (volume.read writer.file).toList ++ writer.gathered.toList =
    List.replicate headerLength 0 ++ Word.allBytes fps
  sum : writer.sum = Fnv.checksum fps
  count : writer.count = fps.length
  first : writer.first = fps.head?
  last : writer.last = fps.getLast?
  sampled : 0 < writer.stride → Samples writer.stride writer.index fps

theorem Sound.of_changes {writer : Writer} {fps : List Fingerprint} {after : Volume}
    {paths : Path → Prop} {files : FileId → Prop} (sound : writer.Sound before fps)
    (volumeSound : before.Sound) (changes : Changes paths files before after)
    (outside : ¬paths writer.path) (untouched : ¬files writer.file) : writer.Sound after fps := by
  have same := changes.read_eq _ (volumeSound.stored _ _ sound.bound) untouched
  exact
    { sound with
      bound := (changes.entry_eq _ outside).trans sound.bound
      written := by rw [same, sound.written]
      bytes := by rw [same, sound.bytes] }

/-- A file without its header is no page yet. -/
theorem Sound.not_isPage {writer : Writer} {fps : List Fingerprint}
    (sound : writer.Sound before fps) : ¬IsPage before writer.file := by
  rintro ⟨-, entries, bytes⟩
  have letters := congrArg List.head? sound.bytes
  rw [bytes] at letters
  have first : some (0x46 : UInt8) = some 0 := letters
  exact absurd first (by decide)

theorem create_runs (sound : before.Sound) {dir : Path} {name : String}
    (isDir : before.IsDir dir) (fits : FitsDirectory name)
    (free : before.binding? (dir.child name) = none) (kind : Kind) (durable : Bool) (stride : Nat) :
    Runs (create (dir.child name) kind durable stride) before (At (dir.child name)) NoFile
      fun writer after => writer.Sound after [] ∧
        writer.target = (dir.child name, kind, before.contents.size, stride, durable) := by
  refine Runs.bind (Activity.runs (createFile_runs sound isDir fits free)) ?_
  rintro _ after changes ⟨rfl, known, bound, empty⟩
  refine Runs.pure ⟨?_, rfl⟩
  exact
    { bound := bound
      written := by simp [empty]
      bytes := by simp [empty]
      sum := rfl
      count := rfl
      first := rfl
      last := rfl
      sampled := fun _ => samples_nil stride }

theorem flush_runs {writer : Writer} {fps : List Fingerprint} (sound : before.Sound)
    (taken : writer.Sound before fps) :
    Runs writer.flush before Nowhere (Only writer.file) fun flushed after =>
      flushed.Sound after fps ∧ flushed.target = writer.target ∧ flushed.gathered = #[] := by
  rw [flush]
  split
  · rename_i empty
    exact Runs.pure ⟨taken, rfl, by simpa using empty⟩
  · have known := sound.stored _ _ taken.bound
    refine Runs.bind (writeAt_runs known writer.written writer.gathered) ?_
    intro _ after changes bytes
    rw [taken.written, splice_end] at bytes
    refine Runs.pure ⟨?_, rfl, rfl⟩
    exact
      { taken with
        bound := (changes.entry_eq _ id).trans taken.bound
        written := by rw [bytes, Array.size_append, taken.written]
        bytes := by simp [bytes, taken.bytes] }

/-- Giving a file up writes to it at most. -/
theorem abandon_runs {writer : Writer} (known : writer.file < before.contents.size) :
    Runs writer.abandon before Nowhere (Only writer.file) fun _ _ => True := by
  have flushes : Runs writer.flush before Nowhere (Only writer.file) fun _ _ => True := by
    rw [flush]
    split
    · exact Runs.pure trivial
    · exact Runs.bind (writeAt_runs known _ _) fun _ _ _ _ => Runs.pure trivial
  have unfolded : writer.abandon before = (.ok (), (writer.flush before).2) := rfl
  rcases flushes.cases with ⟨_, after, result, changes, _⟩ | ⟨_, after, result, changes, _⟩
  · exact Meets.of_ok (by rw [unfolded, result]) ⟨changes, trivial⟩
  · exact Meets.of_ok (by rw [unfolded, result]) ⟨changes, trivial⟩

/-- A file in whose course a step is refused is given up, and the refusal stays. -/
theorem orAbandon_runs {α : Type} {writer : Writer} {task : Task α}
    {good : α → Volume → Prop} (known : writer.file < before.contents.size)
    (runs : Runs task before Nowhere (Only writer.file) good) :
    Runs (writer.orAbandon task) before Nowhere (Only writer.file) good := by
  refine Meets.tryCatch runs ?_
  rintro error after ⟨changes, refused⟩
  have knownStill := Nat.lt_of_lt_of_le known changes.size_le
  refine Meets.bind ((abandon_runs knownStill).since changes) ?_
  rintro _ final ⟨more, -⟩
  exact Meets.of_error rfl ⟨more, refused⟩

/-- One more entry goes behind all before it. -/
theorem gather_sound {writer : Writer} {fps : List Fingerprint} (taken : writer.Sound before fps)
    (fp : Fingerprint) : (writer.gather fp).Sound before (fps ++ [fp]) where
  bound := taken.bound
  written := taken.written
  bytes := by
    have split : (writer.gather fp).gathered.toList = writer.gathered.toList ++ Word.bytes fp :=
      Array.toList_appendList ..
    have file : (writer.gather fp).file = writer.file := rfl
    rw [split, file, ← List.append_assoc, taken.bytes, Word.allBytes_append, List.append_assoc]
    simp
  sum := by
    rw [gather, taken.sum, Fnv.checksum, Fnv.checksum, List.foldl_append, List.foldl_cons,
      List.foldl_nil]
  count := by
    show writer.count + 1 = _
    rw [taken.count, List.length_append, List.length_singleton]
  first := by
    show (writer.first <|> some fp) = _
    rw [taken.first]
    cases fps <;> rfl
  last := by
    show some fp = _
    simp
  sampled := by
    intro positive
    have more := (taken.sampled positive).snoc positive fp
    rw [← taken.count] at more
    simpa only [gather, and_iff_right (show 0 < writer.stride from positive)] using more

theorem push_runs {writer : Writer} {fps : List Fingerprint} (sound : before.Sound)
    (taken : writer.Sound before fps) (fp : Fingerprint) :
    Runs (writer.push fp) before Nowhere (Only writer.file) fun pushed after =>
      pushed.Sound after (fps ++ [fp]) ∧ pushed.target = writer.target := by
  rw [push]
  split
  · have known := sound.stored _ _ taken.bound
    refine Runs.bind (orAbandon_runs known (Activity.runs (flush_runs sound taken))) ?_
    rintro flushed after _ ⟨flushedTaken, same, -⟩
    exact Runs.pure ⟨gather_sound flushedTaken fp, same⟩
  · exact Runs.pure ⟨gather_sound taken fp, rfl⟩

theorem pushAll_runs {writer : Writer} (more : List Fingerprint) {fps : List Fingerprint}
    (sound : before.Sound) (taken : writer.Sound before fps) :
    Runs (writer.pushAll more) before Nowhere (Only writer.file) fun pushed after =>
      pushed.Sound after (fps ++ more) ∧ pushed.target = writer.target := by
  induction more generalizing writer fps before with
  | nil => exact Runs.pure ⟨by rwa [List.append_nil], rfl⟩
  | cons fp more ih =>
      refine Runs.bind (push_runs sound taken fp) ?_
      rintro pushed after changes ⟨pushedTaken, same⟩
      have file : pushed.file = writer.file := congrArg (·.2.2.1) same
      rw [← file]
      refine (ih (changes.sound sound) pushedTaken).mono fun last final _ ⟨lastTaken, sameStill⟩ => ?_
      rw [List.append_assoc] at lastTaken
      exact ⟨lastTaken, sameStill.trans same⟩

/-- Putting the header into its room completes the layout. -/
theorem splice_header {writer : Writer} {fps : List Fingerprint}
    (taken : writer.Sound before fps) (empty : writer.gathered = #[]) :
    splice (before.read writer.file) 0 (writer.header.encode writer.kind).toArray =
      fileBytes writer.kind fps := by
  have header : writer.header = headerOf fps := by
    rw [Writer.header, headerOf, taken.count, taken.sum]
  have contents : (before.read writer.file).toList =
      List.replicate headerLength 0 ++ Word.allBytes fps := by
    simpa [empty] using taken.bytes
  have entries : ((before.read writer.file).extract headerLength
      (before.read writer.file).size).toList = Word.allBytes fps := by
    rw [Array.toList_extract, List.extract_eq_take_drop, contents,
      List.drop_left' (List.length_replicate ..), ← Array.length_toList, contents,
      List.length_append, List.length_replicate, Nat.add_sub_cancel_left, List.take_length]
  rw [splice_start, List.size_toArray, length_encode, fileBytes, ← header,
    ← Array.toList_inj, Array.toList_append, entries]

/-- A finished file is laid out as a file with the entries that were taken in. -/
theorem finish_runs {writer : Writer} {fps : List Fingerprint} (sound : before.Sound)
    (taken : writer.Sound before fps) :
    Runs writer.finish before Nowhere (Only writer.file) fun written after =>
      Holds after writer.path writer.kind fps writer.file ∧ written.path = writer.path ∧
        written.Describes writer.stride fps := by
  have known := sound.stored _ _ taken.bound
  refine Runs.bind (orAbandon_runs known (Activity.runs (flush_runs sound taken))) ?_
  rintro flushed after changes ⟨flushedTaken, same, empty⟩
  have knownStill := Nat.lt_of_lt_of_le known changes.size_le
  simp only [target, Prod.mk.injEq] at same
  obtain ⟨path, kind, file, stride, -⟩ := same
  rw [← file] at knownStill changes ⊢
  have headed : Runs (do
      writeAt flushed.file 0 (flushed.header.encode flushed.kind).toArray
      if flushed.durable then sync) after Nowhere (Only flushed.file) fun _ final =>
        final.binding? flushed.path = some (.file flushed.file) ∧
          final.read flushed.file = fileBytes flushed.kind fps := by
    refine Runs.bind (writeAt_runs knownStill 0 _) fun _ headed more bytes => ?_
    have laidOut : headed.read flushed.file = fileBytes flushed.kind fps := by
      rw [bytes, splice_header flushedTaken empty]
    have knownHeaded := Nat.lt_of_lt_of_le knownStill more.size_le
    have bound := (more.entry_eq _ id).trans flushedTaken.bound
    split
    · exact (sync_runs.mono fun _ final last _ => And.intro ((last.entry_eq _ id).trans bound)
        ((last.read_eq _ knownHeaded id).trans laidOut)).ofNothing
    · exact Runs.pure ⟨bound, laidOut⟩
  refine Runs.bind (Activity.runs headed) ?_
  rintro _ final more ⟨bound, bytes⟩
  refine Runs.pure ⟨⟨path ▸ bound, kind ▸ bytes⟩, path, ?_⟩
  exact
    { count := flushedTaken.count
      checksum := flushedTaken.sum
      first := flushedTaken.first
      last := flushedTaken.last
      sampled := stride ▸ flushedTaken.sampled }

end Writer

/-- Writing a list leaves a file with exactly its items. -/
theorem writeList_runs (sound : before.Sound) {dir : Path} {name : String}
    (isDir : before.IsDir dir) (fits : FitsDirectory name)
    (free : before.binding? (dir.child name) = none) (kind : Kind) (durable : Bool) (stride : Nat)
    (fps : List Fingerprint) :
    Runs (writeList (dir.child name) kind durable stride fps) before (At (dir.child name)) NoFile
      fun written after => Holds after (dir.child name) kind fps before.contents.size ∧
        written.path = dir.child name ∧ written.Describes stride fps := by
  refine Runs.ofFresh ?_
  have own (id : FileId) (only : Only before.contents.size id) : before.Fresh id :=
    Nat.le_of_eq only.symm
  refine Runs.bind ((Writer.create_runs sound isDir fits free kind durable stride).widen
    (fun _ inside => inside) fun _ _ none => none.elim) ?_
  rintro writer created changes ⟨taken, same⟩
  simp only [Writer.target, Prod.mk.injEq] at same
  obtain ⟨path, kindEq, file, strideEq, -⟩ := same
  refine Runs.bind ((Writer.pushAll_runs fps (changes.sound sound) taken).widen
    (fun _ nowhere => nowhere.elim) fun id _ only => own id (file ▸ only)) ?_
  rintro pushed after more ⟨pushedTaken, same⟩
  simp only [Writer.target, Prod.mk.injEq] at same
  obtain ⟨samePath, sameKind, sameFile, sameStride, -⟩ := same
  rw [← kindEq, ← path, ← strideEq, ← file, ← sameKind, ← samePath, ← sameStride, ← sameFile]
  refine (Writer.finish_runs (more.sound (changes.sound sound)) pushedTaken).widen
    (fun _ nowhere => nowhere.elim) fun id _ only => own id ?_
  rw [Only, ← file, ← sameFile]
  exact only

end FingerprintSet.SortedFile
