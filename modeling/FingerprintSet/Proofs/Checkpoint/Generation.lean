import FingerprintSet.Proofs.Checkpoint.Manifest
import FingerprintSet.Proofs.Checkpoint.Naming
import FingerprintSet.Proofs.Checkpoint.Valid
import FingerprintSet.Proofs.Total

/-!
# Complete generations

A generation as it was meant: who wrote it and what each of its segments held.  Its manifest
follows from that.  It is complete in a directory when the manifest and the files of all its
segments are there, and then loading it gives exactly that manifest.
-/

namespace FingerprintSet

open Storage Volume SortedFile

/-- One segment of a generation. -/
structure Part where
  index : Nat
  /-- The fingerprints, in the order in which they were written. -/
  held : List Fingerprint
  deriving DecidableEq, Repr, Inhabited

/-- What a generation is meant to be, with its segments in the order in which they were
written. -/
structure Generation where
  number : Nat
  seed : UInt64
  segmentBits : Nat
  parts : List Part
  deriving DecidableEq, Repr, Inhabited

namespace Part

/-- The name of the file of a segment. -/
def file (part : Part) : String :=
  Checkpoint.segmentFile part.index

/-- The entry of a segment in the manifest. -/
def entry (part : Part) : SegmentEntry where
  index := part.index
  file := part.file
  count := part.held.length
  checksum := Fnv.checksum part.held

/-- A segment that can be written down. -/
structure Sound (part : Part) : Prop where
  index : part.index < UInt64.size
  ascending : Ascending part.held

/-- The file of a segment is there. -/
def Stored (volume : Volume) (dir : Path) (part : Part) : Prop :=
  ∃ file, Holds volume (dir.child part.file) .checkpoint part.held file

end Part

namespace Generation

variable {generation : Generation} {before : Volume} {dir : Path}

/-- The number of fingerprints. -/
def count (generation : Generation) : Nat :=
  total (·.held.length) generation.parts

/-- All fingerprints, segment by segment. -/
def held (generation : Generation) : List Fingerprint :=
  generation.parts.flatMap (·.held)

/-- The manifest of a generation. -/
def manifest (generation : Generation) : Manifest where
  formatVersion := SortedFile.formatVersion.toNat
  generation := generation.number
  seed := generation.seed
  segmentBits := generation.segmentBits
  count := generation.count
  segments := generation.parts.map Part.entry

/-- A generation that can be written down. -/
structure Sound (generation : Generation) : Prop where
  number : generation.number < Checkpoint.generationLimit
  bits : generation.segmentBits < UInt32.size
  parts : ∀ part ∈ generation.parts, part.Sound

/-- A generation that can be read again: the number of its fingerprints fits its field. -/
def Counted (generation : Generation) : Prop :=
  generation.count < UInt64.size

theorem length_held (generation : Generation) : generation.held.length = generation.count := by
  rw [held, count, length_flatMap]

theorem Counted.part (counted : generation.Counted) {part : Part} (mem : part ∈ generation.parts) :
    part.held.length < UInt64.size :=
  Nat.lt_of_le_of_lt (le_total_of_mem (·.held.length) mem) counted

end Generation

/-! ## The manifest -/

namespace Checkpoint

theorem mem_segmentFile {index : Nat} {c : Char} (mem : c ∈ (segmentFile index).toList) :
    c ∈ "seg-.fps".toList ∨ ∃ d < 10, c = Text.digitChar d := by
  have fixed : (∀ c ∈ "seg-".toList, c ∈ "seg-.fps".toList) ∧
      ∀ c ∈ ".fps".toList, c ∈ "seg-.fps".toList := by simp
  rw [segmentFile_eq, toList_numbered, List.mem_append, List.mem_append] at mem
  rcases mem with (mem | mem) | mem
  · exact Or.inl (fixed.1 c mem)
  · rw [Text.toList_zeroPadded] at mem
    obtain ⟨d, digit, rfl⟩ := List.mem_map.mp mem
    exact Or.inr ⟨d, Text.paddedDigits_lt 4 index d digit, rfl⟩
  · exact Or.inl (fixed.2 c mem)

theorem segmentFile_plainText (index : Nat) : Json.IsPlainText (segmentFile index) := by
  intro c mem
  rcases mem_segmentFile mem with fixed | ⟨d, small, rfl⟩
  · have every : Json.IsPlainText "seg-.fps" := by decide
    exact every c fixed
  · have every : ∀ d < 10, Json.IsPlainChar (Text.digitChar d) := by decide
    exact every d small

theorem segmentFile_plainName (index : Nat) : plainName (segmentFile index) = true := by
  have slashless : '/' ∉ (segmentFile index).toList := by
    intro mem
    rcases mem_segmentFile mem with fixed | ⟨d, small, same⟩
    · exact absurd fixed (by decide)
    · have every : ∀ d < 10, '/' ≠ Text.digitChar d := by decide
      exact every d small same
  have first : (segmentFile index).toList.head? = some 's' := by
    rw [segmentFile_eq, toList_numbered]
    rfl
  have differs (text : String) (other : text.toList.head? ≠ some 's') : segmentFile index ≠ text := by
    rintro same
    exact other (same ▸ first)
  rw [plainName, bne_iff_ne.mpr (differs "" (by decide)), bne_iff_ne.mpr (differs "." (by decide)),
    bne_iff_ne.mpr (differs ".." (by decide)), List.contains_eq_mem, decide_eq_false slashless]
  rfl

end Checkpoint

namespace Generation

variable {generation : Generation} {before : Volume} {dir : Path}

theorem Sound.manifest_fits (sound : generation.Sound) (counted : generation.Counted) :
    generation.manifest.Fits where
  version := show SortedFile.formatVersion.toNat < UInt32.size by decide
  generation := sound.number
  bits := sound.bits
  count := counted
  segments := by
    intro entry mem
    obtain ⟨part, partMem, rfl⟩ := List.mem_map.mp mem
    exact
      { index := (sound.parts part partMem).index
        count := counted.part partMem
        file := Checkpoint.segmentFile_plainText part.index }

/-- All files of a generation are there. -/
structure Complete (volume : Volume) (dir : Path) (generation : Generation) : Prop where
  manifest : ∃ file, volume.binding? (dir.child Checkpoint.manifestFile) = some (.file file) ∧
    volume.read file = generation.manifest.encode.toArray
  parts : ∀ part ∈ generation.parts, part.Stored volume dir

/-- A generation stays complete while nothing happens to its files. -/
theorem Complete.of_changes {paths : Path → Prop} {files : FileId → Prop} {after : Volume}
    (complete : generation.Complete before dir) (sound : before.Sound)
    (changes : Changes paths files before after) (outside : ∀ name, ¬paths (dir.child name))
    (untouched : ∀ name id, before.binding? (dir.child name) = some (.file id) → ¬files id) :
    generation.Complete after dir where
  manifest := by
    obtain ⟨file, bound, bytes⟩ := complete.manifest
    refine ⟨file, (changes.entry_eq _ (outside _)).trans bound, ?_⟩
    rw [changes.read_eq file (sound.stored _ _ bound) (untouched _ file bound), bytes]
  parts part mem := by
    obtain ⟨file, holds⟩ := complete.parts part mem
    exact ⟨file, holds.of_changes changes sound (outside _) (untouched _ file holds.bound)⟩

end Generation

/-! ## Loading -/

namespace Checkpoint

variable {generation : Generation} {before : Volume} {dir : Path}

/-- The bytes of the file of a segment. -/
theorem bytes?_of_stored {part : Part} (stored : part.Stored before dir) :
    before.bytes? (dir.child part.file) = some (fileBytes .checkpoint part.held) := by
  obtain ⟨file, holds⟩ := stored
  exact bytes?_eq_some_iff.mpr ⟨file, holds.bound, holds.bytes⟩

/-- The bytes of the manifest. -/
theorem bytes?_manifestFile (complete : generation.Complete before dir) :
    before.bytes? (dir.child manifestFile) = some generation.manifest.encode.toArray := by
  obtain ⟨file, bound, bytes⟩ := complete.manifest
  exact bytes?_eq_some_iff.mpr ⟨file, bound, bytes⟩

/-- What the file of a segment holds. -/
theorem held_entry {part : Part} (stored : part.Stored before dir) :
    part.entry.held before dir = part.held :=
  (SegmentEntry.held_eq (bytes?_of_stored stored)).trans (entriesIn_fileBytes .checkpoint part.held)

theorem total_entries (parts : List Part) :
    total (·.count) (parts.map Part.entry) = total (·.held.length) parts :=
  total_map _ Part.entry parts

/-- The file of a segment agrees with its entry. -/
theorem valid_entry {part : Part} (partSound : part.Sound)
    (few : part.held.length < UInt64.size) (stored : part.Stored before dir) :
    part.entry.Valid before dir where
  plain := segmentFile_plainName part.index
  file := ⟨_, headerOf part.held, bytes?_of_stored stored, intact_fileBytes few, count_headerOf few, rfl⟩
  ascending := by
    rw [held_entry stored]
    exact partSound.ascending

/-- A complete generation is valid. -/
theorem valid_of_complete (complete : generation.Complete before dir)
    (generationSound : generation.Sound) (counted : generation.Counted) :
    Valid before dir generation.number generation.manifest where
  described := by
    refine ⟨_, bytes?_manifestFile complete, ?_⟩
    rw [List.toList_toArray]
    exact Manifest.decode_encode (generationSound.manifest_fits counted)
  version := rfl
  generation := rfl
  segments := by
    intro entry mem
    obtain ⟨part, partMem, rfl⟩ := List.mem_map.mp mem
    exact valid_entry (generationSound.parts part partMem) (counted.part partMem)
      (complete.parts part partMem)
  counted := total_entries generation.parts

/-- A complete generation is loaded with exactly its manifest. -/
theorem load_runs (sound : before.Sound) (generationSound : generation.Sound)
    (counted : generation.Counted) (complete : generation.Complete before dir) :
    Runs (load dir generation.number) before Nowhere NoFile fun checkpoint _ =>
      checkpoint = { directory := dir, manifest := generation.manifest } := by
  have valid := valid_of_complete complete generationSound counted
  refine ((load_decides sound).runs ⟨_, valid⟩).mono ?_
  rintro ⟨directory, manifest⟩ _ _ ⟨same, found⟩
  exact congr (congrArg Checkpoint.mk same) (found.unique valid)

/-! ## Loading anything -/

theorem verifyEntries_looks (path : Path) (bound : Nat) (last : Option Fingerprint)
    (reader : Reader) : Looks (verifyEntries path bound last reader) := by
  induction bound generalizing last reader with
  | zero => exact Looks.pure ()
  | succ bound ih =>
      intro before
      have asked := Reader.next_changes reader before
      have unfolded := verifyEntries_apply path bound last reader before
      rcases next : reader.next before with ⟨⟨reader, pull⟩, after⟩
      rw [next] at asked unfolded
      cases pull with
      | ended => exact Meets.of_ok unfolded asked
      | failed error => exact Meets.of_error unfolded asked
      | value fp =>
          have goesOn : Looks (if last.any (fp ≤ ·) then throw (.corrupt path .entriesOutOfOrder)
              else verifyEntries path bound (some fp) reader : Task Unit) := by
            split
            · exact Looks.throw _
            · exact ih (some fp) reader
          have meets := Meets.mono (goesOn after) (fun _ _ more => asked.trans more)
            fun _ _ more => asked.trans more
          dsimp only at unfolded
          exact meets.comesTo unfolded

theorem verifySegment_looks (dir : Path) (entry : SegmentEntry) :
    Looks (verifySegment dir entry) := by
  rw [verifySegment]
  split
  · exact Looks.throw _
  · apply Looks.bind (Reader.openAt_looks _ _)
    intro reader
    split
    · exact verifyEntries_looks _ _ _ _
    · exact Looks.throw _

theorem readManifest_looks (dir : Path) : Looks (readManifest dir) := by
  apply Looks.bind (Looks.adapt (readWhole_looks _))
  intro bytes
  cases Manifest.decode bytes.toList with
  | some manifest => exact Looks.pure manifest
  | none => exact Looks.throw _

/-- Loading changes nothing, whatever is loaded. -/
theorem load_looks (dir : Path) (number : Nat) : Looks (load dir number) := by
  apply Looks.bind (readManifest_looks dir)
  intro manifest
  dsimp only
  split
  · exact Looks.throw _
  · split
    · exact Looks.throw _
    · apply Looks.bind
      · induction manifest.segments with
        | nil => exact Looks.pure _
        | cons entry entries ih => exact (verifySegment_looks dir entry).bind fun _ => ih
      · intro _
        split
        · exact Looks.pure _
        · exact Looks.throw _

end Checkpoint

end FingerprintSet
