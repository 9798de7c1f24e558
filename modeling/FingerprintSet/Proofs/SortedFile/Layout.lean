import FingerprintSet.Proofs.Storage.Steps
import FingerprintSet.Proofs.Word
import FingerprintSet.SortedFile.Header

/-!
# The layout of fingerprint files

What a finished file holds: a header and the entries.  The header is read back exactly.  A
sample keeps the entries at the multiples of a stride, which is what the index of a page is.
-/

namespace FingerprintSet

open Storage

namespace SortedFile

/-- The header of a file with the given entries. -/
def headerOf (fps : List Fingerprint) : Header where
  count := UInt64.ofNat fps.length
  checksum := Fnv.checksum fps

/-- The bytes of a whole file. -/
def fileBytes (kind : Kind) (fps : List Fingerprint) : Bytes :=
  ((headerOf fps).encode kind ++ Word.allBytes fps).toArray

/-- More entries than a header can count. -/
def countLimit : Nat := UInt64.size

theorem count_headerOf {fps : List Fingerprint} (few : fps.length < countLimit) :
    (headerOf fps).count.toNat = fps.length := by
  rw [headerOf, UInt64.toNat_ofNat']
  exact Nat.mod_eq_of_lt few

@[simp]
theorem length_magic (kind : Kind) : kind.magic.length = 4 := by
  cases kind <;> rfl

@[simp]
theorem length_encode (kind : Kind) (header : Header) :
    (header.encode kind).length = headerLength := by
  simp [Header.encode, headerLength]

/-- A header is read back as it was written. -/
theorem decode_encode (kind : Kind) (header : Header) :
    Header.decode kind (header.encode kind) = .ok header := by
  have magic : (header.encode kind).take 4 = kind.magic := by
    rw [Header.encode, List.append_assoc, List.append_assoc, List.append_assoc]
    exact List.take_left' (length_magic kind)
  have afterMagic : (header.encode kind).drop 4 = Word.halfBytes formatVersion ++
      (Word.bytes header.count ++ (Word.bytes header.checksum ++ List.replicate 8 0)) := by
    simp only [Header.encode, List.append_assoc]
    exact List.drop_left' (length_magic kind)
  have afterVersion : (header.encode kind).drop 8 =
      Word.bytes header.count ++ (Word.bytes header.checksum ++ List.replicate 8 0) := by
    have split : (header.encode kind).drop 8 = ((header.encode kind).drop 4).drop 4 := by simp
    rw [split, afterMagic]
    exact List.drop_left' (Word.length_halfBytes _)
  have afterCount : (header.encode kind).drop 16 =
      Word.bytes header.checksum ++ List.replicate 8 0 := by
    have split : (header.encode kind).drop 16 = ((header.encode kind).drop 8).drop 8 := by simp
    rw [split, afterVersion]
    exact List.drop_left' (Word.length_bytes _)
  have version : Word.natOfBytes (((header.encode kind).drop 4).take 4) = formatVersion.toNat := by
    rw [afterMagic, List.take_left' (Word.length_halfBytes _), Word.natOfBytes_halfBytes]
  rw [Header.decode, if_neg (by simp), if_neg (by simp [magic])]
  simp only [version, ne_eq, not_true_eq_false, if_false, afterVersion, afterCount]
  rw [List.take_left' (Word.length_bytes _), List.take_left' (Word.length_bytes _),
    Word.ofBytes_bytes, Word.ofBytes_bytes]

theorem size_fileBytes (kind : Kind) (fps : List Fingerprint) :
    (fileBytes kind fps).size = headerLength + entryLength * fps.length := by
  simp [fileBytes, entryLength]

/-- The entries of a file stand behind its header. -/
theorem drop_fileBytes (kind : Kind) (fps : List Fingerprint) :
    (fileBytes kind fps).toList.drop headerLength = Word.allBytes fps :=
  List.drop_left' (length_encode kind _)

theorem take_fileBytes (kind : Kind) (fps : List Fingerprint) :
    (fileBytes kind fps).toList.take headerLength = (headerOf fps).encode kind :=
  List.take_left' (length_encode kind _)

/-- The entries behind the header of a file. -/
def entriesIn (bytes : Bytes) : List Fingerprint :=
  let body := bytes.extract headerLength bytes.size
  (List.range (body.size / entryLength)).map fun place =>
    Word.ofBytesAt body (place * entryLength)

/-- What the bytes behind the header spell are the entries. -/
theorem entriesIn_eq {bytes : Bytes} {fps : List Fingerprint}
    (spelled : bytes.toList.drop headerLength = Word.allBytes fps) : entriesIn bytes = fps := by
  have body : (bytes.extract headerLength bytes.size).toList = Word.allBytes fps := by
    rw [Array.toList_extract, List.extract_eq_take_drop, spelled, ← Array.length_toList,
      ← List.length_drop, spelled, List.take_length]
  have size : (bytes.extract headerLength bytes.size).size / entryLength = fps.length := by
    rw [← Array.length_toList, body, Word.length_allBytes, entryLength]
    omega
  rw [entriesIn, size]
  apply List.ext_getElem
  · simp
  · intro place inRange inside
    rw [List.getElem_map, List.getElem_range]
    exact Word.ofBytesAt_allBytes body inside

theorem entriesIn_fileBytes (kind : Kind) (fps : List Fingerprint) :
    entriesIn (fileBytes kind fps) = fps :=
  entriesIn_eq (drop_fileBytes kind fps)

/-- A file of the right length is spelled by its entries. -/
theorem allBytes_entriesIn {bytes : Bytes} {count : Nat}
    (size : bytes.size = headerLength + entryLength * count) :
    Word.allBytes (entriesIn bytes) = bytes.toList.drop headerLength ∧
      (entriesIn bytes).length = count := by
  have length : (bytes.toList.drop headerLength).length = 8 * count := by
    rw [List.length_drop, Array.length_toList, size, Nat.add_sub_cancel_left, entryLength]
  obtain ⟨words, counted, spelled⟩ := Word.exists_allBytes length
  rw [entriesIn_eq spelled.symm]
  exact ⟨spelled, counted⟩

/-- A file is there with the given entries. -/
structure Holds (volume : Volume) (path : Path) (kind : Kind) (fps : List Fingerprint)
    (id : FileId) : Prop where
  bound : volume.binding? path = some (.file id)
  bytes : volume.read id = fileBytes kind fps

/-- A file stays as it is while nothing happens to its name or its contents. -/
theorem Holds.of_changes {before after : Volume} {paths : Path → Prop} {files : FileId → Prop}
    {path : Path} {kind : Kind} {fps : List Fingerprint} {id : FileId}
    (holds : Holds before path kind fps id) (changes : Volume.Changes paths files before after)
    (sound : before.Sound) (outside : ¬paths path) (untouched : ¬files id) :
    Holds after path kind fps id where
  bound := (changes.entry_eq path outside).trans holds.bound
  bytes := (changes.read_eq id (sound.stored path id holds.bound) untouched).trans holds.bytes

/-- A file that is there and is laid out as a page. -/
def IsPage (volume : Volume) (id : FileId) : Prop :=
  id < volume.contents.size ∧ ∃ fps, volume.read id = fileBytes .page fps

theorem Holds.isPage {volume : Volume} {path : Path} {fps : List Fingerprint} {id : FileId}
    (holds : Holds volume path .page fps id) (sound : volume.Sound) : IsPage volume id :=
  ⟨sound.stored path id holds.bound, fps, holds.bytes⟩

theorem IsPage.of_changes {before after : Volume} {paths : Path → Prop} {files : FileId → Prop}
    {id : FileId} (isPage : IsPage before id) (changes : Volume.Changes paths files before after)
    (untouched : ¬files id) : IsPage after id := by
  obtain ⟨known, fps, bytes⟩ := isPage
  exact ⟨Nat.lt_of_lt_of_le known changes.size_le, fps,
    (changes.read_eq id known untouched).trans bytes⟩

/-! ## Samples -/

/-- The entries at the multiples of a stride. -/
structure Samples (stride : Nat) (sample : Array Fingerprint) (fps : List Fingerprint) :
    Prop where
  covers : ∀ place, place < sample.size ↔ place * stride < fps.length
  entry : ∀ place, place < sample.size → sample.getD place 0 = fps.getD (place * stride) 0

theorem samples_nil (stride : Nat) : Samples stride #[] [] where
  covers := by simp
  entry := by simp

/-- One more entry belongs to the sample exactly if its place is a multiple of the stride. -/
theorem Samples.snoc {stride : Nat} {sample : Array Fingerprint} {fps : List Fingerprint}
    (samples : Samples stride sample fps) (positive : 0 < stride) (fp : Fingerprint) :
    Samples stride (if fps.length % stride = 0 then sample.push fp else sample) (fps ++ [fp]) := by
  have old (place : Nat) (inside : place < sample.size) :
      (fps ++ [fp]).getD (place * stride) 0 = fps.getD (place * stride) 0 := by
    have bound := (samples.covers place).mp inside
    rw [List.getD_eq_getElem?_getD, List.getElem?_append_left bound, List.getD_eq_getElem?_getD]
  split
  · rename_i multiple
    obtain ⟨quotient, exact⟩ := Nat.dvd_of_mod_eq_zero multiple
    have below (place : Nat) : place < sample.size ↔ place < quotient := by
      rw [samples.covers, exact, Nat.mul_comm place, Nat.mul_lt_mul_left positive]
    have size : sample.size = quotient :=
      Nat.le_antisymm (Nat.le_of_not_lt fun more => Nat.lt_irrefl _ ((below _).mp more))
        (Nat.le_of_not_lt fun more => Nat.lt_irrefl _ ((below _).mpr more))
    constructor
    · intro place
      rw [Array.size_push, size, List.length_append, List.length_singleton, exact,
        Nat.lt_succ_iff, Nat.lt_succ_iff, Nat.mul_comm place, Nat.mul_le_mul_left_iff positive]
    · intro place inside
      rw [Array.size_push, Nat.lt_succ_iff_lt_or_eq] at inside
      rcases inside with inside | last
      · rw [old place inside, ← samples.entry place inside, Array.getD_eq_getD_getElem?,
          Array.getElem?_push_lt inside, Array.getD_eq_getD_getElem?,
          Array.getElem?_eq_getElem inside]
      · have here : place * stride = fps.length := by rw [last, size, exact, Nat.mul_comm]
        rw [here, last]
        simp
  · rename_i between
    constructor
    · intro place
      rw [samples.covers place, List.length_append, List.length_singleton]
      have notSame : place * stride ≠ fps.length := fun same => by
        rw [← same] at between
        simp at between
      omega
    · intro place inside
      rw [samples.entry place inside, old place inside]

end SortedFile

end FingerprintSet
