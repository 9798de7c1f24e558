import FingerprintSet.Checkpoint.Manifest
import FingerprintSet.Proofs.Json.Text

/-!
# Reading manifests

A manifest whose numbers fit their fields and whose file names are plain is read back from the
bytes that are written for it.
-/

namespace FingerprintSet

open Json

theorem naturalBelow?_ofNat {n limit : Nat} (below : n < limit) :
    (Json.ofNat n).naturalBelow? limit = some n := by
  have natural : (Numeral.ofNat n).natural? = some n := by
    rw [Numeral.natural?, if_neg (by simp [Numeral.ofNat])]
    exact congrArg some (Text.ofDigits_digits n)
  show (do
      let n ← (Numeral.ofNat n).natural?
      if n < limit then some n else none) = _
  rw [natural]
  exact if_pos below

theorem naturalBelow?_lt {value : Json} {limit n : Nat} (read : value.naturalBelow? limit = some n) :
    n < limit := by
  cases value with
  | number numeral =>
      obtain ⟨natural, -, small⟩ := Option.bind_eq_some_iff.mp read
      split at small
      · rename_i below
        exact Option.some.inj small ▸ below
      · contradiction
  | _ => contradiction

namespace SegmentEntry

/-- The numbers of an entry fit their fields, and its file has a plain name. -/
structure Fits (entry : SegmentEntry) : Prop where
  index : entry.index < UInt64.size
  count : entry.count < UInt64.size
  file : IsPlainText entry.file

theorem plain_toJson {entry : SegmentEntry} (fits : entry.Fits) : Plain entry.toJson := by
  have name (text : String) (plain : IsPlainText text) : IsPlain (rawOf text) :=
    isPlain_rawOf plain
  refine ⟨name _ (by decide), ⟨_, rfl⟩, name _ (by decide), name _ fits.file, name _ (by decide),
    ⟨_, rfl⟩, name _ (by decide), ⟨_, rfl⟩, trivial⟩

theorem record?_toJson (entry : SegmentEntry) :
    entry.toJson.record? fieldNames =
      some [.ofNat entry.index, .ofText entry.file, .ofNat entry.count,
        .ofNat entry.checksum.toNat] :=
  record?_zip (by decide) (by decide) rfl

/-- An entry is read back. -/
theorem ofJson?_toJson {entry : SegmentEntry} (fits : entry.Fits) :
    ofJson? entry.toJson = some entry := by
  have file : (Json.ofText entry.file).text? = some entry.file := textOf?_rawOf fits.file
  have small : entry.checksum.toNat < UInt64.size := entry.checksum.toNat_lt
  have checksum : UInt64.ofNat entry.checksum.toNat = entry.checksum := UInt64.ofNat_toNat
  rw [ofJson?, record?_toJson]
  show (do
      let index ← (Json.ofNat entry.index).naturalBelow? UInt64.size
      let file ← (Json.ofText entry.file).text?
      let count ← (Json.ofNat entry.count).naturalBelow? UInt64.size
      let checksum ← (Json.ofNat entry.checksum.toNat).naturalBelow? UInt64.size
      return { index, file, count, checksum := UInt64.ofNat checksum } : Option SegmentEntry) = _
  rw [naturalBelow?_ofNat fits.index, file, naturalBelow?_ofNat fits.count,
    naturalBelow?_ofNat small]
  show some { entry with checksum := UInt64.ofNat entry.checksum.toNat } = _
  rw [checksum]

end SegmentEntry

namespace Manifest

/-- The numbers of a manifest and of its entries fit their fields, and all names are plain. -/
structure Fits (manifest : Manifest) : Prop where
  version : manifest.formatVersion < UInt32.size
  generation : manifest.generation < UInt64.size
  bits : manifest.segmentBits < UInt32.size
  count : manifest.count < UInt64.size
  segments : ∀ entry ∈ manifest.segments, entry.Fits

theorem plain_items {entries : List SegmentEntry} (fits : ∀ entry ∈ entries, entry.Fits) :
    PlainItems (entries.map SegmentEntry.toJson) := by
  induction entries with
  | nil => trivial
  | cons entry entries ih =>
      rw [List.forall_mem_cons] at fits
      exact ⟨SegmentEntry.plain_toJson fits.1, ih fits.2⟩

theorem plain_toJson {manifest : Manifest} (fits : manifest.Fits) : Plain manifest.toJson := by
  have name (text : String) (plain : IsPlainText text) : IsPlain (rawOf text) :=
    isPlain_rawOf plain
  exact ⟨name _ (by decide), ⟨_, rfl⟩, name _ (by decide), ⟨_, rfl⟩, name _ (by decide), ⟨_, rfl⟩,
    name _ (by decide), ⟨_, rfl⟩, name _ (by decide), ⟨_, rfl⟩, name _ (by decide),
    plain_items fits.segments, trivial⟩

theorem mapM_ofJson? {entries : List SegmentEntry} (fits : ∀ entry ∈ entries, entry.Fits) :
    (entries.map SegmentEntry.toJson).mapM SegmentEntry.ofJson? = some entries := by
  induction entries with
  | nil => rfl
  | cons entry entries ih =>
      rw [List.forall_mem_cons] at fits
      rw [List.map_cons, List.mapM_cons, SegmentEntry.ofJson?_toJson fits.1, ih fits.2]
      rfl

theorem record?_toJson (manifest : Manifest) :
    manifest.toJson.record? fieldNames =
      some [.ofNat manifest.formatVersion, .ofNat manifest.generation, .ofNat manifest.seed.toNat,
        .ofNat manifest.segmentBits, .ofNat manifest.count,
        .array (manifest.segments.map SegmentEntry.toJson)] :=
  record?_zip (by decide) (by decide) rfl

theorem ofJson?_toJson {manifest : Manifest} (fits : manifest.Fits) :
    ofJson? manifest.toJson = some manifest := by
  have items (values : List Json) : (Json.array values).items? = some values := rfl
  have small : manifest.seed.toNat < UInt64.size := manifest.seed.toNat_lt
  have seed : UInt64.ofNat manifest.seed.toNat = manifest.seed := UInt64.ofNat_toNat
  rw [ofJson?, record?_toJson]
  show (do
      let formatVersion ← (Json.ofNat manifest.formatVersion).naturalBelow? UInt32.size
      let generation ← (Json.ofNat manifest.generation).naturalBelow? UInt64.size
      let seed ← (Json.ofNat manifest.seed.toNat).naturalBelow? UInt64.size
      let segmentBits ← (Json.ofNat manifest.segmentBits).naturalBelow? UInt32.size
      let count ← (Json.ofNat manifest.count).naturalBelow? UInt64.size
      let items ← (Json.array (manifest.segments.map SegmentEntry.toJson)).items?
      let segments ← items.mapM SegmentEntry.ofJson?
      return { formatVersion, generation, seed := UInt64.ofNat seed, segmentBits, count, segments } :
        Option Manifest) = _
  rw [naturalBelow?_ofNat fits.version, naturalBelow?_ofNat fits.generation,
    naturalBelow?_ofNat small, naturalBelow?_ofNat fits.bits, naturalBelow?_ofNat fits.count, items]
  simp only [Option.bind_eq_bind, Option.bind_some, mapM_ofJson? fits.segments, seed]
  rfl

/-- A manifest is read back from what is written for it. -/
theorem decode_encode {manifest : Manifest} (fits : manifest.Fits) :
    decode manifest.encode = some manifest := by
  have read : Json.read manifest.encode = some manifest.toJson := by
    rw [encode]
    exact Json.read_pretty (plain_toJson fits)
  rw [decode, read, Option.bind_eq_bind, Option.bind_some]
  exact ofJson?_toJson fits

/-- Whatever is read as a manifest records a number of fingerprints that fits its field. -/
theorem count_lt {bytes : List UInt8} {manifest : Manifest} (decoded : decode bytes = some manifest) :
    manifest.count < UInt64.size := by
  obtain ⟨value, -, described⟩ := Option.bind_eq_some_iff.mp decoded
  obtain ⟨fields, -, described⟩ := Option.bind_eq_some_iff.mp described
  split at described
  · obtain ⟨_, -, described⟩ := Option.bind_eq_some_iff.mp described
    obtain ⟨_, -, described⟩ := Option.bind_eq_some_iff.mp described
    obtain ⟨_, -, described⟩ := Option.bind_eq_some_iff.mp described
    obtain ⟨_, -, described⟩ := Option.bind_eq_some_iff.mp described
    obtain ⟨count, counted, described⟩ := Option.bind_eq_some_iff.mp described
    obtain ⟨_, -, described⟩ := Option.bind_eq_some_iff.mp described
    obtain ⟨_, -, described⟩ := Option.bind_eq_some_iff.mp described
    cases described
    exact naturalBelow?_lt counted
  · contradiction

end Manifest

end FingerprintSet
