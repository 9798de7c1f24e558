import FingerprintSet.Json.Document
import FingerprintSet.SortedFile.Writer

/-!
# Manifests

A manifest describes one generation of a checkpoint: who wrote it, how many fingerprints it
holds, and each of its segment files with count and checksum.  It is stored as JSON.  Reading a
manifest ignores fields it does not know, and reading what was written gives it back.
-/

namespace FingerprintSet

/-- One segment file of a checkpoint. -/
structure SegmentEntry where
  /-- The place of the segment in the set. -/
  index : Nat
  /-- The name of the file in the generation's directory. -/
  file : String
  count : Nat
  checksum : UInt64
  deriving DecidableEq, Repr, Inhabited

/-- The description of a generation. -/
structure Manifest where
  formatVersion : Nat
  generation : Nat
  /-- The seed of the set that wrote it. -/
  seed : UInt64
  /-- The segment bits of the set that wrote it. -/
  segmentBits : Nat
  /-- Fingerprints in all segment files. -/
  count : Nat
  segments : List SegmentEntry
  deriving DecidableEq, Repr, Inhabited

namespace SegmentEntry

/-- The fields of an entry, in the order in which they are written. -/
def fieldNames : List String :=
  ["index", "file", "count", "checksum"]

/-- An entry as JSON. -/
def toJson (entry : SegmentEntry) : Json :=
  .object (fieldNames.map Json.rawOf |>.zip
    [.ofNat entry.index, .ofText entry.file, .ofNat entry.count, .ofNat entry.checksum.toNat])

/-- The entry that a JSON value describes. -/
def ofJson? (value : Json) : Option SegmentEntry := do
  match ← value.record? fieldNames with
  | [index, file, count, checksum] =>
      return {
        index := ← index.naturalBelow? UInt64.size
        file := ← file.text?
        count := ← count.naturalBelow? UInt64.size
        checksum := UInt64.ofNat (← checksum.naturalBelow? UInt64.size) }
  | _ => none

end SegmentEntry

namespace Manifest

/-- The fields of a manifest, in the order in which they are written. -/
def fieldNames : List String :=
  ["format_version", "generation", "seed", "segment_bits", "count", "segments"]

/-- A manifest as JSON. -/
def toJson (manifest : Manifest) : Json :=
  .object (fieldNames.map Json.rawOf |>.zip
    [.ofNat manifest.formatVersion, .ofNat manifest.generation, .ofNat manifest.seed.toNat,
      .ofNat manifest.segmentBits, .ofNat manifest.count,
      .array (manifest.segments.map SegmentEntry.toJson)])

/-- The manifest that a JSON value describes. -/
def ofJson? (value : Json) : Option Manifest := do
  match ← value.record? fieldNames with
  | [version, generation, seed, bits, count, segments] =>
      return {
        formatVersion := ← version.naturalBelow? UInt32.size
        generation := ← generation.naturalBelow? UInt64.size
        seed := UInt64.ofNat (← seed.naturalBelow? UInt64.size)
        segmentBits := ← bits.naturalBelow? UInt32.size
        count := ← count.naturalBelow? UInt64.size
        segments := ← (← segments.items?).mapM SegmentEntry.ofJson? }
  | _ => none

/-- The bytes of a manifest. -/
def encode (manifest : Manifest) : List UInt8 :=
  manifest.toJson.pretty

/-- The manifest that bytes spell. -/
def decode (bytes : List UInt8) : Option Manifest := do
  ofJson? (← Json.read bytes)

/-- The manifest of a generation that has no segment files yet. -/
def blank (generation : Nat) (seed : UInt64) (segmentBits : Nat) : Manifest where
  formatVersion := SortedFile.formatVersion.toNat
  generation := generation
  seed := seed
  segmentBits := segmentBits
  count := 0
  segments := []

/-- The manifest with one more segment file. -/
def record (manifest : Manifest) (index : Nat) (file : String)
    (written : SortedFile.Written) : Manifest :=
  { manifest with
    count := manifest.count + written.count
    segments := manifest.segments ++
      [{ index, file, count := written.count, checksum := written.checksum }] }

end Manifest

end FingerprintSet
