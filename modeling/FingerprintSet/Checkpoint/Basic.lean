import FingerprintSet.Checkpoint.Manifest
import FingerprintSet.Checkpoint.Naming
import FingerprintSet.SortedFile.Reader
import FingerprintSet.Total

/-!
# Checkpoints

A checkpoint is a generation whose files have all been verified: the manifest is of the right
version and generation, every segment file agrees with its entry and is ascending to the end,
and the counts add up.  Loading reports the first thing that is wrong.
-/

namespace FingerprintSet

open Storage

/-- A verified generation. -/
structure Checkpoint where
  directory : Path
  manifest : Manifest
  deriving DecidableEq, Repr, Inhabited

namespace Checkpoint

/-- Read the other entries of a file and see that they ascend.  At most `bound` are read. -/
def verifyEntries (path : Path) : Nat → Option Fingerprint → SortedFile.Reader → Task Unit
  | 0, _, _ => pure ()
  | bound + 1, last, reader => do
      let (reader, pull) ← (reader.next : StateM Volume (SortedFile.Reader × Pull))
      match pull with
      | .ended => pure ()
      | .failed error => throw error
      | .value fp =>
          if last.any (fp ≤ ·) then
            throw (.corrupt path .entriesOutOfOrder)
          else
            verifyEntries path bound (some fp) reader

/-- Verify one segment file against its entry in the manifest. -/
def verifySegment (directory : Path) (entry : SegmentEntry) : Task Unit :=
  if !plainName entry.file then
    throw (.corrupt (directory.child manifestFile) (.invalidFileName entry.file))
  else do
    let path := directory.child entry.file
    let reader ← SortedFile.Reader.openAt path .checkpoint
    if reader.header.count.toNat = entry.count ∧ reader.header.checksum = entry.checksum then
      verifyEntries path (reader.remaining + 1) none reader
    else
      throw (.corrupt path .headerDisagrees)

/-- Read the manifest of a generation. -/
def readManifest (directory : Path) : Task Manifest := do
  let path := directory.child manifestFile
  let bytes ← (Activity.reading path).run (readWhole path)
  match Manifest.decode bytes.toList with
  | some manifest => pure manifest
  | none => throw (.corrupt path .unreadableManifest)

/-- Load the generation in a directory. -/
def load (directory : Path) (generation : Nat) : Task Checkpoint := do
  let manifest ← readManifest directory
  let path := directory.child manifestFile
  if manifest.formatVersion ≠ SortedFile.formatVersion.toNat then
    throw (.corrupt path (.unsupportedVersion manifest.formatVersion))
  else if manifest.generation ≠ generation then
    throw (.corrupt path (.foreignGeneration manifest.generation generation))
  else do
    manifest.segments.forM (verifySegment directory)
    let held := total (·.count) manifest.segments
    if held = manifest.count then
      pure { directory, manifest }
    else
      throw (.corrupt path (.countMismatch held manifest.count))

/-- Fingerprints in the checkpoint. -/
def count (checkpoint : Checkpoint) : Nat :=
  checkpoint.manifest.count

/-- Open readers on segment files. -/
def openSegments (directory : Path) : List SegmentEntry → Task (List SortedFile.Reader)
  | [] => pure []
  | entry :: rest => do
      let reader ← SortedFile.Reader.openAt (directory.child entry.file) .checkpoint
      let readers ← openSegments directory rest
      pure (reader :: readers)

/-- The fingerprints of a checkpoint as a stream: its segment files one after the other. -/
structure Stream where
  readers : List SortedFile.Reader
  deriving Inhabited

/-- Open the stream of a checkpoint's fingerprints. -/
def stream (checkpoint : Checkpoint) : Task Stream := do
  return { readers := ← openSegments checkpoint.directory checkpoint.manifest.segments }

/-- Ask readers in turn for the next value. -/
def nextOf : List SortedFile.Reader → StateM Volume (List SortedFile.Reader × Pull)
  | [] => pure ([], .ended)
  | reader :: rest => do
      let (reader, pull) ← reader.next
      match pull with
      | .ended => nextOf rest
      | pull => pure (reader :: rest, pull)

/-- Ask for the next fingerprint. -/
def Stream.next (stream : Stream) : StateM Volume (Stream × Pull) := do
  let (readers, pull) ← nextOf stream.readers
  pure ({ readers }, pull)

/-- Fingerprints that a stream can still give. -/
def Stream.remaining (stream : Stream) : Nat :=
  total (·.remaining) stream.readers

end Checkpoint

end FingerprintSet
