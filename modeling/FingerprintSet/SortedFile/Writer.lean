import FingerprintSet.SortedFile.Header
import FingerprintSet.Task

/-!
# Writing fingerprint files

A writer takes fingerprints in ascending order and lays them down behind room left for the
header, in blocks.  Finishing the file writes what is left of the last block and then the
header.  Until then the header is zero, so a file that was never finished is of no kind.
-/

namespace FingerprintSet.SortedFile

open Storage

/-- Bytes gathered before they are written. -/
def blockLength : Nat := 8192

/-- A fingerprint file being written. -/
structure Writer where
  path : Path
  kind : Kind
  file : FileId
  /-- Bytes that are in the file. -/
  written : Nat
  /-- Bytes that are not in the file yet. -/
  gathered : Bytes
  /-- The hash of all entries so far. -/
  sum : UInt64
  count : Nat
  first : Option Fingerprint
  last : Option Fingerprint
  /-- Every so many entries one goes into the index; zero means that none does. -/
  stride : Nat
  index : Array Fingerprint
  /-- Whether finishing waits until the file is on the medium. -/
  durable : Bool
  deriving Inhabited

/-- What is known of a file once it is finished. -/
structure Written where
  path : Path
  count : Nat
  checksum : UInt64
  first : Option Fingerprint
  last : Option Fingerprint
  /-- Every so many entries, where an index was asked for. -/
  index : Array Fingerprint
  deriving DecidableEq, Repr, Inhabited

namespace Writer

/-- Create a file, or empty the one that is there, and leave room for the header.  The index
keeps one entry in `stride`. -/
def create (path : Path) (kind : Kind) (durable : Bool) (stride : Nat) : Task Writer := do
  let file ← (Activity.creating path).run (createFile path)
  pure
    { path, kind, file, stride, durable
      written := 0
      gathered := Array.replicate headerLength 0
      sum := Fnv.basis
      count := 0
      first := none
      last := none
      index := #[] }

/-- Write out the gathered bytes. -/
def flush (writer : Writer) : Access Writer := do
  if writer.gathered.isEmpty then
    pure writer
  else
    writeAt writer.file writer.written writer.gathered
    pure { writer with written := writer.written + writer.gathered.size, gathered := #[] }

/-- Give a file up.  What was gathered is still written out if that can be done. -/
def abandon (writer : Writer) : Task Unit :=
  ExceptT.mk fun volume => (.ok (), (writer.flush volume).2)

/-- Do something in the course of writing a file; if it fails the file is given up. -/
def orAbandon {α : Type} (writer : Writer) (task : Task α) : Task α :=
  tryCatch task fun error => do
    writer.abandon
    throw error

/-- The writer after an entry was gathered. -/
def gather (writer : Writer) (fp : Fingerprint) : Writer :=
  { writer with
    gathered := writer.gathered ++ Word.bytes fp
    sum := Fnv.absorbFingerprint writer.sum fp
    index := if 0 < writer.stride ∧ writer.count % writer.stride = 0 then writer.index.push fp
      else writer.index
    first := writer.first <|> some fp
    last := some fp
    count := writer.count + 1 }

/-- Add an entry, which must be greater than all before it.  A full block is written out
first. -/
def push (writer : Writer) (fp : Fingerprint) : Task Writer := do
  if blockLength < writer.gathered.size + entryLength then
    let writer ← writer.orAbandon ((Activity.writing writer.path).run writer.flush)
    pure (writer.gather fp)
  else
    pure (writer.gather fp)

/-- Add entries in order. -/
def pushAll (writer : Writer) (fps : List Fingerprint) : Task Writer :=
  fps.foldlM push writer

/-- The header of what was written. -/
def header (writer : Writer) : Header where
  count := UInt64.ofNat writer.count
  checksum := writer.sum

/-- Write out the last block and the header, and close the file. -/
def finish (writer : Writer) : Task Written := do
  let activity := Activity.finishing writer.path
  let writer ← writer.orAbandon (activity.run writer.flush)
  activity.run do
    writeAt writer.file 0 (writer.header.encode writer.kind).toArray
    if writer.durable then sync
  pure
    { path := writer.path
      count := writer.count
      checksum := writer.sum
      first := writer.first
      last := writer.last
      index := writer.index }

end Writer

/-- Write a whole file. -/
def writeList (path : Path) (kind : Kind) (durable : Bool) (stride : Nat)
    (fps : List Fingerprint) : Task Written := do
  let writer ← Writer.create path kind durable stride
  let writer ← writer.pushAll fps
  writer.finish

end FingerprintSet.SortedFile
