import FingerprintSet.SortedFile.Header
import FingerprintSet.Task

/-!
# Reading fingerprint files

A reader checks a file's header when it opens it, gives the entries one by one, and checks the
checksum after the last one.  It reads ahead in blocks.  Once it has reported an error or the
end it gives nothing more.
-/

namespace FingerprintSet

open Storage

/-- What a source of fingerprints gives when it is asked for the next one. -/
inductive Pull
  | value (fp : Fingerprint)
  | failed (error : Error)
  | ended
  deriving DecidableEq, Repr, Inhabited

namespace SortedFile

/-- Bytes that a reader reads ahead. -/
def readAheadLength : Nat := 8192

/-- An open fingerprint file. -/
structure Reader where
  path : Path
  handle : Handle
  header : Header
  /-- Entries not given yet. -/
  remaining : Nat
  /-- The position in the file behind all bytes read so far. -/
  position : Nat
  /-- The block read last. -/
  block : Bytes
  /-- Bytes of the block that are used up. -/
  used : Nat
  /-- The hash of all entries given so far. -/
  sum : UInt64
  finished : Bool
  deriving Inhabited

namespace Reader

/-- Open a file and check its header against its kind and its length. -/
def openAt (path : Path) (kind : Kind) : Task Reader := do
  let handle ← (Activity.opening path).run (openFile path)
  let bytes ← ExceptT.adapt (fun cause => Error.corrupt path (.unreadableHeader cause))
    (readAt handle 0 headerLength)
  let header ← Task.ofExcept ((Header.decode kind bytes.toList).mapError (Error.corrupt path))
  let length ← (Activity.measuring path).run (fileLength handle)
  if length = header.fileLength then
    pure
      { path, handle, header
        remaining := header.count.toNat
        position := headerLength
        block := #[]
        used := 0
        sum := Fnv.basis
        finished := false }
  else
    throw (.corrupt path (.lengthMismatch length header.count.toNat))

/-- Bytes read but not given yet. -/
def unused (reader : Reader) : Nat :=
  reader.block.size - reader.used

/-- The reader with another block behind what is left of the last one. -/
def refill (reader : Reader) : Access Reader := do
  let more ← readAt reader.handle reader.position readAheadLength
  pure
    { reader with
      block := reader.block.extract reader.used reader.block.size ++ more
      used := 0
      position := reader.position + more.size }

/-- A reader that holds at least one whole entry. -/
def fill (reader : Reader) : Access Reader := do
  if entryLength ≤ reader.unused then
    pure reader
  else
    let reader ← reader.refill
    if entryLength ≤ reader.unused then pure reader else throw .endOfFile

/-- Give the first entry that a filled reader holds. -/
def take (reader : Reader) : Reader × Fingerprint :=
  let fp := Word.ofBytesAt reader.block reader.used
  ({ reader with
      used := reader.used + entryLength
      remaining := reader.remaining - 1
      sum := Fnv.absorbFingerprint reader.sum fp }, fp)

/-- Ask for the next entry. -/
def next (reader : Reader) : StateM Volume (Reader × Pull) := do
  if reader.finished then
    pure (reader, .ended)
  else if reader.remaining = 0 then
    let closed := { reader with finished := true }
    if reader.sum = reader.header.checksum then
      pure (closed, .ended)
    else
      pure (closed, .failed (.corrupt reader.path .checksumMismatch))
  else
    match ← (reader.fill).run with
    | .ok filled =>
        let (reader, fp) := filled.take
        pure (reader, .value fp)
    | .error failure =>
        pure ({ reader with finished := true }, .failed (.storage (.reading reader.path) failure))

end Reader

end SortedFile

end FingerprintSet
