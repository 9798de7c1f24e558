import FingerprintSet.Error
import FingerprintSet.Fnv

/-!
# Headers of fingerprint files

A fingerprint file is a header of 32 bytes and then its entries, eight bytes each, ascending.
The header holds four letters that say what the file is for, the format version, the number of
entries, the checksum of the entries' bytes, and eight bytes that are reserved: they are
written as zeros and not looked at.
-/

namespace FingerprintSet.SortedFile

open Storage (Path)

/-- What a fingerprint file is for. -/
inductive Kind
  /-- A page of evicted fingerprints. -/
  | page
  /-- One segment of a checkpoint. -/
  | checkpoint
  deriving DecidableEq, Repr, Inhabited

/-- The letters a file of this kind starts with. -/
def Kind.magic : Kind → List UInt8
  | page => [0x46, 0x50, 0x50, 0x47]
  | checkpoint => [0x46, 0x50, 0x43, 0x4b]

/-- Bytes of a header. -/
def headerLength : Nat := 32

/-- Bytes of an entry. -/
def entryLength : Nat := 8

/-- The version of the format. -/
def formatVersion : UInt32 := 1

/-- What a header says about the entries. -/
structure Header where
  count : UInt64
  checksum : UInt64
  deriving DecidableEq, Repr, Inhabited

namespace Header

/-- The bytes of a header. -/
def encode (kind : Kind) (header : Header) : List UInt8 :=
  kind.magic ++ Word.halfBytes formatVersion ++ Word.bytes header.count
    ++ Word.bytes header.checksum ++ List.replicate 8 0

/-- The header that bytes spell.  They must be a whole header of the right kind and version. -/
def decode (kind : Kind) (bytes : List UInt8) : Except Defect Header :=
  if bytes.length < headerLength then
    .error (.unreadableHeader .endOfFile)
  else if bytes.take 4 ≠ kind.magic then
    .error .badMagic
  else
    let version := Word.natOfBytes ((bytes.drop 4).take 4)
    if version ≠ formatVersion.toNat then
      .error (.unsupportedVersion version)
    else
      .ok
        { count := Word.ofBytes ((bytes.drop 8).take 8)
          checksum := Word.ofBytes ((bytes.drop 16).take 8) }

/-- The length of a file with this header. -/
def fileLength (header : Header) : Nat :=
  headerLength + entryLength * header.count.toNat

end Header

end FingerprintSet.SortedFile
