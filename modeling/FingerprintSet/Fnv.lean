import FingerprintSet.Word

/-!
# FNV-1a hashing

The 64-bit FNV-1a hash of a byte sequence, with a free start state.  It serves twice: as the
checksum of a fingerprint file, and, started from a seed, as the mix that spreads fingerprints
over the buckets of a segment.
-/

namespace FingerprintSet.Fnv

/-- The start state of the standard hash. -/
def basis : UInt64 := 0xcbf29ce484222325

/-- The multiplier of each round. -/
def prime : UInt64 := 0x100000001b3

/-- One round: take in a byte, then multiply. -/
def absorb (state : UInt64) (byte : UInt8) : UInt64 :=
  (state ^^^ byte.toUInt64) * prime

/-- All rounds over a byte sequence. -/
def absorbAll (state : UInt64) (bytes : List UInt8) : UInt64 :=
  bytes.foldl absorb state

/-- Take in the bytes of a fingerprint. -/
def absorbFingerprint (state : UInt64) (fp : Fingerprint) : UInt64 :=
  absorbAll state (Word.bytes fp)

/-- The checksum of a list of fingerprints, over their bytes in order. -/
def checksum (fps : List Fingerprint) : UInt64 :=
  fps.foldl absorbFingerprint basis

/-- A seeded mix of a fingerprint.  The high half is folded into the low one, so that the low
bits depend on every byte.  Seed zero gives the standard hash, folded. -/
def mix (fp : Fingerprint) (seed : UInt64) : UInt64 :=
  let hash := absorbFingerprint (basis ^^^ seed) fp
  hash ^^^ (hash >>> 32)

end FingerprintSet.Fnv
