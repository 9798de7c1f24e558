/-!
# Words and bytes

A fingerprint is a 64-bit word.  On disk a word is its bytes with the least significant one
first; this module holds that coding in both directions.
-/

namespace FingerprintSet

/-- A 64-bit digest of a state. -/
abbrev Fingerprint := UInt64

/-- The contents of a file, or a piece of them. -/
abbrev Bytes := Array UInt8

namespace Word

/-- Whether a word with a sign can hold a number. -/
def isSigned (n : Int) : Bool :=
  Int64.minValue.toInt ≤ n && n ≤ Int64.maxValue.toInt

/-- The eight bytes of a word, least significant first. -/
def bytes (word : UInt64) : List UInt8 :=
  [word.toUInt8, (word >>> 8).toUInt8, (word >>> 16).toUInt8, (word >>> 24).toUInt8,
    (word >>> 32).toUInt8, (word >>> 40).toUInt8, (word >>> 48).toUInt8, (word >>> 56).toUInt8]

/-- The four bytes of a half word, least significant first. -/
def halfBytes (word : UInt32) : List UInt8 :=
  [word.toUInt8, (word >>> 8).toUInt8, (word >>> 16).toUInt8, (word >>> 24).toUInt8]

/-- The number that bytes spell, least significant first. -/
def natOfBytes : List UInt8 → Nat
  | [] => 0
  | byte :: rest => byte.toNat + 256 * natOfBytes rest

/-- The word that up to eight bytes spell, least significant first. -/
def ofBytes (bytes : List UInt8) : UInt64 :=
  UInt64.ofNat (natOfBytes bytes)

/-- The word spelled by the eight bytes from a position on. -/
def ofBytesAt (contents : Bytes) (start : Nat) : UInt64 :=
  ofBytes (contents.extract start (start + 8)).toList

end Word

end FingerprintSet
