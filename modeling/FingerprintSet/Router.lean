import FingerprintSet.Fnv

/-!
# Routing

Where a fingerprint lives.  Its high bits name the segment, so segments cover consecutive
ranges of the fingerprint space in order; inside a segment the seeded mix names the bucket,
so that runs of similar fingerprints do not pile up in a few buckets.
-/

namespace FingerprintSet

/-- The geometry that routing depends on. -/
structure Router where
  seed : UInt64
  /-- There are `2 ^ segmentBits` segments. -/
  segmentBits : Nat
  /-- Buckets in each segment, a power of two. -/
  buckets : Nat
  deriving DecidableEq, Repr, Inhabited

namespace Router

/-- The segment of a fingerprint: the number its top `segmentBits` bits form. -/
def segment (router : Router) (fp : Fingerprint) : Nat :=
  fp.toNat / Nat.pow 2 (64 - router.segmentBits)

/-- The bucket of a fingerprint inside its segment. -/
def bucket (router : Router) (fp : Fingerprint) : Nat :=
  (Fnv.mix fp router.seed).toNat % router.buckets

end Router

end FingerprintSet
