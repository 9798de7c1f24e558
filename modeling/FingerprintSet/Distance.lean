import FingerprintSet.Error
import FingerprintSet.Word

/-!
# Distances

The least distance between two fingerprints, found in one pass over an ascending stream: it is
a distance between neighbours.  A small one hints at a poor hash.
-/

namespace FingerprintSet

/-- What is known after part of an ascending stream. -/
structure LeastDistance where
  last : Option Fingerprint := none
  least : Option UInt64 := none
  deriving DecidableEq, Repr, Inhabited

namespace LeastDistance

/-- The lesser of a distance and another one, if there is another one. -/
def lesser (distance : UInt64) : Option UInt64 → UInt64
  | none => distance
  | some other => min other distance

/-- Take in the next value.  The stream must ascend: there is no distance to a smaller
value. -/
def observe (state : LeastDistance) (fp : Fingerprint) : Except Error LeastDistance :=
  match state.last with
  | none => .ok { state with last := some fp }
  | some last =>
      if fp < last then
        .error (.outOfRange .distance)
      else
        .ok { last := some fp, least := some (lesser (fp - last) state.least) }

/-- The least distance; the greatest word if there are fewer than two values. -/
def result (state : LeastDistance) : UInt64 :=
  state.least.getD 0xffffffffffffffff

end LeastDistance

end FingerprintSet
