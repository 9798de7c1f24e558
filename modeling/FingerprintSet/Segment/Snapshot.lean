import FingerprintSet.Segment.Basic

/-!
# Snapshots

A snapshot is the ascending stream of everything a segment held when the snapshot was taken.
What is in memory is copied at that moment.  Pages are opened at that moment and read as the
stream is pulled; an open page can be read to its end even if a merge has removed it since.
While a snapshot is held no new merge is prepared.
-/

namespace FingerprintSet

open Storage

namespace Segment

/-- The fingerprints in memory, ascending. -/
def memoryCopy (segment : Segment) : List Fingerprint :=
  (segment.table.toList ++ segment.pending.toList).mergeSort fun a b => a ≤ b

/-- Take a snapshot. -/
def takeSnapshot : Keeping Segment Merge := do
  let readers ← PageStore.openPages (← get).store.pages
  let memory := (← get).memoryCopy
  modify addReader
  pure (.fresh (.memory memory :: readers.map .file))

/-- Let go of a snapshot. -/
def releaseSnapshot : Keeping Segment Unit :=
  modify dropReader

/-- Give everything the segment holds to `sink`, ascending.  The snapshot is let go of however
that ends. -/
def scan {σ : Type} (sink : σ → Fingerprint → Task σ) (giveUp : σ → Task Unit) (state : σ) :
    Keeping Segment σ := do
  let snapshot ← tryCatch takeSnapshot fun error => do
    (giveUp state : Task Unit)
    throw error
  let outcome ← Keeping.outcome (snapshot.fold sink giveUp state : Task σ)
  releaseSnapshot
  Keeping.ofExcept outcome

end Segment

end FingerprintSet
