import FingerprintSet.Checkpoint.Basic

/-!
# Restoring

A new set is filled from a checkpoint by putting every fingerprint of it.  If the set then
holds fewer than the checkpoint records, some fingerprint was there twice and the checkpoint
is not what it says.
-/

namespace FingerprintSet.Checkpoint

open Storage

/-- Put the other values of a stream.  At most `bound` are put. -/
def putAll {σ : Type} (put : Fingerprint → Keeping σ Bool) : Nat → Stream → Keeping σ Unit
  | 0, _ => pure ()
  | bound + 1, stream => do
      let (stream, pull) ← (liftM (m := Task) (n := Keeping σ) (liftM stream.next))
      match pull with
      | .ended => pure ()
      | .failed error => throw error
      | .value fp => do
          let _ ← put fp
          putAll put bound stream

/-- Fill a set from a checkpoint and see that it holds as many as recorded. -/
def restore {σ : Type} (put : Fingerprint → Keeping σ Bool) (size : σ → Nat)
    (checkpoint : Checkpoint) : Keeping σ Unit := do
  let stream ← (checkpoint.stream : Task Stream)
  putAll put (stream.remaining + 1) stream
  let restored := size (← get)
  if restored = checkpoint.count then
    pure ()
  else
    throw (.corrupt (checkpoint.directory.child manifestFile)
      (.restoredMismatch restored checkpoint.manifest.generation checkpoint.count))

end FingerprintSet.Checkpoint
