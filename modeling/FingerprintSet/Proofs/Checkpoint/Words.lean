import FingerprintSet.Proofs.Checkpoint.Resuming
import FingerprintSet.Proofs.Storage.Guarded

/-!
# Restoring by puts that may have no result

A set is filled from a checkpoint by puts, and filling it has a result if each of the puts has one.
-/

namespace FingerprintSet.Checkpoint

open Storage Volume SortedFile

variable {σ : Type}

namespace Wordwise

/-- `Checkpoint.putAll` with puts that may have no result. -/
def putAll (put : Fingerprint → Guarded σ Bool) : Nat → Stream → Guarded σ Unit
  | 0, _ => pure ()
  | bound + 1, stream => do
      let (stream, pull) ← Guarded.plain (liftM (m := Task) (n := Keeping σ) (liftM stream.next))
      match pull with
      | .ended => pure ()
      | .failed error => throw error
      | .value fp => do
          let _ ← put fp
          putAll put bound stream

/-- `Checkpoint.restore` with puts that may have no result. -/
def restore (put : Fingerprint → Guarded σ Bool) (size : σ → Nat) (checkpoint : Checkpoint) :
    Guarded σ Unit := do
  let stream ← Guarded.plain (liftM checkpoint.stream)
  putAll put (stream.remaining + 1) stream
  Guarded.plain do
    let restored := size (← get)
    if restored = checkpoint.count then
      pure ()
    else
      throw (.corrupt (checkpoint.directory.child manifestFile)
        (.restoredMismatch restored checkpoint.manifest.generation checkpoint.count))

end Wordwise

section Put

variable {guarded : Fingerprint → Guarded σ Bool} {put : Fingerprint → Keeping σ Bool}
  {paths : Path → Prop} {whole : List Fingerprint} {taken : σ → List Fingerprint → Volume → Prop}
  {before : Volume} {used : FileId → Prop}
  (steady : ∀ state done before after, before.Sound → Changes Nowhere NoFile before after →
    taken state done before → taken state done after)
  (puts : ∀ state done fp rest before, before.Sound → done ++ fp :: rest = whole →
    taken state done before → (guarded fp).Agrees (put fp) state before ∧
      Keeping.Runs (put fp) state before paths NoFile
        (fun _ state after => taken state (done ++ [fp]) after) fun _ _ => True)

include steady puts

theorem putAll_agrees (bound : Nat) {stream : Stream} {state : σ} {done out : List Fingerprint}
    (sound : before.Sound) (split : done ++ out = whole) (row : Row before used stream.readers out)
    (already : taken state done before) :
    (Wordwise.putAll guarded bound stream).Agrees (putAll put bound stream) state before := by
  induction bound generalizing before stream state done out with
  | zero => exact Guarded.Agrees.pure _ _ _
  | succ bound ih =>
      obtain ⟨readers, pull, after, asked, changes, given⟩ := nextOf_gives row
      have stillTaken := steady state done before after sound changes already
      apply (Guarded.Agrees.plain _ _ _).bind
      intro answer last final ended
      have unfolded : (liftM (m := Task) (n := Keeping σ) (liftM stream.next)) state before =
          ((.ok ({ readers := (nextOf stream.readers before).1.1 },
            (nextOf stream.readers before).1.2), state), (nextOf stream.readers before).2) := rfl
      rw [asked] at unfolded
      rw [unfolded] at ended
      cases ended
      cases pull with
      | ended => exact Guarded.Agrees.pure _ _ _
      | failed error => exact Guarded.Agrees.throw _ _ _
      | value fp =>
          obtain ⟨rest, rfl, restRow⟩ := given
          have afterSound := changes.sound sound
          obtain ⟨agrees, runs⟩ := puts state done fp rest after afterSound split stillTaken
          apply agrees.bindRuns runs
          intro _ state final more takenMore
          apply ih (more.sound afterSound) _ (restRow.of_changes more _) takenMore
          · simpa using split
          · exact fun _ _ _ none => none

/-- Restoring a valid generation has a result if each put of what it holds has one. -/
theorem restore_agrees {size : σ → Nat} {dir : Path} {number : Nat} {manifest : Manifest} {state : σ}
    (sound : before.Sound) (valid : Valid before dir number manifest)
    (holds : listed before dir manifest.segments = whole) (already : taken state [] before) :
    (Wordwise.restore guarded size { directory := dir, manifest }).Agrees
      (restore put size { directory := dir, manifest }) state before := by
  have opens := (stream_runs sound valid).mono fun _ _ changes row => And.intro changes row
  apply Guarded.Agrees.plainMeets opens
  rintro stream after ⟨-, changes, row⟩
  rw [holds] at row
  have stillTaken := steady state [] before after sound changes already
  have fills := putAll_agrees steady puts (stream.remaining + 1) (changes.sound sound)
    (List.nil_append whole) row stillTaken
  exact fills.bind fun _ _ _ _ => Guarded.Agrees.plain _ _ _

end Put

end FingerprintSet.Checkpoint
