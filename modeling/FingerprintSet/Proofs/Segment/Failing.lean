import FingerprintSet.Proofs.Segment.Schedule

/-!
# Puts that fail

A put that fails in its membership test leaves the segment as it was.  One that fails later has
taken its fingerprint in: writing the page, preparing the merge, running it and installing it
all come after the table and the size have changed, and nothing is undone.
-/

namespace FingerprintSet

open Storage Volume SortedFile

namespace Segment

/-- What a put does when its step is through. -/
def finishPut : PutStep → Keeping Segment Bool
  | .known => pure true
  | .added none => pure false
  | .added (some job) => do
      runCompaction job
      pure false

theorem put_eq (bucket : Nat) (fp : Fingerprint) :
    put bucket fp = beginPut bucket fp >>= finishPut := by
  rfl

section

variable {homes : Homes} {before middle after : Volume} {entries : PageId → List Fingerprint}
  {segment looked last : Segment} {fp : Fingerprint}

theorem beginPut_failed {bucket : Nat} {error : Error}
    (failed : contains bucket fp segment before = ((.error error, last), after)) :
    beginPut bucket fp segment before = ((.error error, last), after) := by
  rw [beginPut_eq, Keeping.bind_apply, failed]

theorem beginPut_known {bucket : Nat}
    (found : contains bucket fp segment before = ((.ok true, last), after)) :
    beginPut bucket fp segment before = ((.ok .known, last), after) := by
  rw [beginPut_eq, Keeping.bind_apply, found]
  rfl

theorem beginPut_new {bucket : Nat}
    (missing : contains bucket fp segment before = ((.ok false, looked), middle)) :
    beginPut bucket fp segment before = takeIn bucket fp looked middle := by
  rw [beginPut_eq, Keeping.bind_apply, missing]
  rfl

theorem put_failed {bucket : Nat} {error : Error}
    (failed : contains bucket fp segment before = ((.error error, last), after)) :
    put bucket fp segment before = ((.error error, last), after) := by
  rw [put_eq, Keeping.bind_apply, beginPut_failed failed]

theorem put_known {bucket : Nat}
    (found : contains bucket fp segment before = ((.ok true, last), after)) :
    put bucket fp segment before = ((.ok true, last), after) := by
  rw [put_eq, Keeping.bind_apply, beginPut_known found]
  rfl

/-- Once its fingerprint was not found, a put takes it in however the put ends. -/
theorem put_takes (volumeSound : before.Sound) (sound : segment.Sound homes before entries)
    (numbered : segment.store.nextId < numberLimit)
    (numberedStill : (beginPut (homes.home fp) fp segment before).1.2.store.nextId < numberLimit)
    (missing : contains (homes.home fp) fp segment before = ((.ok false, looked), middle)) :
    fp ∉ segment.all entries ∧ ∃ others, Becomes homes
      (put (homes.home fp) fp segment before).2 entries segment [fp] others
      (put (homes.home fp) fp segment before).1.2 := by
  have looks := contains_runs volumeSound sound fp
  rcases looks.cases with ⟨answer, _, _, found, changes, moves, -, same, decides⟩ |
    ⟨_, _, _, found, -⟩ <;> rw [missing] at found <;> cases found
  have new : fp ∉ segment.all entries := fun mem => Bool.false_ne_true (decides.mpr mem)
  refine ⟨new, ?_⟩
  have newStill : fp ∉ looked.all entries := fun mem => new (moves.holds.mem_iff.mp mem)
  have middleSound := changes.sound volumeSound
  rw [beginPut_new missing] at numberedStill
  rw [put_eq, Keeping.bind_apply, beginPut_new missing]
  rcases (takeIn_runs middleSound moves.sound (same.nextId ▸ numbered) newStill).cases with
    ⟨_, taken, after, result, more, job, others, rfl, takes, offers, -⟩ |
    ⟨error, taken, after, result, more, ⟨others, takes, -⟩, -⟩
  · have gains := (moves.trans takes).becomes
    rw [result] at numberedStill ⊢
    cases job with
    | none => exact ⟨others, gains⟩
    | some job =>
        obtain ⟨-, -, prepared, live, several⟩ := offers
        have numberedJob := Nat.lt_trans prepared.numbered numberedStill
        have runs := runCompaction_runs (more.sound middleSound) takes.sound prepared numberedJob
          live several
        dsimp only [finishPut]
        rw [Keeping.bind_apply]
        rcases runs.cases with ⟨_, settled, final, ran, -, becomes, -⟩ |
          ⟨error, settled, final, ran, -, ⟨becomes, -⟩, -⟩ <;> rw [ran]
        · exact ⟨others, gains.trans becomes⟩
        · exact ⟨others, gains.trans becomes⟩
  · rw [result]
    exact ⟨others, (moves.trans takes).becomes⟩

/-- Whether a segment holds as much as before, counts as many and has the same pending. -/
def Untouched (before : Volume) (segment : Segment) (after : Volume) (last : Segment) : Prop :=
  (∀ fp, fp ∈ last.held after ↔ fp ∈ segment.held before) ∧ last.size = segment.size ∧
    last.pending = segment.pending

/-- What a put that fails leaves is what it found or one fingerprint more. -/
theorem put_error (volumeSound : before.Sound) (sound : segment.Sound homes before entries)
    (numbered : segment.store.nextId < numberLimit)
    (numberedStill : (beginPut (homes.home fp) fp segment before).1.2.store.nextId < numberLimit)
    {error : Error} (failed : put (homes.home fp) fp segment before = ((.error error, last), after)) :
    (Untouched before segment after last ∧
      ∃ error, (contains (homes.home fp) fp segment before).1.1 = .error error) ∨
    ((contains (homes.home fp) fp segment before).1.1 = .ok false ∧ fp ∉ segment.held before ∧
      fp ∈ last.held after ∧ last.size = segment.size + 1) := by
  rcases asked : contains (homes.home fp) fp segment before with
    ⟨⟨error | known, looked⟩, middle⟩
  · cases (put_failed asked).symm.trans failed
    rcases (contains_runs volumeSound sound fp).cases with
      ⟨_, _, _, found, -⟩ | ⟨_, _, _, found, -, ⟨moves, kept, -⟩, -⟩ <;>
        cases asked.symm.trans found
    refine Or.inl ⟨⟨fun other => ?_, by rw [kept], by rw [kept]⟩, _, rfl⟩
    rw [moves.sound.held_eq, sound.held_eq]
    exact moves.holds.mem_iff
  · cases known with
    | true => cases (put_known asked).symm.trans failed
    | false =>
        obtain ⟨new, others, becomes⟩ := put_takes volumeSound sound numbered numberedStill asked
        rw [failed] at becomes
        refine Or.inr ⟨rfl, sound.held_eq ▸ new, ?_, ?_⟩
        · rw [becomes.sound.held_eq]
          exact becomes.holds.mem_iff.mpr List.mem_cons_self
        · rw [becomes.sound.counted, becomes.holds.length_eq, sound.counted]
          rfl

theorem perform_put_segment (home : Fingerprint → Nat) (traffic : Traffic) (fp : Fingerprint)
    (before : Volume) :
    (traffic.perform home (.put fp) before).1.segment =
      (beginPut (home fp) fp traffic.segment before).1.2 := by
  rcases result : beginPut (home fp) fp traffic.segment before with
    ⟨⟨error | known | (job | job), last⟩, after⟩ <;> rw [Traffic.perform_put result] <;> rfl

end

/-- A put that fails leaves the segment untouched exactly if its membership test failed.  If
the test had an answer, the fingerprint is held and counted afterwards although no put has
said so. -/
theorem put_failure_iff (site : Site) (created : site.create.1.isOk = true) (moves : List Move)
    (fp : Fingerprint) (numbered : ∀ count,
      (site.segment ((moves ++ [Move.put fp]).take count)).store.nextId < UInt64.size)
    {error : Error} {last : Segment} {after : Volume}
    (failed : put (site.home fp) fp (site.segment moves) (site.after moves).2 =
      ((.error error, last), after)) :
    (Untouched (site.after moves).2 (site.segment moves) after last ↔
      ∃ error, (contains (site.home fp) fp (site.segment moves) (site.after moves).2).1.1 =
        .error error) ∧
    (¬Untouched (site.after moves).2 (site.segment moves) after last →
      fp ∉ site.held moves ∧ fp ∈ last.held after ∧
        last.size = (site.segment moves).size + 1) := by
  have early := Site.numbered_earlier numbered
  obtain ⟨entries, sound, -⟩ := Site.after_leads created moves (Or.inr early)
  have limit : UInt64.size < numberLimit := by decide
  have room : (site.segment moves).store.nextId < numberLimit := by
    have bound := early moves.length
    rw [List.take_length] at bound
    exact Nat.lt_trans bound limit
  have roomStill : (beginPut (site.home fp) fp (site.segment moves)
      (site.after moves).2).1.2.store.nextId < numberLimit := by
    have bound := numbered (moves ++ [Move.put fp]).length
    rw [List.take_length, Site.segment, Site.after_append, Traffic.run_cons] at bound
    have performed := perform_put_segment site.home (site.after moves).1 fp (site.after moves).2
    rw [Site.segment, ← performed]
    exact Nat.lt_trans bound limit
  rcases put_error sound.tree sound.segment room roomStill failed with
    ⟨untouched, testFailed⟩ | ⟨answered, new, held, size⟩
  · exact ⟨iff_of_true untouched testFailed, fun touched => absurd untouched touched⟩
  · have touched : ¬Untouched (site.after moves).2 (site.segment moves) after last := fun same =>
      Nat.succ_ne_self _ (size.symm.trans same.2.1)
    refine ⟨iff_of_false touched ?_, fun _ => ⟨new, held, size⟩⟩
    rintro ⟨error, failed⟩
    cases answered.symm.trans failed

/-- A put that could not write the page, on a segment with one fingerprint. -/
theorem put_failure_refused :
    let site := Site.small fun tick => if tick = 1 then some .notFound else none
    let moves := [Move.put 1]
    site.create.1.isOk = true ∧
      (∀ count, (site.segment ((moves ++ [Move.put 2]).take count)).store.nextId < UInt64.size) ∧
      ∃ error last after, put (site.home 2) 2 (site.segment moves) (site.after moves).2 =
          ((.error error, last), after) ∧
        (Untouched (site.after moves).2 (site.segment moves) after last ↔
          ∃ error, (contains (site.home 2) 2 (site.segment moves) (site.after moves).2).1.1 =
            .error error) := by
  intro site moves
  have created : site.create.1.isOk = true := by decide +kernel
  have numbered (count : Nat) :
      (site.segment ((moves ++ [Move.put 2]).take count)).store.nextId < UInt64.size := by
    have each : ∀ count, count < 3 →
        (site.segment ((moves ++ [Move.put 2]).take count)).store.nextId < UInt64.size := by
      decide +kernel
    rw [List.take_eq_take_min]
    exact each _ (Nat.lt_succ_of_le (Nat.min_le_right ..))
  have fails : (put (site.home 2) 2 (site.segment moves) (site.after moves).2).1.1.isOk = false := by
    decide +kernel
  rcases failed : put (site.home 2) 2 (site.segment moves) (site.after moves).2 with
    ⟨⟨error | answer, last⟩, after⟩
  · exact ⟨created, numbered, error, last, after, rfl,
      (put_failure_iff site created moves 2 numbered failed).1⟩
  · rw [failed] at fails
    exact Bool.noConfusion fails

/-- Writing the page fails, so the put has an error for an answer; but the size has grown, and
the same put, made again when nothing fails any more, is told that its fingerprint was there. -/
theorem put_failure_counted :
    let site := Site.small fun tick => if tick = 1 then some .notFound else none
    let failing := put 0 2 (site.segment [Move.put 1]) (site.after [Move.put 1]).2
    failing.1.1.isOk = false ∧ 2 ∉ site.held [Move.put 1] ∧
      (site.segment [Move.put 1]).size = 1 ∧ failing.1.2.size = 2 ∧
      (put 0 2 failing.1.2 failing.2).1.1.toOption = some true := by
  decide +kernel

end Segment

end FingerprintSet
