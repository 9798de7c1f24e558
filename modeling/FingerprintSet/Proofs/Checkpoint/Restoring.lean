import FingerprintSet.Checkpoint.Restore
import FingerprintSet.Proofs.Checkpoint.Generation
import FingerprintSet.Proofs.Storage.Leaving

/-!
# Restoring a generation

The stream of a complete generation gives all its fingerprints, segment by segment.  Restoring
puts each of them, whatever putting one does: what a set has taken in after some of them is an
invariant that the set brings.
-/

namespace FingerprintSet.Checkpoint

open Storage Volume SortedFile

variable {before : Volume} {used : FileId → Prop} {readers : List Reader} {fps : List Fingerprint}

/-! ## Streams -/

/-- Readers deliver entries one after the other. -/
inductive Row (volume : Volume) (used : FileId → Prop) : List Reader → List Fingerprint → Prop
  | nil : Row volume used [] []
  | cons {reader : Reader} {readers : List Reader} {fps rest : List Fingerprint} :
      reader.Delivers volume used fps → Row volume used readers rest →
        Row volume used (reader :: readers) (fps ++ rest)

theorem Row.of_changes {paths : Path → Prop} {files : FileId → Prop} {after : Volume}
    (row : Row before used readers fps) (changes : Changes paths files before after)
    (untouched : ∀ id, id < before.contents.size → used id → ¬files id) :
    Row after used readers fps := by
  induction row with
  | nil => exact .nil
  | cons delivers _ ih => exact .cons (delivers.of_changes changes untouched) ih

theorem Row.remaining (row : Row before used readers fps) :
    total (·.remaining) readers = fps.length := by
  induction row with
  | nil => rfl
  | cons delivers _ ih => rw [total_cons, delivers.remaining, ih, List.length_append]

theorem nextOf_eq (reader : Reader) (readers : List Reader) (before : Volume) :
    nextOf (reader :: readers) before =
      (match (reader.next before).1.2 with
        | .ended => nextOf readers
        | pull => pure ((reader.next before).1.1 :: readers, pull) :
          StateM Volume (List Reader × Pull)) (reader.next before).2 :=
  rfl

theorem nextOf_apply (reader : Reader) (readers : List Reader) (before : Volume) :
    nextOf (reader :: readers) before =
      match reader.next before with
      | ((_, .ended), after) => nextOf readers after
      | ((reader, .value fp), after) => ((reader :: readers, .value fp), after)
      | ((reader, .failed error), after) => ((reader :: readers, .failed error), after) := by
  rw [nextOf_eq]
  rcases reader.next before with ⟨⟨_, _ | _ | _⟩, _⟩ <;> rfl

/-- Readers in a row give all that they deliver. -/
theorem nextOf_gives (row : Row before used readers fps) :
    Gives (nextOf readers) before fps fun readers after rest => Row after used readers rest := by
  induction readers generalizing before fps with
  | nil =>
      cases row
      exact ⟨[], .ended, before, rfl, .refl before, rfl, trivial⟩
  | cons reader readers ih =>
      rcases row with _ | @⟨_, _, fps, rest, delivers, row⟩
      obtain ⟨next, pull, after, asked, changes, given⟩ := Reader.next_gives delivers
      have unfolded := nextOf_apply reader readers before
      rw [asked] at unfolded
      have still := row.of_changes changes fun _ _ _ none => none
      cases pull with
      | ended =>
          obtain ⟨rfl, -⟩ := given
          obtain ⟨others, pull, final, asked, more, given⟩ := ih still
          refine ⟨others, pull, final, unfolded.trans asked, changes.trans more, ?_⟩
          cases pull with
          | ended => exact given
          | failed error => exact fun quiet => given (changes.quiet quiet)
          | value fp => exact given
      | failed error => exact ⟨_, _, after, unfolded, changes, given⟩
      | value fp =>
          obtain ⟨others, rfl, othersDeliver⟩ := given
          exact ⟨_, _, after, unfolded, changes, others ++ rest, rfl, .cons othersDeliver still⟩

/-- What the files that are listed in entries hold, file by file. -/
def listed (volume : Volume) (dir : Path) (entries : List SegmentEntry) : List Fingerprint :=
  entries.flatMap (·.held volume dir)

theorem listed_congr {after : Volume} {dir : Path} {entries : List SegmentEntry}
    (same : ∀ name, after.bytes? (dir.child name) = before.bytes? (dir.child name)) :
    listed after dir entries = listed before dir entries := by
  have held (entry : SegmentEntry) : entry.held after dir = entry.held before dir := by
    rw [SegmentEntry.held, same, SegmentEntry.held]
  rw [listed, listed, funext held]

/-- The listed files are opened as readers in a row, one for each. -/
theorem openSegments_runs (sound : before.Sound) {dir : Path} {entries : List SegmentEntry}
    (valid : ∀ entry ∈ entries, entry.Valid before dir) :
    Runs (openSegments dir entries) before Nowhere NoFile fun readers after =>
      Row after (fun _ => True) readers (listed before dir entries) := by
  induction entries generalizing before with
  | nil => exact Runs.pure .nil
  | cons entry entries ih =>
      rw [List.forall_mem_cons] at valid
      obtain ⟨bytes, header, there, intact, -⟩ := valid.1.file
      have opens := (Reader.openAt_decides sound (Path.child_ne_nil dir entry.file)).runs
        ⟨bytes, header, there, intact.headed⟩
      apply Runs.bind opens
      rintro reader after changes ⟨other, id, thereToo, headed, spells, -, start⟩
      obtain rfl := Option.some.inj (there.symm.trans thereToo)
      obtain rfl := headed.unique intact.headed
      have same (name : String) : after.bytes? (dir.child name) = before.bytes? (dir.child name) :=
        changes.bytes?_eq sound fun nowhere => nowhere
      have still : ∀ entry ∈ entries, entry.Valid after dir :=
        fun other mem => (valid.2 other mem).congr (same _)
      apply Runs.bind (ih (changes.sound sound) still)
      intro readers final more row
      apply Runs.pure
      have stands : reader.Stands after id (entriesIn bytes) := spells.stands (start ▸ intact.sum)
      have stillStands := stands.of_changes more fun none => none
      rw [listed_congr same] at row
      have delivers := Row.cons ⟨id, trivial, stillStands⟩ row
      rwa [← SegmentEntry.held_eq there] at delivers

/-- The stream of a valid generation delivers what its files hold. -/
theorem stream_runs (sound : before.Sound) {dir : Path} {number : Nat} {manifest : Manifest}
    (valid : Valid before dir number manifest) :
    Runs (stream { directory := dir, manifest }) before Nowhere NoFile fun stream after =>
      Row after (fun _ => True) stream.readers (listed before dir manifest.segments) := by
  apply Runs.bind (openSegments_runs sound valid.segments)
  intro readers after _ row
  exact Runs.pure row

/-- A valid generation holds as many fingerprints as it records. -/
theorem Valid.length_listed {dir : Path} {number : Nat} {manifest : Manifest}
    (valid : Valid before dir number manifest) :
    (listed before dir manifest.segments).length = manifest.count := by
  rw [listed, length_flatMap, ← valid.counted]
  exact total_congr fun entry mem => (valid.segments entry mem).length_held

/-- What the files of a complete generation hold are its fingerprints. -/
theorem listed_of_complete {generation : Generation} {dir : Path}
    (complete : generation.Complete before dir) :
    listed before dir generation.manifest.segments = generation.held := by
  have held : ∀ part ∈ generation.parts, part.entry.held before dir = part.held :=
    fun part mem => held_entry (complete.parts part mem)
  rw [listed, Generation.manifest, List.flatMap_map, Generation.held]
  exact List.flatMap_congr held

/-! ## Putting every value -/

section Put

variable {σ : Type} {put : Fingerprint → Keeping σ Bool} {paths : Path → Prop}
  {whole : List Fingerprint} {taken : σ → List Fingerprint → Volume → Prop}

theorem putAll_eq (bound : Nat) (stream : Stream) (state : σ) (before : Volume) :
    putAll put (bound + 1) stream state before =
      (match (nextOf stream.readers before).1.2 with
        | .ended => pure ()
        | .failed error => throw error
        | .value fp => do
            let _ ← put fp
            putAll put bound { readers := (nextOf stream.readers before).1.1 } : Keeping σ Unit)
        state (nextOf stream.readers before).2 :=
  rfl

theorem putAll_apply (bound : Nat) (stream : Stream) (state : σ) (before : Volume) :
    putAll put (bound + 1) stream state before =
      match nextOf stream.readers before with
      | ((_, .ended), after) => ((.ok (), state), after)
      | ((_, .failed error), after) => ((.error error, state), after)
      | ((readers, .value fp), after) =>
          (do let _ ← put fp; putAll put bound { readers } : Keeping σ Unit) state after := by
  rw [putAll_eq]
  rcases nextOf stream.readers before with ⟨⟨_, _ | _ | _⟩, _⟩ <;> rfl

/-- A set that takes in one value after the other has taken in all that a stream gives. -/
theorem putAll_runs
    (steady : ∀ state done before after, before.Sound → Changes Nowhere NoFile before after →
      taken state done before → taken state done after)
    (puts : ∀ state done fp rest before, before.Sound → done ++ fp :: rest = whole →
      taken state done before → Keeping.Runs (put fp) state before paths NoFile
        (fun _ state after => taken state (done ++ [fp]) after) fun _ _ => True)
    (bound : Nat) {stream : Stream} {state : σ} {done out : List Fingerprint}
    (sound : before.Sound) (split : done ++ out = whole)
    (row : Row before used stream.readers out) (enough : out.length < bound)
    (already : taken state done before) :
    Keeping.Runs (putAll put bound stream) state before paths NoFile
      (fun _ state after => taken state whole after) fun _ _ => True := by
  induction bound generalizing before stream state done out with
  | zero => exact absurd enough (Nat.not_lt_zero _)
  | succ bound ih =>
      obtain ⟨readers, pull, after, asked, changes, given⟩ := nextOf_gives row
      have unfolded : putAll put (bound + 1) stream state before = _ :=
        putAll_apply bound stream state before
      rw [asked] at unfolded
      have stillTaken := steady state done before after sound changes already
      cases pull with
      | ended =>
          obtain ⟨rfl, -⟩ := given
          rw [List.append_nil] at split
          exact Keeping.Runs.of_ok unfolded changes.ofNothing (split ▸ stillTaken)
      | failed error => exact Keeping.Runs.of_error unfolded changes.ofNothing trivial given
      | value fp =>
          obtain ⟨rest, rfl, restRow⟩ := given
          dsimp only at unfolded
          apply Keeping.Runs.comesTo unfolded changes.ofNothing
          apply Keeping.Runs.bind (puts state done fp rest after (changes.sound sound) split stillTaken)
          intro _ state final more takenMore
          apply ih (more.sound (changes.sound sound)) _ (restRow.of_changes more _) _ takenMore
          · simpa using split
          · exact fun _ _ _ none => none
          · exact Nat.lt_of_succ_lt_succ enough

/-- Put everything that a checkpoint holds. -/
def putEach (put : Fingerprint → Keeping σ Bool) (checkpoint : Checkpoint) : Keeping σ Unit := do
  let stream ← (checkpoint.stream : Task Stream)
  putAll put (stream.remaining + 1) stream

/-- Restoring is putting everything, and counting then. -/
theorem restore_apply (size : σ → Nat) (checkpoint : Checkpoint) (state : σ) (before : Volume) :
    restore put size checkpoint state before =
      match putEach put checkpoint state before with
      | ((.ok (), last), after) =>
          ((if size last = checkpoint.count then .ok ()
            else .error (.corrupt (checkpoint.directory.child manifestFile)
              (.restoredMismatch (size last) checkpoint.manifest.generation checkpoint.count)),
            last), after)
      | ((.error error, last), after) => ((.error error, last), after) := by
  have unfolded : restore put size checkpoint = (do
      putEach put checkpoint
      let restored := size (← get)
      if restored = checkpoint.count then
        pure ()
      else
        throw (.corrupt (checkpoint.directory.child manifestFile)
          (.restoredMismatch restored checkpoint.manifest.generation checkpoint.count)) :
        Keeping σ Unit) := by
    rw [putEach, bind_assoc]
    rfl
  rw [unfolded, Keeping.bind_apply]
  rcases putEach put checkpoint state before with ⟨⟨_ | _, last⟩, after⟩
  · rfl
  · show (if size last = checkpoint.count then _ else _ : Keeping σ Unit) last after = _
    dsimp only
    by_cases full : size last = checkpoint.count
    · rw [if_pos full, if_pos full]
      rfl
    · rw [if_neg full, if_neg full]
      rfl

/-- Everything that a valid generation holds is put. -/
theorem putEach_runs
    (steady : ∀ state done before after, before.Sound → Changes Nowhere NoFile before after →
      taken state done before → taken state done after)
    (puts : ∀ state done fp rest before, before.Sound → done ++ fp :: rest = whole →
      taken state done before → Keeping.Runs (put fp) state before paths NoFile
        (fun _ state after => taken state (done ++ [fp]) after) fun _ _ => True)
    {dir : Path} {number : Nat} {manifest : Manifest} {state : σ} (sound : before.Sound)
    (valid : Valid before dir number manifest)
    (holds : listed before dir manifest.segments = whole) (already : taken state [] before) :
    Keeping.Runs (putEach put { directory := dir, manifest }) state before paths NoFile
      (fun _ state after => taken state whole after) fun _ _ => True := by
  have opens := (stream_runs sound valid).mono fun _ _ changes row => And.intro changes row
  apply Keeping.Runs.liftThen opens.ofNothing
  · exact fun _ _ => trivial
  · rintro stream after _ ⟨changes, row⟩
    rw [holds] at row
    have stillTaken := steady state [] before after sound changes already
    have enough : whole.length < stream.remaining + 1 := by
      rw [Stream.remaining, row.remaining]
      exact Nat.lt_succ_self _
    exact putAll_runs steady puts _ (changes.sound sound) rfl row enough stillTaken

/-- Restoring a valid generation puts everything that it holds, and fails then only if the set is
not of the size that is recorded. -/
theorem restore_meets
    (steady : ∀ state done before after, before.Sound → Changes Nowhere NoFile before after →
      taken state done before → taken state done after)
    (puts : ∀ state done fp rest before, before.Sound → done ++ fp :: rest = whole →
      taken state done before → Keeping.Runs (put fp) state before paths NoFile
        (fun _ state after => taken state (done ++ [fp]) after) fun _ _ => True)
    {size : σ → Nat} {dir : Path} {number : Nat} {manifest : Manifest} {state : σ}
    (sound : before.Sound) (valid : Valid before dir number manifest)
    (holds : listed before dir manifest.segments = whole) (already : taken state [] before) :
    Meets (Keeping.build state (restore put size { directory := dir, manifest })) before
      (fun last after => Changes paths NoFile before after ∧ taken last whole after ∧
        size last = manifest.count)
      fun error after => Changes paths NoFile before after ∧ (before.Quiet →
        ∃ last, taken last whole after ∧ size last ≠ manifest.count ∧
          error = .corrupt (dir.child manifestFile)
            (.restoredMismatch (size last) manifest.generation manifest.count)) := by
  have unfolded : restore put size { directory := dir, manifest } state before = _ :=
    restore_apply size { directory := dir, manifest } state before
  have built := Keeping.Runs.build_apply (restore put size { directory := dir, manifest }) state before
  rcases (putEach_runs steady puts sound valid holds already).cases with
    ⟨_, last, after, result, changes, takenAll⟩ | ⟨error, last, after, result, changes, -, refused⟩
  · rw [result] at unfolded
    dsimp only at unfolded
    by_cases full : size last = Checkpoint.count { directory := dir, manifest }
    · rw [if_pos full] at unfolded
      rw [unfolded] at built
      exact Meets.of_ok built ⟨changes, takenAll, full⟩
    · rw [if_neg full] at unfolded
      rw [unfolded] at built
      exact Meets.of_error built ⟨changes, fun _ => ⟨last, takenAll, full, rfl⟩⟩
  · rw [result] at unfolded
    rw [unfolded] at built
    exact Meets.of_error built ⟨changes, fun quiet => absurd quiet refused⟩

end Put

/-! ## What puts keep -/

section Kept

variable {σ : Type} {put : Fingerprint → Keeping σ Bool} {kept : σ → Prop} {state : σ}

/-- What every put keeps that is answered, putting all values keeps. -/
theorem putAll_leaves
    (puts : ∀ state fp, kept state →
      Keeping.Leaves (put fp) state fun result last => ∀ known, result = .ok known → kept last)
    (bound : Nat) (stream : Stream) (start : kept state) :
    Keeping.Leaves (putAll put bound stream) state fun result last => result = .ok () → kept last := by
  induction bound generalizing stream state with
  | zero => exact Keeping.Leaves.pure fun _ => start
  | succ bound ih =>
      intro before
      have unfolded : putAll put (bound + 1) stream state before = _ :=
        putAll_apply bound stream state before
      rw [unfolded]
      rcases nextOf stream.readers before with ⟨⟨readers, pull⟩, after⟩
      cases pull with
      | ended => exact fun _ => start
      | failed error => exact fun impossible => nomatch impossible
      | value fp =>
          have rest : Keeping.Leaves (do let _ ← put fp; putAll put bound { readers } : Keeping σ Unit)
              state fun result last => result = .ok () → kept last := by
            refine Keeping.Leaves.bind _ (puts state fp start) ?_ fun _ _ _ => by simp
            exact fun known last answered => ih { readers } (answered known rfl)
          exact rest after

/-- A set that was restored still has what puts keep. -/
theorem restore_leaves
    (puts : ∀ state fp, kept state →
      Keeping.Leaves (put fp) state fun result last => ∀ known, result = .ok known → kept last)
    (size : σ → Nat) (checkpoint : Checkpoint) (start : kept state) :
    Keeping.Leaves (restore put size checkpoint) state fun result last =>
      result = .ok () → kept last := by
  refine Keeping.Leaves.bind (fun _ last => kept last) (Keeping.Leaves.lift fun _ => start) ?_
    fun _ _ _ => by simp
  intro stream last still
  refine Keeping.Leaves.bind _ (putAll_leaves puts _ stream still) ?_ fun _ _ _ => by simp
  intro _ filled fine
  apply Keeping.Leaves.getThen
  dsimp only
  split
  · exact Keeping.Leaves.pure fun _ => fine rfl
  · exact Keeping.Leaves.ofExcept fun impossible => nomatch impossible

end Kept

end FingerprintSet.Checkpoint
