import FingerprintSet.Proofs.Checkpoint.History
import FingerprintSet.Proofs.SortedFile.Damage

/-!
# Damage is reported

Whatever single byte of a finished file changes, the reserved ones apart, and however the file is
cut or grows, reading it to its end fails.  A published generation of which one segment file is
damaged in such a way is not loaded any more.
-/

namespace FingerprintSet

open Storage Volume SortedFile Checkpoint

variable {before stopped later : Volume} {dir : Path} {name : String} {path : Path} {kind : Kind}
  {header : Header} {bytes damaged : Bytes}

/-- A damaged file is not read to its end, whatever the schedule is. -/
theorem readAll_damaged (intact : Intact kind header bytes) (damage : Damage bytes damaged)
    (nonempty : path ≠ []) (sound : later.Sound) (there : later.bytes? path = some damaged) :
    ∃ error final, readAll path kind later = (.error error, final) := by
  have spoiled : ¬∃ bytes header, later.bytes? path = some bytes ∧ Intact kind header bytes := by
    rintro ⟨other, otherHeader, thereToo, also⟩
    obtain rfl := Option.some.inj (there.symm.trans thereToo)
    exact damage.spoils intact also
  obtain ⟨error, final, failed, -⟩ := (readAll_decides sound nonempty).error spoiled
  exact ⟨error, final, failed⟩

/-- A directory in which a listed file is damaged is not loaded as what it was. -/
theorem load_damaged {number : Nat} {manifest : Manifest} {entry : SegmentEntry}
    (valid : Checkpoint.Valid stopped dir number manifest) (mem : entry ∈ manifest.segments)
    (stood : stopped.bytes? (dir.child entry.file) = some bytes) (damage : Damage bytes damaged)
    (sound : later.Sound)
    (described : later.bytes? (dir.child manifestFile) = stopped.bytes? (dir.child manifestFile))
    (there : later.bytes? (dir.child entry.file) = some damaged) :
    ∃ error final, load dir number later = (.error error, final) := by
  have spoiled : ¬∃ manifest, Checkpoint.Valid later dir number manifest := by
    rintro ⟨other, also⟩
    obtain ⟨encoded, read, decoded⟩ := valid.described
    obtain ⟨others, readToo, decodedToo⟩ := also.described
    obtain rfl := Option.some.inj ((described.trans read).symm.trans readToo)
    obtain rfl := Option.some.inj (decoded.symm.trans decodedToo)
    obtain ⟨original, header, stoodToo, intact, -⟩ := (valid.segments entry mem).file
    obtain rfl := Option.some.inj (stood.symm.trans stoodToo)
    obtain ⟨spoilt, otherHeader, thereToo, alsoIntact, -⟩ := (also.segments entry mem).file
    obtain rfl := Option.some.inj (there.symm.trans thereToo)
    exact damage.spoils intact alsoIntact
  obtain ⟨error, final, failed, -⟩ := (load_decides sound).error spoiled
  exact ⟨error, final, failed⟩

/-- A segment file of a published generation stands in its directory, and no damage to it goes
unnoticed when the generation is loaded. -/
theorem load_damaged_part {done : Nat} {generation : Generation} {part : Part}
    (between : Between dir name done (some generation) stopped) (mem : part ∈ generation.parts) :
    ∃ bytes, stopped.bytes? ((dir.child (generationName name generation.number)).child part.file) =
        some bytes ∧ entriesIn bytes = part.held ∧
      ∀ damaged, Damage bytes damaged → ∀ later : Volume, later.Sound →
        later.bytes? ((dir.child (generationName name generation.number)).child manifestFile) =
          stopped.bytes? ((dir.child (generationName name generation.number)).child
            manifestFile) →
        later.bytes? ((dir.child (generationName name generation.number)).child part.file) =
          some damaged →
        ∃ error final, load (dir.child (generationName name generation.number))
          generation.number later = (.error error, final) := by
  have complete := between.kept.complete generation rfl
  have valid := valid_of_complete complete (between.kept.sound generation rfl)
    (between.counted generation rfl)
  obtain ⟨file, holds⟩ := complete.parts part mem
  have stood := bytes?_eq_some_iff.mpr ⟨file, holds.bound, holds.bytes⟩
  refine ⟨_, stood, entriesIn_fileBytes .checkpoint part.held, ?_⟩
  intro damaged damage later laterSound described there
  exact load_damaged valid (List.mem_map_of_mem mem) stood damage laterSound described there

/-- No damage to a finished file goes unnoticed.  The first part is about any file that was
written: it is read back as it is, and not read to its end when it is damaged.  The second part
is about the segment files of a generation that got its name, whatever was done in its directory
before and since: the generation is loaded as it is, and not when one of them is damaged. -/
theorem damage_reported {fps : List Fingerprint} (few : fps.length < countLimit)
    (sound : before.Sound) (quiet : before.Quiet) (isDir : before.IsDir dir)
    (fits : FitsDirectory name) (free : before.binding? (dir.child name) = none) (kind : Kind)
    (durable : Bool) (stride : Nat) {home : Path} {set : String} {start : Volume}
    (untouched : Untouched home set start) {lives : List Life}
    (lawful : ∀ life ∈ lives, Lawful [] 0 life.commands)
    (room : commits lives + 1 < generationLimit) :
    (∃ written after bytes,
      writeList (dir.child name) kind durable stride fps before = (.ok written, after) ∧
        after.bytes? (dir.child name) = some bytes ∧
        (readAll (dir.child name) kind after).1 = .ok fps ∧
        ∀ damaged, Damage bytes damaged → ∀ later : Volume, later.Sound →
          later.bytes? (dir.child name) = some damaged →
          ∃ error final, readAll (dir.child name) kind later = (.error error, final)) ∧
    ∀ generation stopped, history home set lives start = (some generation, stopped) →
      let directory := home.child (generationName set generation.number)
      (load directory generation.number (stopped.reschedule fun _ => none)).1 =
          .ok (generation.checkpoint home set) ∧
        ∀ part ∈ generation.parts, ∃ bytes,
          stopped.bytes? (directory.child part.file) = some bytes ∧
            entriesIn bytes = part.held ∧
            ∀ damaged, Damage bytes damaged → ∀ later : Volume, later.Sound →
              later.bytes? (directory.child manifestFile) =
                stopped.bytes? (directory.child manifestFile) →
              later.bytes? (directory.child part.file) = some damaged →
              ∃ error final, load directory generation.number later = (.error error, final) := by
  constructor
  · obtain ⟨written, after, result, changes, holds, -⟩ :=
      (writeList_runs sound isDir fits free kind durable stride fps).of_quiet quiet
    have nonempty := Path.child_ne_nil dir name
    have there : after.bytes? (dir.child name) = some (fileBytes kind fps) :=
      bytes?_eq_some_iff.mpr ⟨_, holds.bound, holds.bytes⟩
    have intact : Intact kind (headerOf fps) (fileBytes kind fps) := intact_fileBytes few
    obtain ⟨read, final, reads, -, same⟩ := (readAll_decides (changes.sound sound) nonempty).ok
      (changes.quiet quiet) ⟨_, _, there, intact⟩
    rw [there, Option.map_some, entriesIn_fileBytes] at same
    refine ⟨written, after, _, result, there, ?_, ?_⟩
    · rw [reads, ← Option.some.inj same]
    · intro damaged damage later laterSound thereLater
      exact readAll_damaged intact damage nonempty laterSound thereLater
  · intro generation stopped lived
    have between := history_between untouched lawful room lived
    have scheduled := between.reschedule fun _ => none
    obtain ⟨checkpoint, final, loaded, -, same⟩ := (load_runs scheduled.sound
      (between.kept.sound generation rfl) (between.counted generation rfl)
      (scheduled.kept.complete generation rfl)).of_quiet fun _ _ => rfl
    exact ⟨by rw [loaded, same]; rfl, fun part mem => load_damaged_part between mem⟩

/-- A life that publishes a generation with two segments. -/
def publishing : Life where
  faults := fun _ => none
  durable := true
  recovers := false
  commands := [.begin 7 1, .segment 0 [3, 5], .segment 1 [9], .stage, .commit]

/-- A page with two entries, and a generation with two segments of which the first is damaged. -/
theorem damage_reported_pair :
    (∃ written after bytes,
      writeList ["page"] .page true 2 [3, 5] {} = (.ok written, after) ∧
        after.bytes? ["page"] = some bytes ∧ (readAll ["page"] .page after).1 = .ok [3, 5] ∧
        ∀ damaged, Damage bytes damaged → ∀ later : Volume, later.Sound →
          later.bytes? ["page"] = some damaged →
          ∃ error final, readAll ["page"] .page later = (.error error, final)) ∧
    ∃ stopped bytes, (history [] "fps" [publishing] {}).2 = stopped ∧
      stopped.bytes? ["fps.chkpt.00000001", "seg-0000.fps"] = some bytes ∧
      entriesIn bytes = [3, 5] ∧
      ∀ damaged, Damage bytes damaged → ∀ later : Volume, later.Sound →
        later.bytes? ["fps.chkpt.00000001", "manifest.json"] =
          stopped.bytes? ["fps.chkpt.00000001", "manifest.json"] →
        later.bytes? ["fps.chkpt.00000001", "seg-0000.fps"] = some damaged →
        ∃ error final, load ["fps.chkpt.00000001"] 1 later = (.error error, final) := by
  have untouched := untouched_empty (show isUsableName "fps" = true by decide)
  have quiet : Volume.Quiet {} := fun _ _ => rfl
  have fits : FitsDirectory "page" := by constructor <;> decide
  have few : ([3, 5] : List Fingerprint).length < countLimit := by decide
  have lawful : ∀ life ∈ [publishing], Lawful [] 0 life.commands := by
    simp [publishing, Lawful, Ascending]
    decide
  have room : commits [publishing] + 1 < generationLimit := by decide
  have published : (history [] "fps" [publishing] {}).1 =
      some { number := 1, seed := 7, segmentBits := 1, parts :=
        [{ index := 0, held := [3, 5] }, { index := 1, held := [9] }] } := by decide +kernel
  obtain ⟨written, loaded⟩ := damage_reported few untouched.sound quiet untouched.isDir fits
    (empty_binding? _ _) .page true 2 untouched lawful room
  refine ⟨written, ?_⟩
  obtain ⟨-, parts⟩ := loaded _ _ (Prod.ext published rfl)
  obtain ⟨bytes, stood, entries, fails⟩ := parts _ List.mem_cons_self
  have directory : Path.child [] (generationName "fps" 1) = ["fps.chkpt.00000001"] := by
    decide +kernel
  have file : Part.file { index := 0, held := [3, 5] } = "seg-0000.fps" := by decide +kernel
  rw [directory, file] at stood
  rw [directory, file] at fails
  exact ⟨_, bytes, rfl, stood, entries, fails⟩

end FingerprintSet
