import FingerprintSet.Checkpoint.Basic
import FingerprintSet.Proofs.Ascending
import FingerprintSet.Proofs.SortedFile.Exact

/-!
# Which generations are loaded

A directory of any contents is loaded as a generation exactly if it is valid: its manifest can be
read and is of the right version and generation, each file it lists is intact, ascending and of
the count and checksum it lists, and the counts add up.
-/

namespace FingerprintSet

open Storage Volume SortedFile

namespace SegmentEntry

/-- The entries of the file that is listed in an entry of a manifest. -/
def held (volume : Volume) (dir : Path) (entry : SegmentEntry) : List Fingerprint :=
  ((volume.bytes? (dir.child entry.file)).map entriesIn).getD []

/-- The listed file has a plain name in the directory, is intact and ascending, and has the count
and the checksum that are listed. -/
structure Valid (volume : Volume) (dir : Path) (entry : SegmentEntry) : Prop where
  plain : plainName entry.file = true
  file : ∃ bytes header, volume.bytes? (dir.child entry.file) = some bytes ∧
    Intact .checkpoint header bytes ∧ header.count.toNat = entry.count ∧
    header.checksum = entry.checksum
  ascending : Ascending (entry.held volume dir)

variable {before after : Volume} {dir : Path} {entry : SegmentEntry}

theorem held_eq {bytes : Bytes}
    (there : before.bytes? (dir.child entry.file) = some bytes) :
    entry.held before dir = entriesIn bytes := by
  rw [held, there]
  rfl

theorem Valid.length_held (valid : entry.Valid before dir) :
    (entry.held before dir).length = entry.count := by
  obtain ⟨bytes, header, there, intact, count, -⟩ := valid.file
  rw [held_eq there, intact.headed.length_entries, count]

/-- An entry is as valid as elsewhere if its file is the same. -/
theorem Valid.congr {other : Path} (valid : entry.Valid before dir)
    (same : after.bytes? (other.child entry.file) = before.bytes? (dir.child entry.file)) :
    entry.Valid after other where
  plain := valid.plain
  file := by
    rw [same]
    exact valid.file
  ascending := by
    rw [held, same]
    exact valid.ascending

end SegmentEntry

namespace Checkpoint

/-- A directory holds a generation of the given number, with the given manifest. -/
structure Valid (volume : Volume) (dir : Path) (number : Nat) (manifest : Manifest) : Prop where
  described : ∃ bytes, volume.bytes? (dir.child manifestFile) = some bytes ∧
    Manifest.decode bytes.toList = some manifest
  version : manifest.formatVersion = formatVersion.toNat
  generation : manifest.generation = number
  segments : ∀ entry ∈ manifest.segments, entry.Valid volume dir
  counted : total (·.count) manifest.segments = manifest.count

variable {before after : Volume} {dir : Path} {number : Nat} {manifest : Manifest}

/-- A generation is as valid as elsewhere if its manifest and the files it lists are the same. -/
theorem Valid.of_files {other : Path} (valid : Valid before dir number manifest)
    (described : after.bytes? (other.child manifestFile) = before.bytes? (dir.child manifestFile))
    (same : ∀ entry ∈ manifest.segments,
      after.bytes? (other.child entry.file) = before.bytes? (dir.child entry.file)) :
    Valid after other number manifest where
  described := by
    rw [described]
    exact valid.described
  version := valid.version
  generation := valid.generation
  segments := fun entry mem => (valid.segments entry mem).congr (same entry mem)
  counted := valid.counted

/-- A generation is as valid as it was while all files in its directory stay. -/
theorem Valid.congr (valid : Valid before dir number manifest)
    (same : ∀ name, after.bytes? (dir.child name) = before.bytes? (dir.child name)) :
    Valid after dir number manifest :=
  valid.of_files (same _) fun _ _ => same _

/-- The manifest of a generation is determined. -/
theorem Valid.unique {other : Manifest} {otherNumber : Nat} (valid : Valid before dir number manifest)
    (also : Valid before dir otherNumber other) : manifest = other := by
  obtain ⟨bytes, there, decoded⟩ := valid.described
  obtain ⟨others, thereToo, decodedToo⟩ := also.described
  obtain rfl := Option.some.inj (there.symm.trans thereToo)
  exact Option.some.inj (decoded.symm.trans decodedToo)

/-! ## Loading -/

theorem verifyEntries_eq (path : Path) (bound : Nat) (last : Option Fingerprint)
    (reader : Reader) (before : Volume) :
    verifyEntries path (bound + 1) last reader before =
      (match (reader.next before).1.2 with
        | .ended => pure ()
        | .failed error => throw error
        | .value fp =>
            if last.any (fp ≤ ·) then throw (.corrupt path .entriesOutOfOrder)
            else verifyEntries path bound (some fp) (reader.next before).1.1 : Task Unit)
        (reader.next before).2 :=
  rfl

theorem verifyEntries_apply (path : Path) (bound : Nat) (last : Option Fingerprint)
    (reader : Reader) (before : Volume) :
    verifyEntries path (bound + 1) last reader before =
      match reader.next before with
      | ((_, .ended), after) => (.ok (), after)
      | ((_, .failed error), after) => (.error error, after)
      | ((reader, .value fp), after) =>
          (if last.any (fp ≤ ·) then throw (.corrupt path .entriesOutOfOrder)
            else verifyEntries path bound (some fp) reader : Task Unit) after := by
  rw [verifyEntries_eq]
  rcases reader.next before with ⟨⟨_, _ | _ | _⟩, _⟩ <;> rfl

/-- Whether an entry stands above the last one. -/
theorem any_le_iff {last : Option Fingerprint} {fp : Fingerprint} {fps : List Fingerprint} :
    Ascending (last.toList ++ fp :: fps) ↔ ¬last.any (fp ≤ ·) = true ∧ Ascending (fp :: fps) := by
  cases last with
  | none => simp
  | some last =>
      show Ascending (last :: fp :: fps) ↔ _
      rw [Ascending.cons_cons_iff, Option.any_some, decide_eq_true_eq, UInt64.not_le]

/-- Entries pass exactly if they ascend from the last one on and their checksum is right. -/
theorem verifyEntries_decides (path : Path) {id : FileId} {fps : List Fingerprint} {bound : Nat}
    {last : Option Fingerprint} {reader : Reader} (spells : reader.Spells before id fps)
    (enough : fps.length < bound) :
    Decides (verifyEntries path bound last reader) before
      (Ascending (last.toList ++ fps) ∧
        fps.foldl Fnv.absorbFingerprint reader.sum = reader.header.checksum) fun _ _ => True := by
  induction fps generalizing bound last reader before with
  | nil =>
      obtain ⟨bound, rfl⟩ := Nat.exists_eq_succ_of_ne_zero (Nat.ne_zero_of_lt enough)
      have unfolded := verifyEntries_apply path bound last reader before
      rw [Reader.next_spells_nil spells] at unfolded
      have ordered : Ascending (last.toList ++ []) := by
        cases last with
        | none => exact .nil
        | some last => exact List.pairwise_singleton _ _
      by_cases right : reader.sum = reader.header.checksum
      · rw [if_pos right] at unfolded
        exact Meets.of_ok unfolded ⟨.refl before, ⟨ordered, right⟩, trivial⟩
      · rw [if_neg right] at unfolded
        exact Meets.of_error unfolded ⟨.refl before, fun _ both => right both.2⟩
  | cons fp fps ih =>
      obtain ⟨bound, rfl⟩ := Nat.exists_eq_succ_of_ne_zero (Nat.ne_zero_of_lt enough)
      have unfolded := verifyEntries_apply path bound last reader before
      obtain ⟨next, _, after, asked, changes, ⟨rfl, rest, same⟩ | ⟨⟨error, rfl⟩, refused⟩⟩ :=
        Reader.next_spells spells
      · obtain ⟨-, header, sum⟩ := Prod.mk.inj same |>.imp_right Prod.mk.inj
        rw [asked] at unfolded
        dsimp only at unfolded
        split at unfolded
        · rename_i notAbove
          have fails : Decides (throw (.corrupt path .entriesOutOfOrder) : Task Unit) after
              (Ascending (last.toList ++ fp :: fps) ∧ (fp :: fps).foldl Fnv.absorbFingerprint
                reader.sum = reader.header.checksum) fun _ _ => True :=
            .throw fun both => (any_le_iff.mp both.1).1 notAbove
          exact (fails.since changes).comesTo unfolded
        · rename_i above
          have others : Decides (verifyEntries path bound (some fp) next) after _ _ :=
            ih rest (Nat.lt_of_succ_lt_succ enough)
          rw [header, sum] at others
          have ordered : Ascending (last.toList ++ fp :: fps) ↔ Ascending (fp :: fps) :=
            any_le_iff.trans (and_iff_right above)
          rw [ordered]
          exact (others.since changes).comesTo unfolded
      · rw [asked] at unfolded
        exact Meets.of_error unfolded ⟨changes, fun quiet => absurd quiet refused⟩

/-- A listed file passes exactly if it is valid. -/
theorem verifySegment_decides (sound : before.Sound) (entry : SegmentEntry) :
    Decides (verifySegment dir entry) before (entry.Valid before dir) fun _ _ => True := by
  rw [verifySegment]
  split
  · rename_i notPlain
    exact .throw fun valid => by simp [valid.plain] at notPlain
  rename_i plain
  refine .bind (Reader.openAt_decides sound (Path.child_ne_nil _ _)) ?_ ?_
  · rintro ⟨-, ⟨bytes, header, there, intact, -⟩, -⟩
    exact ⟨bytes, header, there, intact.headed⟩
  rintro reader opened changes - ⟨bytes, id, there, headed, spells, -, start⟩
  have valid_iff : entry.Valid before dir ↔
      (reader.header.count.toNat = entry.count ∧ reader.header.checksum = entry.checksum) ∧
        Ascending (entriesIn bytes) ∧
        (entriesIn bytes).foldl Fnv.absorbFingerprint reader.sum = reader.header.checksum := by
    rw [start]
    constructor
    · intro valid
      obtain ⟨other, header, thereToo, intact, agrees⟩ := valid.file
      obtain rfl := Option.some.inj (there.symm.trans thereToo)
      obtain rfl := headed.unique intact.headed
      exact ⟨agrees, SegmentEntry.held_eq there ▸ valid.ascending, intact.sum⟩
    · rintro ⟨agrees, ascending, sum⟩
      exact
        { plain := by simpa using plain
          file := ⟨bytes, reader.header, there, ⟨headed, sum⟩, agrees⟩
          ascending := SegmentEntry.held_eq there ▸ ascending }
  rw [valid_iff]
  split
  · rename_i agrees
    have enough : (entriesIn bytes).length < reader.remaining + 1 :=
      Nat.lt_succ_of_le (Nat.le_of_eq spells.remaining.symm)
    exact (verifyEntries_decides _ spells enough).mono (and_iff_right agrees).symm
      fun _ _ _ _ done => done
  · rename_i disagrees
    exact .throw fun both => disagrees both.1

theorem verifySegments_decides (sound : before.Sound) (entries : List SegmentEntry) :
    Decides (entries.forM (verifySegment dir)) before
      (∀ entry ∈ entries, entry.Valid before dir) fun _ _ => True := by
  induction entries generalizing before with
  | nil => exact .pure (fun _ none => nomatch none) trivial
  | cons entry entries ih =>
      rw [List.forall_mem_cons, List.forM]
      refine .bind (verifySegment_decides sound entry) (fun all => all.1) ?_
      rintro _ after changes valid -
      refine (ih (changes.sound sound)).mono ?_ fun _ _ _ _ done => done
      have same (name : String) : after.bytes? (dir.child name) = before.bytes? (dir.child name) :=
        changes.bytes?_eq sound fun nowhere => nowhere
      rw [and_iff_right valid]
      exact forall₂_congr fun other _ =>
        ⟨fun there => there.congr (same _).symm, fun there => there.congr (same _)⟩

/-- A manifest is read exactly if its bytes spell one. -/
theorem readManifest_decides (sound : before.Sound) :
    Decides (readManifest dir) before
      (∃ manifest bytes, before.bytes? (dir.child manifestFile) = some bytes ∧
        Manifest.decode bytes.toList = some manifest)
      fun manifest _ => ∃ bytes, before.bytes? (dir.child manifestFile) = some bytes ∧
        Manifest.decode bytes.toList = some manifest := by
  have reads : Decides ((Activity.reading (dir.child manifestFile)).run
      (readWhole (dir.child manifestFile))) before _ _ :=
    .adapt (readWhole_decides sound (Path.child_ne_nil _ _))
  refine .bind reads ?_ ?_
  · rintro ⟨manifest, bytes, there, -⟩
    simp [there]
  rintro bytes after - - there
  split
  · rename_i manifest decoded
    exact .pure ⟨manifest, bytes, there, decoded⟩ ⟨bytes, there, decoded⟩
  · rename_i unreadable
    refine .throw ?_
    rintro ⟨manifest, other, thereToo, decoded⟩
    obtain rfl := Option.some.inj (there.symm.trans thereToo)
    rw [decoded] at unreadable
    contradiction

/-- A directory is loaded exactly if it is valid, and with its manifest. -/
theorem load_decides (sound : before.Sound) :
    Decides (load dir number) before (∃ manifest, Valid before dir number manifest)
      fun checkpoint _ => checkpoint.directory = dir ∧
        Valid before dir number checkpoint.manifest := by
  refine .bind (readManifest_decides sound) ?_ ?_
  · exact fun ⟨manifest, valid⟩ => ⟨manifest, valid.described⟩
  rintro manifest read changes - described
  have own {other : Manifest} (valid : Valid before dir number other) : other = manifest := by
    obtain ⟨bytes, there, decoded⟩ := described
    obtain ⟨others, thereToo, decodedToo⟩ := valid.described
    obtain rfl := Option.some.inj (there.symm.trans thereToo)
    exact Option.some.inj (decodedToo.symm.trans decoded)
  split
  · rename_i other
    exact .throw fun ⟨found, valid⟩ => other (own valid ▸ valid.version)
  rename_i version
  split
  · rename_i other
    exact .throw fun ⟨found, valid⟩ => other (own valid ▸ valid.generation)
  rename_i generation
  have same (name : String) : read.bytes? (dir.child name) = before.bytes? (dir.child name) :=
    changes.bytes?_eq sound fun nowhere => nowhere
  refine .bind (verifySegments_decides (changes.sound sound) manifest.segments) ?_ ?_
  · rintro ⟨found, valid⟩ entry mem
    exact ((own valid ▸ valid).segments entry mem).congr (same _)
  rintro _ verified - segments -
  dsimp only
  split
  · rename_i counted
    have valid : Valid before dir number manifest :=
      { described
        version := Decidable.not_not.mp version
        generation := Decidable.not_not.mp generation
        segments := fun entry mem => (segments entry mem).congr (same _).symm
        counted }
    exact .pure ⟨manifest, valid⟩ ⟨rfl, valid⟩
  · rename_i other
    exact .throw fun ⟨found, valid⟩ => other (own valid ▸ valid.counted)

end Checkpoint

end FingerprintSet
