import FingerprintSet.Proofs.Checkpoint.Recovery
import FingerprintSet.Proofs.Checkpoint.Turns

/-!
# Taking up a directory of any contents

What is known of a set once it has been opened, whatever the directory held and whatever steps were
refused on the way: its keeper is in charge, and filling the set has left it calm.
-/

namespace FingerprintSet

open Storage Volume SortedFile Checkpoint

variable {before : Volume} {dir : Path} {name : String} {most : Nat} {keeper : CheckpointKeeper}

/-- A place where a set may be opened, whatever is there: no file is under the name of a generation,
and the numbers are bounded. -/
structure Admits (dir : Path) (name : String) (most : Nat) (volume : Volume) : Prop where
  tree : volume.Sound
  creatable : Creatable volume dir
  noFile : ∀ entry number, generationOf? name entry = some number →
    ∀ id, volume.binding? (dir.child entry) ≠ some (.file id)
  upTo : ∀ item, Stands volume dir name item → item.1 ≤ most

theorem admits_empty (name : String) (most : Nat) : Admits [] name most {} where
  tree := empty_sound _
  creatable := Creatable.of_isDir (empty_sound _) (Or.inl rfl)
  noFile _ _ _ id bound := by simp at bound
  upTo := by
    rintro item ⟨entry, -, -, bound⟩
    simp at bound

/-- No generation that a set may be restored from records more fingerprints than so many. -/
def CountsUpTo (dir : Path) (name : String) (limit : Nat) (volume : Volume) : Prop :=
  ∀ entry number manifest, generationOf? name entry = some number →
    Checkpoint.Valid volume (dir.child entry) number manifest → manifest.count ≤ limit

theorem countsUpTo_empty (dir : Path) (name : String) (limit : Nat) :
    CountsUpTo dir name limit {} := by
  intro entry number manifest _ valid
  obtain ⟨bytes, there, -⟩ := valid.described
  obtain ⟨id, bound, -⟩ := bytes?_eq_some_iff.mp there
  simp at bound

/-- The generations record what they did while their files stay. -/
theorem CountsUpTo.congr {after : Volume} {limit : Nat} (counts : CountsUpTo dir name limit before)
    (same : ∀ entry number file, generationOf? name entry = some number →
      after.bytes? ((dir.child entry).child file) = before.bytes? ((dir.child entry).child file)) :
    CountsUpTo dir name limit after := by
  intro entry number manifest named valid
  exact counts entry number manifest named (valid.congr fun file => (same entry number file named).symm)

theorem CountsUpTo.of_changes {paths : Path → Prop} {after : Volume} {limit : Nat}
    (counts : CountsUpTo dir name limit before) (volumeSound : before.Sound)
    (changes : Changes paths NoFile before after) (spares : Spares dir name paths) :
    CountsUpTo dir name limit after :=
  counts.congr fun entry number file named =>
    changes.bytes?_eq volumeSound (spares.2 entry number named _ (Path.within_child _ file))

namespace CheckpointKeeper

/-- A keeper as it takes charge. -/
structure Fresh (dir : Path) (name : String) (most : Nat) (keeper : CheckpointKeeper) : Prop where
  path : keeper.directory = dir
  named : keeper.name = name
  idle : keeper.staged = none
  next : keeper.nextGeneration ≤ most + 1

/-- Once nothing is in the place of the staging directory, such a keeper is in charge. -/
theorem Fresh.inCharge (fresh : keeper.Fresh dir name most) (standing : StandsUpTo dir name most before)
    (staging : ∀ id, before.binding? (dir.child (stagingName name)) ≠ some (.file id)) :
    keeper.InCharge dir name most before where
  toStandsUpTo := standing
  path := fresh.path
  named := fresh.named
  staging := staging
  next := fresh.next
  waits manifest staged := by
    rw [fresh.idle] at staged
    contradiction

/-- What an opened keeper takes charge of stood before the directory was made. -/
theorem openAt_takes (admits : Admits dir name most before) (room : most + 1 < generationLimit)
    (durable : Bool) :
    Meets (openAt dir name durable) before
      (fun keeper after => after.Sound ∧ StandsUpTo dir name most after ∧
        keeper.Fresh dir name most ∧ isUsableName name = true ∧
        ∀ limit, CountsUpTo dir name limit before → CountsUpTo dir name limit after)
      fun _ _ => True := by
  rw [openAt]
  split
  · exact Meets.of_error rfl trivial
  rename_i usable
  apply Meets.bind (Meets.adapt (Meets.mono (makeDirectories_runs admits.tree admits.creatable)
    (fun _ _ holds => holds) fun _ _ _ => trivial))
  rintro _ made ⟨changes, -, isDir⟩
  have madeSound := changes.sound admits.tree
  -- Only the directory itself and what leads to it may have been missing.
  have kept {path : Path} (below : Below dir path) : ¬Missing before dir path := by
    rintro ⟨-, within, -⟩
    obtain ⟨part, rest, rfl⟩ := below_iff.mp below
    obtain ⟨more, same⟩ := Path.within_iff.mp within
    simpa using congrArg List.length same
  have children (entry : String) :
      made.binding? (dir.child entry) = before.binding? (dir.child entry) :=
    changes.entry_eq _ (kept (below_iff.mpr ⟨entry, [], rfl⟩))
  have files (entry file : String) : made.bytes? ((dir.child entry).child file) =
      before.bytes? ((dir.child entry).child file) :=
    changes.bytes?_eq admits.tree (kept (below_iff.mpr ⟨entry, [file], by simp [Path.child]⟩))
  have standing : StandsUpTo dir name most made :=
    { isDir
      noFile := fun entry number named id => by
        rw [children]
        exact admits.noFile entry number named id
      upTo := by
        rintro item ⟨entry, named, path, bound⟩
        rw [path, children, ← path] at bound
        exact admits.upTo item ⟨entry, named, path, bound⟩ }
  apply Meets.getVolumeThen
  split
  · exact Meets.of_error rfl trivial
  apply Meets.bind (Meets.mono (generationsIn_runs madeSound isDir) (fun _ _ holds => holds)
    fun _ _ _ => trivial)
  rintro found listed ⟨looked, ordered, exactly⟩
  have roomy (item : Nat × Path) (stands : Stands made dir name item) :
      item.1 + 1 < generationLimit :=
    Nat.lt_of_le_of_lt (Nat.succ_le_succ (standing.upTo item stands)) room
  obtain ⟨number, counted, -, -, least⟩ := numberAfter_above ordered exactly roomy
  rw [counted]
  refine Meets.of_ok rfl ⟨looked.sound madeSound,
    standing.of_changes looked (apart_nowhere dir name).spares, ⟨rfl, rfl, rfl, ?_⟩,
    by simpa using usable, fun limit counts => ?_⟩
  swap
  · have countsMade := counts.congr fun entry _ file _ => files entry file
    exact countsMade.of_changes madeSound looked (apart_nowhere dir name).spares
  rcases least with one | ⟨item, stands, next⟩
  · exact Nat.le_trans (Nat.le_of_eq one) (Nat.le_add_left 1 most)
  · exact Nat.le_trans (Nat.le_of_eq next) (Nat.succ_le_succ (standing.upTo item stands))

/-- What is loaded is valid and one of those that were found, whatever was refused before it. -/
theorem loadFirst_valid (volumeSound : before.Sound) (found : List (Nat × Path)) :
    Meets (loadFirst found) before
      (fun loaded after => Changes Nowhere NoFile before after ∧
        ∀ checkpoint, loaded = some checkpoint → ∃ number, (number, checkpoint.directory) ∈ found ∧
          Checkpoint.Valid before checkpoint.directory number checkpoint.manifest)
      fun _ _ => True := by
  induction found generalizing before with
  | nil => exact Meets.of_ok rfl ⟨.refl before, fun _ none => nomatch none⟩
  | cons item found ih =>
      obtain ⟨number, path⟩ := item
      have loads : Decides (load path number) before _ _ := load_decides volumeSound
      have unfolded := loadFirst_apply number path found before
      rcases loads.cases with
        ⟨checkpoint, after, result, changes, -, rfl, valid⟩ | ⟨error, after, result, changes, -⟩
      · rw [result] at unfolded
        refine Meets.of_ok unfolded ⟨changes, ?_⟩
        rintro _ ⟨⟩
        exact ⟨number, List.mem_cons_self, valid⟩
      · rw [result] at unfolded
        apply Meets.comesTo unfolded
        apply Meets.mono (ih (changes.sound volumeSound))
        · rintro loaded final ⟨more, isValid⟩
          refine ⟨changes.trans more, fun checkpoint same => ?_⟩
          obtain ⟨number, mem, valid⟩ := isValid checkpoint same
          refine ⟨number, List.mem_cons_of_mem _ mem, valid.congr fun file => ?_⟩
          exact (changes.bytes?_eq volumeSound fun nowhere => nowhere).symm
        · exact fun _ _ _ => trivial

/-- What recovery finds is valid and under the name of a generation, and nothing is left in the place
of the staging directory. -/
theorem recover_valid (volumeSound : before.Sound) (standing : StandsUpTo dir name most before)
    (path : keeper.directory = dir) (named : keeper.name = name) :
    Meets keeper.recover before
      (fun found after => Changes (Within (dir.child (stagingName name))) NoFile before after ∧
        (∀ id, after.binding? (dir.child (stagingName name)) ≠ some (.file id)) ∧
        ∀ checkpoint, found = some checkpoint → ∃ entry number,
          generationOf? name entry = some number ∧ checkpoint.directory = dir.child entry ∧
            Checkpoint.Valid after checkpoint.directory number checkpoint.manifest)
      fun _ _ => True := by
  rw [recover, stagingDirectory, generations, path, named]
  apply Meets.bind (clearDirectory_clears volumeSound .removing)
  rintro _ cleared ⟨-, changes, gone⟩
  have clearedSound := changes.sound volumeSound
  have isDir := changes.isDir (spares_staging dir name).1 standing.isDir
  apply Meets.bind (Meets.mono (generationsIn_runs clearedSound isDir) (fun _ _ holds => holds)
    fun _ _ _ => trivial)
  rintro found listed ⟨looked, -, exactly⟩
  have listedSound := looked.sound clearedSound
  apply Meets.bind (loadFirst_valid listedSound found.reverse)
  rintro loaded after ⟨more, valid⟩
  have since := looked.trans more
  have whole := changes.trans since.ofNothing
  have unbound (id : FileId) : after.binding? (dir.child (stagingName name)) ≠ some (.file id) := by
    rw [since.entry_eq _ (fun nowhere => nowhere), gone _ (Path.within_self _)]
    exact (Option.some_ne_none _).symm
  cases loaded with
  | some checkpoint =>
      refine Meets.of_ok rfl ⟨whole, unbound, ?_⟩
      rintro _ ⟨⟩
      obtain ⟨number, mem, there⟩ := valid checkpoint rfl
      obtain ⟨entry, stands, child, -⟩ := (exactly _).mp (List.mem_reverse.mp mem)
      refine ⟨entry, number, stands, child, there.congr fun file => ?_⟩
      exact more.bytes?_eq listedSound fun nowhere => nowhere
  | none =>
      dsimp only
      split
      · exact Meets.of_ok rfl ⟨whole, unbound, by rintro _ ⟨⟩⟩
      · exact Meets.of_error rfl trivial

end CheckpointKeeper

namespace Holder

variable {σ : Type} {holder : Holder dir name σ} {temper : holder.Temper} {state : σ} {spent : Nat}

/-- A set that was filled from the last checkpoint can be used from then on. -/
theorem restored_orderly {put : Fingerprint → Keeping σ Bool} {size : σ → Nat} {paths : Path → Prop}
    {limit : Nat} (puts : KeepsCalm temper paths limit put) (apart : Apart dir name paths)
    (room : spent + 2 * UInt64.size < limit) (volumeSound : before.Sound)
    (standing : StandsUpTo dir name most before)
    (fresh : (holder.keeper state).Fresh dir name most) (calm : temper.Calm spent before state) :
    Meets (holder.restored put size state) before
      (fun last after => holder.Orderly temper most (spent + 2 * UInt64.size) after last ∧
        (holder.keeper last).staged = none)
      fun _ _ => True := by
  apply Meets.bind (CheckpointKeeper.recover_valid volumeSound standing fresh.path fresh.named)
  rintro found recovered ⟨changes, staging, valid⟩
  have recoveredSound := changes.sound volumeSound
  have owned := changes.mono (fun _ => owned_staging) fun _ _ none => none
  have charge := fresh.inCharge (standing.of_changes changes (spares_staging dir name)) staging
  have calmStill := temper.steady volumeSound owned calm
  cases found with
  | none =>
      exact Meets.of_ok rfl
        ⟨⟨recoveredSound, charge, temper.mono (Nat.le_add_right _ _) calmStill⟩, fresh.idle⟩
  | some checkpoint =>
      obtain ⟨directory, manifest⟩ := checkpoint
      obtain ⟨entry, number, -, -, isValid⟩ := valid _ rfl
      obtain ⟨bytes, -, decoded⟩ := isValid.described
      have few : (listed recovered directory manifest.segments).length < UInt64.size :=
        isValid.length_listed ▸ Manifest.count_lt decoded
      let taken (current : σ) (done : List Fingerprint) (volume : Volume) : Prop :=
        holder.keeper current = holder.keeper state ∧
          temper.Calm (spent + 2 * done.length) volume current
      have steady (current : σ) (done : List Fingerprint) (first second : Volume)
          (sound : first.Sound) (looked : Changes Nowhere NoFile first second)
          (already : taken current done first) : taken current done second :=
        ⟨already.1, temper.steady sound looked.ofNothing already.2⟩
      have takes (current : σ) (done : List Fingerprint) (fp : Fingerprint)
          (rest : List Fingerprint) (middle : Volume) (sound : middle.Sound)
          (split : done ++ fp :: rest = listed recovered directory manifest.segments)
          (already : taken current done middle) :
          Keeping.Runs (put fp) current middle paths NoFile
            (fun _ last after => taken last (done ++ [fp]) after) fun _ _ => True := by
        have short : done.length < UInt64.size := by
          rw [← split, List.length_append, List.length_cons] at few
          omega
        apply (puts current _ fp middle sound already.2 (by omega)).mono
        · rintro _ last after - ⟨same, calmAfter⟩
          refine ⟨same.trans already.1, ?_⟩
          rw [List.length_append, List.length_singleton, Nat.mul_add]
          exact calmAfter
        · exact fun _ _ _ _ => trivial
      apply Meets.mono (Checkpoint.restore_meets steady takes recoveredSound isValid rfl
        ⟨rfl, calmStill⟩)
      · rintro last after ⟨more, ⟨same, calmAfter⟩, -⟩
        refine ⟨⟨more.sound recoveredSound, ?_, temper.mono (by omega) calmAfter⟩, ?_⟩
        · rw [same]
          exact charge.of_changes more apart
        · rw [same]
          exact fresh.idle
      · exact fun _ _ _ => trivial

end Holder

end FingerprintSet
