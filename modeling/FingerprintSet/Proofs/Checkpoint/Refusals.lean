import FingerprintSet.Proofs.Checkpoint.Turns

/-!
# Commits that are cut short

A commit is a renaming and then the removal of earlier generations.  If the renaming is refused
nothing has happened, and whatever is refused later, the checkpoint is published and the keeper in
charge: some earlier generations may be left, or parts of them.
-/

namespace FingerprintSet

open Storage Volume Checkpoint

variable {before after : Volume} {dir : Path} {name : String} {most : Nat}
  {keeper : CheckpointKeeper}

namespace CheckpointKeeper

/-- Some directories right in a directory are gone with all they held, and some have lost a part of
what they held. -/
structure Thins (dir : Path) (paths : Path → Prop) (before after : Volume) : Prop where
  changes : Changes paths NoFile before after
  children : ∀ entry, after.binding? (dir.child entry) = none ∨
    after.binding? (dir.child entry) = before.binding? (dir.child entry)

namespace Thins

variable {paths : Path → Prop}

theorem refl (volume : Volume) : Thins dir paths volume volume :=
  ⟨.refl volume, fun _ => Or.inr rfl⟩

theorem of_nothing (changes : Changes Nowhere NoFile before after) : Thins dir paths before after :=
  ⟨changes.ofNothing, fun _ => Or.inr (changes.entry_eq _ fun nowhere => nowhere)⟩

theorem trans {middle : Volume} (first : Thins dir paths before middle)
    (second : Thins dir paths middle after) : Thins dir paths before after where
  changes := first.changes.trans second.changes
  children entry := by
    rcases second.children entry with gone | same
    · exact Or.inl gone
    · rw [same]
      exact first.children entry

/-- Only generations that stood are left. -/
theorem standing (thins : Thins dir paths before after) (standing : StandsUpTo dir name most before)
    (spared : ¬paths dir) : StandsUpTo dir name most after where
  isDir := thins.changes.isDir spared standing.isDir
  noFile entry number named id := by
    rcases thins.children entry with gone | same
    · rw [gone]
      exact (Option.some_ne_none _).symm
    · rw [same]
      exact standing.noFile entry number named id
  upTo := by
    rintro item ⟨entry, named, path, bound⟩
    rcases thins.children entry with gone | same
    · rw [path, gone] at bound
      contradiction
    · rw [path, same, ← path] at bound
      exact standing.upTo item ⟨entry, named, path, bound⟩

end Thins

/-- However the removal of a generation ends, its directory is gone or is there still. -/
theorem removeGeneration_thins (volumeSound : before.Sound) (entry : String) :
    Meets (removeGeneration (dir.child entry)) before
      (fun _ after => Thins dir (Within (dir.child entry)) before after) fun _ _ => False := by
  have unfolded : removeGeneration (dir.child entry) before =
      (.ok (), (removeTree (dir.child entry) before).2) := rfl
  have thins {after : Volume} (changes : Changes (Within (dir.child entry)) NoFile before after)
      (here : after.binding? (dir.child entry) = none ∨
        after.binding? (dir.child entry) = before.binding? (dir.child entry)) :
      Thins dir (Within (dir.child entry)) before after := by
    refine ⟨changes, fun other => ?_⟩
    by_cases same : other = entry
    · exact same ▸ here
    · refine Or.inr (changes.entry_eq _ fun within => ?_)
      have apart := Path.not_within_sibling same (Path.within_self (dir.child other))
      rw [Within, apart] at within
      contradiction
  by_cases bound : before.binding? (dir.child entry) = some .directory
  · rcases (removeTree_meets volumeSound bound).cases with
      ⟨_, after, result, changes, gone⟩ | ⟨_, after, result, changes, -⟩
    · refine Meets.of_ok (unfolded.trans (by rw [result])) (thins changes (Or.inl ?_))
      exact gone _ (Path.within_self _)
    · have kept := changes.entry_eq _ (not_below_self (dir.child entry))
      refine Meets.of_ok (unfolded.trans (by rw [result])) (thins ?_ (Or.inr kept))
      exact changes.mono (fun _ => Below.within) fun _ _ none => none
  · have fails : Meets (removeTree (dir.child entry)) before _ _ :=
      removeTree_fails (Path.child_ne_nil dir entry) bound
    rcases fails.cases with ⟨_, _, _, impossible⟩ | ⟨_, _, result, rfl⟩
    · exact impossible.elim
    · exact Meets.of_ok (unfolded.trans (by rw [result])) (.of_nothing (changes_ticked before))

theorem removeBelow_thins (volumeSound : before.Sound) (number : Nat) {found : List (Nat × Path)}
    {paths : Path → Prop} (children : ∀ item ∈ found, ∃ entry, item.2 = dir.child entry)
    (inside : ∀ item ∈ found, item.1 < number → ∀ path, Within item.2 path → paths path) :
    Meets (removeBelow number found) before (fun _ after => Thins dir paths before after)
      fun _ _ => False := by
  induction found generalizing before with
  | nil => exact Meets.of_ok rfl (.refl before)
  | cons item found ih =>
      rw [List.forall_mem_cons] at children inside
      have rest {middle : Volume} (first : Thins dir paths before middle) :
          Meets (removeBelow number found) middle (fun _ after => Thins dir paths before after)
            fun _ _ => False :=
        Meets.mono (ih (first.changes.sound volumeSound) children.2 inside.2)
          (fun _ _ more => first.trans more) fun _ _ impossible => impossible
      rw [removeBelow]
      split
      · rename_i below
        obtain ⟨entry, child⟩ := children.1
        rw [child]
        apply Meets.bind (removeGeneration_thins volumeSound entry)
        intro _ middle thins
        refine rest ⟨thins.changes.mono (fun path within => ?_) fun _ _ none => none, thins.children⟩
        exact inside.1 below path (child ▸ within)
      · exact rest (.refl before)

/-- From the renaming on the keeper is in charge of what was published. -/
theorem Renamed.thins_ends {manifest : Manifest} {middle : Volume}
    (renamed : Renamed dir name most manifest before middle)
    (charge : keeper.InCharge dir name most before) (low : manifest.generation ≤ most + 1) :
    Keeping.Ends (do
      let found ← (keeper.generations : Task (List (Nat × Path)))
      (removeBelow manifest.generation found : Task Unit)
      pure manifest : Keeping CheckpointKeeper Manifest)
      { keeper with staged := none, nextGeneration := manifest.generation + 1 } middle
      fun _ final after => Changes (Owned dir name) NoFile before after ∧
        final.InCharge dir name (most + 1) after := by
  have leaves {after : Volume}
      (thins : Thins dir (Earlier middle dir name manifest.generation) middle after) :
      Changes (Owned dir name) NoFile before after ∧ InCharge dir name (most + 1) after
        { keeper with staged := none, nextGeneration := manifest.generation + 1 } := by
    have owned := thins.changes.mono (fun _ => owned_earlier) fun _ _ none => none
    refine ⟨renamed.changes.trans owned, renamed.inCharge charge low thins.changes ?_⟩
    exact thins.standing renamed.standing dir_not_earlier
  have lists : keeper.generations = generationsIn dir name := by
    rw [generations, charge.path, charge.named]
  rw [lists]
  apply Keeping.Ends.liftThen
    (Meets.mono (generationsIn_runs renamed.tree renamed.standing.isDir) (fun _ _ holds => holds) _)
  swap
  · exact fun _ _ holds => leaves (.of_nothing holds.1)
  rintro found listed ⟨looked, -, exactly⟩
  have spares := (apart_nowhere dir name).spares
  have children : ∀ item ∈ found, ∃ entry, item.2 = dir.child entry := by
    intro item mem
    obtain ⟨entry, -, same, -⟩ := (exactly item).mp mem
    exact ⟨entry, same⟩
  have inside : ∀ item ∈ found, item.1 < manifest.generation → ∀ path, Within item.2 path →
      Earlier middle dir name manifest.generation path :=
    fun item mem below path within => ⟨item, (exactly item).mp mem, below, within⟩
  apply Keeping.Ends.liftThen (Meets.mono (removeBelow_thins (looked.sound renamed.tree)
    manifest.generation children inside) (fun _ _ holds => holds) _)
  swap
  · exact fun _ _ impossible => impossible.elim
  rintro _ after thins
  exact Keeping.Ends.of_eq rfl (leaves ((Thins.of_nothing looked).trans thins))

/-- Whatever a commit is refused, it leaves a keeper in charge and touches nothing that is not the
keeper's. -/
theorem InCharge.commit_leaves (charge : keeper.InCharge dir name most before)
    (volumeSound : before.Sound) (room : most + 2 < generationLimit) :
    Keeping.Ends commit keeper before fun _ final after =>
      Changes (Owned dir name) NoFile before after ∧ final.InCharge dir name (most + 1) after := by
  have unchanged {after : Volume} (changes : Changes Nowhere NoFile before after) :
      Changes (Owned dir name) NoFile before after ∧ keeper.InCharge dir name (most + 1) after :=
    ⟨changes.ofNothing, (charge.of_changes changes (apart_nowhere dir name)).mono (Nat.le_succ _)⟩
  cases staged : keeper.staged with
  | none => exact Keeping.Ends.of_eq (commit_idle staged before) (unchanged (.refl before))
  | some manifest =>
      have low := charge.staged_le staged
      apply charge.commit_goes volumeSound staged room
      · exact fun _ _ => unchanged (changes_ticked before)
      · exact fun _ _ changes _ => unchanged changes
      · intro _ after renamed _
        exact ⟨renamed.changes, renamed.inCharge charge low (.refl after) renamed.standing⟩
      · exact fun _ renamed => renamed.thins_ends charge low

end CheckpointKeeper

namespace Holder

variable {σ : Type} {holder : Holder dir name σ} {temper : holder.Temper} {state : σ} {spent : Nat}

/-- A set is orderly after a commit, whatever was refused. -/
theorem commit_orderly (orderly : holder.Orderly temper most spent before state)
    (room : most + 2 < generationLimit) :
    Keeping.Ends holder.commit state before fun _ final after =>
      holder.Orderly temper (most + 1) spent after final := by
  have commits := orderly.charge.commit_leaves orderly.tree room
  rw [Keeping.Ends] at commits
  refine Keeping.Ends.of_eq (holder.commit_apply state before) ?_
  exact orderly.reseat commits.1 commits.2

end Holder

end FingerprintSet
