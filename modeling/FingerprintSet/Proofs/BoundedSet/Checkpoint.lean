import Mathlib.Data.List.Perm.Basic
import FingerprintSet.Proofs.BoundedSet.Contents
import FingerprintSet.Proofs.Checkpoint.Around
import FingerprintSet.Proofs.Checkpoint.Canonical

/-!
# Checkpoints of a bounded set

A checkpoint of a bounded set has a file for each segment.  Merging the pages of a segment
before its file is written moves fingerprints inside the segment only, so the files together
hold what the set held when the checkpoint was begun.  The pages are in a directory of their
own, apart from all checkpoints.
-/

namespace FingerprintSet

open Storage Volume SortedFile Checkpoint

namespace BoundedSet

/-! ## The directory of all pages -/

theorem overflowDirectory_eq (dir : Path) (name : String) :
    overflowDirectory dir name = dir.child (name ++ ".overflow") := rfl

theorem stem_ne_overflow (name suffix : String) : stem name ++ suffix ≠ name ++ ".overflow" := by
  intro same
  have letters := congrArg String.toList same
  rw [stem, String.toList_append, String.toList_append, String.toList_append,
    List.append_assoc, List.append_cancel_left_eq] at letters
  have second := congrArg (fun letters : List Char => letters.take 2) letters
  simp at second

/-- Pages have nothing to do with checkpoints. -/
theorem apart_overflow (dir : Path) (name : String) :
    Apart dir name (Within (overflowDirectory dir name)) where
  directory within := by
    obtain ⟨rest, same⟩ := Path.within_iff.mp within
    simpa [overflowDirectory_eq, Path.child] using congrArg List.length same
  owned path owned within := by
    obtain ⟨suffix, owns⟩ := owned
    rw [overflowDirectory_eq, Within, Path.not_within_sibling (stem_ne_overflow name suffix) owns]
      at within
    contradiction

/-! ## Segments one by one -/

variable {set last : BoundedSet} {homes : Homes} {before after : Volume}
  {entries others : Nat → PageId → List Fingerprint} {index : Nat}

/-- The directories of the segments are in one that is there. -/
theorem Arranged.overflow_isDirectory {dir : Path} {name : String}
    (arranged : set.Arranged homes entries) (volumeSound : before.Sound)
    (place : set.overflow = overflowDirectory dir name)
    (isDir : ∀ index < set.segments.size, before.IsDir (set.segmentAt index).store.directory) :
    before.binding? (overflowDirectory dir name) = some .directory := by
  have first : 0 < set.segments.size := arranged.count ▸ Nat.pow_pos Nat.zero_lt_two
  have there := isDir 0 first
  rw [arranged.placed 0 first, place] at there
  exact (isDir_of_child volumeSound there).resolve_left (Path.child_ne_nil dir _)

/-- A set whose segments moved fingerprints inside themselves only. -/
structure Rearranged (homes : Homes) (volume : Volume)
    (entries others : Nat → PageId → List Fingerprint) (set last : BoundedSet) : Prop where
  sound : last.Sound homes volume others
  same : set.SameButSegments last
  count : last.segments.size = set.segments.size
  held : ∀ index, ((last.segmentAt index).all (others index)).Perm
    ((set.segmentAt index).all (entries index))

namespace Rearranged

theorem refl (sound : set.Sound homes before entries) :
    Rearranged homes before entries entries set set where
  sound := sound
  same := rfl
  count := rfl
  held _ := List.Perm.refl _

theorem trans {final : BoundedSet} {more : Nat → PageId → List Fingerprint}
    (first : Rearranged homes before entries others set last)
    (second : Rearranged homes after others more last final) :
    Rearranged homes after entries more set final where
  sound := second.sound
  same := by
    have firstSame := first.same
    have secondSame := second.same
    rw [SameButSegments] at firstSame secondSame ⊢
    rw [secondSame, firstSame]
  count := second.count.trans first.count
  held index := (second.held index).trans (first.held index)

theorem of_changes (rearranged : Rearranged homes before entries others set last)
    (volumeSound : before.Sound) {paths : Path → Prop} (changes : Changes paths NoFile before after)
    (outside : ∀ path, Within last.overflow path → ¬paths path) :
    Rearranged homes after entries others set last :=
  { rearranged with sound := rearranged.sound.of_changes volumeSound changes outside }

theorem overflow (rearranged : Rearranged homes before entries others set last) :
    last.overflow = set.overflow := by
  have same := rearranged.same
  rw [SameButSegments] at same
  rw [same]

/-- All in all nothing moved. -/
theorem contents (rearranged : Rearranged homes before entries others set last) :
    (last.contents others).Perm (set.contents entries) := by
  rw [BoundedSet.contents, BoundedSet.contents, rearranged.count]
  exact List.Perm.flatMap_left _ fun index _ => rearranged.held index

end Rearranged

theorem putSegment_self (set : BoundedSet) (index : Nat) :
    set.putSegment index (set.segmentAt index) = set := by
  have same : set.segments.setIfInBounds index (set.segmentAt index) = set.segments := by
    apply Array.ext
    · exact Array.size_setIfInBounds
    · intro other _ inside
      rw [Array.getElem_setIfInBounds]
      split
      · rename_i here
        subst here
        simp [segmentAt, Array.getD_eq_getD_getElem?, inside]
      · rfl
  have unfolded : set.putSegment index (set.segmentAt index) =
      { set with segments := set.segments.setIfInBounds index (set.segmentAt index) } := rfl
  rw [unfolded, same]

theorem compactSegment_runs (volumeSound : before.Sound) (sound : set.Sound homes before entries)
    (inside : index < set.segments.size) :
    Keeping.Runs (onSegment index Segment.compact) set before (Within set.overflow) NoFile
      (fun _ last after => ∃ others, Rearranged homes after entries others set last)
      fun _ _ => True := by
  have merges := (Segment.compact_runs volumeSound (sound.rests index inside)).mono
    (fun _ _ _ changes gains => And.intro changes gains) fun _ _ _ falters => falters
  have pages (path : Path) (mem : (set.segmentAt index).Pages path) : Within set.overflow path :=
    (sound.pages_below inside path mem).within
  apply ((onSegment_runs merges).widen pages fun _ _ none => none).mono
  · rintro _ _ after - ⟨segment, rfl, changes, others, rests, becomes⟩
    refine ⟨given entries index others, ?_⟩
    exact
      { sound := sound.replaced volumeSound inside changes rests becomes
          fun _ mem => absurd mem List.not_mem_nil
        same := rfl
        count := size_putSegment index segment set
        held := by
          intro other
          rw [all_putSegment inside]
          split
          · rename_i same
            exact same ▸ becomes.holds
          · exact List.Perm.refl _ }
  · exact fun _ _ _ _ => trivial

/-- A scan with a sink that ends well leaves the set as it was. -/
theorem scanSegment_runs {σ : Type} {sink : σ → Fingerprint → Task σ} {giveUp : σ → Task Unit}
    {state : σ} {paths : Path → Prop} {files : FileId → Prop} {good : σ → Volume → Prop}
    (volumeSound : before.Sound)
    (sound : (set.segmentAt index).Sound homes before (entries index))
    (folds : ∀ (snapshot : Merge) middle, Changes Nowhere NoFile before middle →
      snapshot.Streams middle (Behind before (set.segmentAt index).store.pages)
        (sorted ((set.segmentAt index).all (entries index))) →
      Storage.Runs (snapshot.fold sink giveUp state) middle paths files good)
    (givesUp : ∀ middle, Changes Nowhere NoFile before middle →
      Storage.Runs (giveUp state) middle paths files fun _ _ => True) :
    Keeping.Runs (onSegment index (Segment.scan sink giveUp state)) set before paths files
      (fun result last after => last = set ∧ good result after) fun _ _ => True := by
  have scans := Segment.scan_runs volumeSound sound folds givesUp
  apply (onSegment_runs scans).mono
  · rintro result _ after - ⟨_, rfl, rfl, holds⟩
    exact ⟨putSegment_self set index, holds⟩
  · exact fun _ _ _ _ => trivial

/-! ## Writing the files -/

/-- What the file of a segment holds. -/
def part (entries : Nat → PageId → List Fingerprint) (set : BoundedSet) (index : Nat) : Part where
  index := index
  held := sorted ((set.segmentAt index).all (entries index))

/-- Only the directory being written and those of the pages. -/
def Touches (dir : Path) (name : String) (path : Path) : Prop :=
  Within (dir.child (stagingName name)) path ∨ Within (overflowDirectory dir name) path

/-- The files of the first segments are written, and no others were tried. -/
def Staged (dir : Path) (name : String) (homes : Homes)
    (entries : Nat → PageId → List Fingerprint) (set : BoundedSet) (start : Generation)
    (count : Nat) (staging : Staging) (last : BoundedSet) (volume : Volume) : Prop :=
  ∃ others tried, Rearranged homes volume entries others set last ∧
    Writes dir name volume staging
      { start with parts := (List.range count).map (part entries set) } tried ∧
    ∀ index ∈ tried, index < count

variable {dir : Path} {name : String} {start : Generation} {staging : Staging} {count : Nat}

theorem part_eq (rearranged : Rearranged homes before entries others set last) (index : Nat) :
    part others last index = part entries set index := by
  rw [part, part, sorted_congr fun _ => (rearranged.held index).mem_iff]

/-- A segment is written to a file that was not there when its pages were. -/
theorem pushSegment_runs {paths : Path → Prop} {writer : Writer} (volumeSound : before.Sound)
    (sound : (set.segmentAt index).Sound homes before (entries index))
    (changes : Changes paths NoFile before after)
    (outside : ∀ path, Within (set.segmentAt index).store.directory path → ¬paths path)
    (taken : writer.Sound after [])
    (file : writer.file = before.contents.size) :
    Keeping.Runs (onSegment index (Segment.scan Writer.push Writer.abandon writer)) set after Nowhere
      (Only writer.file)
      (fun filled last final => last = set ∧
        filled.Sound final (sorted ((set.segmentAt index).all (entries index))) ∧
          filled.target = writer.target) fun _ _ => True := by
  have afterSound := changes.sound volumeSound
  have soundStill := sound.of_changes volumeSound changes outside
  have takenStill (middle : Volume) (more : Changes Nowhere NoFile after middle) :
      writer.Sound middle [] :=
    taken.of_changes afterSound more (fun nowhere => nowhere) fun none => none
  have foreign (id : FileId) (behind : Behind after (set.segmentAt index).store.pages id) :
      ¬Only writer.file id := by
    obtain ⟨page, mem, bound⟩ := behind
    have within : Within (set.segmentAt index).store.directory page.path := by
      rw [sound.store.placed page mem]
      exact (Segment.pagePath_below _ _).within
    rw [changes.entry_eq _ (outside _ within)] at bound
    intro same
    exact Nat.ne_of_lt (volumeSound.stored _ _ bound) (same.trans file)
  apply scanSegment_runs afterSound soundStill
  · intro snapshot middle more streams
    have pushes :=
      Merge.fold_push_runs (more.sound afterSound) (takenStill middle more) streams foreign
    rw [List.nil_append] at pushes
    exact pushes
  · intro middle more
    exact Writer.abandon_runs ((more.sound afterSound).stored _ _ (takenStill middle more).bound)

/-- The pages of a segment are merged and then its file is written. -/
theorem stageSegment_runs (volumeSound : before.Sound)
    (overflow : set.overflow = overflowDirectory dir name)
    (staged : Staged dir name homes entries set start count staging last before)
    (inside : count < set.segments.size) (below : set.segments.size ≤ UInt64.size) :
    Keeping.Runs (stageSegment staging count) last before (Touches dir name) NoFile
      (fun staged last after => Staged dir name homes entries set start (count + 1) staged last after)
      fun _ _ => True := by
  obtain ⟨others, tried, rearranged, writes, triedBelow⟩ := staged
  have place : last.overflow = overflowDirectory dir name := rearranged.overflow.trans overflow
  have here : count < last.segments.size := rearranged.count.symm ▸ inside
  have merges := compactSegment_runs volumeSound rearranged.sound here
  rw [place] at merges
  have noting := merges.mono (fun _ _ _ changes holds => And.intro changes holds)
    fun _ _ _ holds => holds
  apply Keeping.Runs.bind (noting.widen (fun _ => Or.inr) fun _ _ none => none)
  rintro _ merged mergedVolume - ⟨changes, more, mergedRearranged⟩
  have mergedSound := changes.sound volumeSound
  have since := rearranged.trans mergedRearranged
  have mergedPlace : merged.overflow = overflowDirectory dir name := since.overflow.trans overflow
  have there : count < merged.segments.size := since.count.symm ▸ inside
  have stillWrites := writes.of_apart volumeSound changes (apart_overflow dir name)
  have new : count ∉ tried := fun mem => Nat.lt_irrefl _ (triedBelow count mem)
  have elsewhere (path : Path) (within : Within merged.overflow path) :
      ¬At ((dir.child (stagingName name)).child (segmentFile count)) path := by
    rintro rfl
    rw [mergedPlace] at within
    exact (apart_overflow dir name).owned _ (owned_staging (Path.within_child _ _)) within
  have files := fileSegment_runs stillWrites mergedSound new (Nat.lt_of_lt_of_le inside below)
    (sorted_ascending _) fun writer created _ changes taken file =>
      pushSegment_runs mergedSound (since.sound.rests count there).sound changes
        (fun path within => elsewhere path (since.sound.within_overflow there within)) taken file
  have within (path : Path)
      (same : At ((dir.child (stagingName name)).child (segmentFile count)) path) :
      Touches dir name path :=
    Or.inl (same ▸ Path.within_child _ _)
  have recording := files.mono (fun _ _ _ changes holds => And.intro changes holds)
    fun _ _ _ holds => holds
  apply (recording.widen within fun _ _ none => none).mono
  · rintro recorded merged final - ⟨filed, rfl, recordedWrites⟩
    refine ⟨more, count :: tried, since.of_changes mergedSound filed elsewhere, ?_, ?_⟩
    · have parts : (List.range (count + 1)).map (part entries set) =
          (List.range count).map (part entries set) ++ [part more merged count] := by
        rw [List.range_succ, List.map_append, List.map_singleton, part_eq since]
      rw [parts]
      exact recordedWrites
    · rw [List.forall_mem_cons]
      exact ⟨Nat.lt_succ_self _, fun index mem => Nat.lt_succ_of_lt (triedBelow index mem)⟩
  · exact fun _ _ _ _ => trivial

/-- All segments are written. -/
theorem stageSegments_runs (volumeSound : before.Sound)
    (overflow : set.overflow = overflowDirectory dir name) (sound : set.Sound homes before entries)
    (below : set.segments.size ≤ UInt64.size) (writes : Writes dir name before staging start [])
    (blank : start.parts = []) :
    Keeping.Runs ((List.range set.segments.size).foldlM stageSegment staging) set before
      (Touches dir name) NoFile
      (fun staged last after =>
        Staged dir name homes entries set start set.segments.size staged last after)
      fun _ _ => True := by
  have none : { start with parts := (List.range 0).map (part entries set) } = start := by
    rw [List.range_zero, List.map_nil, ← blank]
  have begun : Staged dir name homes entries set start 0 staging set before :=
    ⟨entries, [], .refl sound, none.symm ▸ writes, by simp⟩
  apply Keeping.Runs.foldRange (Staged dir name homes entries set start) begun
  intro index inside staging last after changes staged
  exact stageSegment_runs (changes.sound volumeSound) overflow staged inside below

/-! ## The set around its keeper -/

/-- A set with its pages beside the checkpoints of its name. -/
def HoldsUnder (dir : Path) (name : String) (volume : Volume) (held : List Fingerprint)
    (set : BoundedSet) : Prop :=
  set.Holds volume held ∧ set.overflow = overflowDirectory dir name ∧
    set.plan.segmentBits = set.router.segmentBits

/-- A bounded set as a holder of fingerprints. -/
def holder (dir : Path) (name : String) : Holder dir name BoundedSet where
  keeper set := set.checkpoints
  seat checkpoints set := { set with checkpoints }
  Holds := HoldsUnder dir name
  keeper_seat _ _ := rfl
  seat_seat _ _ _ := rfl
  seat_keeper _ := rfl
  holds_perm := by
    rintro volume held other set same ⟨⟨homes, entries, sound, perm⟩, place⟩
    exact ⟨⟨homes, entries, sound, perm.trans same⟩, place⟩
  holds_seat := by
    rintro volume held set other ⟨⟨homes, entries, sound, perm⟩, place⟩
    exact ⟨⟨homes, entries, { sound with }, perm⟩, place⟩
  steady := by
    rintro before after held set volumeSound changes ⟨holds, place, bits⟩
    refine ⟨holds.of_changes volumeSound changes fun path within owned => ?_, place, bits⟩
    exact (apart_overflow dir name).owned path owned (place ▸ within)

theorem spares_touches (dir : Path) (name : String) : Spares dir name (Touches dir name) :=
  (spares_staging dir name).or (apart_overflow dir name).spares

variable {held : List Fingerprint} {latest staged : Option Generation}

/-- The files hold what belongs in them. -/
theorem Sound.parts_eq (sound : set.Sound homes before entries)
    (perm : (set.contents entries).Perm held) :
    (List.range set.segments.size).map (part entries set) =
      sharesOf set.router.segmentBits held := by
  rw [sharesOf, ← sound.count]
  refine List.map_congr_left fun index inside => ?_
  have routed := sound.routed index (List.mem_range.mp inside)
  have members (fp : Fingerprint) : fp ∈ (part entries set index).held ↔
      fp ∈ (shareOf set.router.segmentBits held index).held := by
    rw [part, mem_sorted, mem_shareOf, ← perm.mem_iff, sound.mem_contents_iff]
    constructor
    · intro mem
      rw [routed fp mem]
      exact ⟨mem, routed fp mem⟩
    · rintro ⟨mem, here⟩
      have same : set.router.segment fp = index := here
      rw [← same]
      exact mem
  exact congrArg (Part.mk index) ((sorted_ascending _).ext (shareOf_ascending _ _ _) members)

/-- All files are written, with what belongs in them. -/
theorem staged_fills {keeper : CheckpointKeeper} (volumeSound : before.Sound)
    (holds : HoldsUnder dir name before held set) (same : set.checkpoints = keeper)
    (blank : start.parts = []) (writes : Writes dir name before staging start []) :
    Keeping.Runs ((List.range set.segments.size).foldlM stageSegment staging) set before
      (Touches dir name) NoFile
      ((holder dir name).Fills held keeper start (sharesOf set.plan.segmentBits held))
      fun _ _ => True := by
  obtain ⟨⟨homes, entries, sound, perm⟩, place, bits⟩ := holds
  have below : set.segments.size ≤ UInt64.size := by
    rw [sound.count]
    exact Nat.pow_le_pow_right Nat.zero_lt_two sound.bits
  apply (stageSegments_runs volumeSound place sound below writes blank).mono
  · rintro filled last after - ⟨others, tried, rearranged, written, -⟩
    have sameParts := rearranged.same
    rw [SameButSegments] at sameParts
    rw [sound.parts_eq perm, ← bits] at written
    refine ⟨?_, ⟨⟨homes, others, rearranged.sound, rearranged.contents.trans perm⟩, ?_, ?_⟩,
      tried, written⟩
    · rw [sameParts]
      exact same
    · exact rearranged.overflow.trans place
    · rw [sameParts]
      exact bits
  · exact fun _ _ _ _ => trivial

theorem beginCheckpoint_apply (dir : Path) (name : String) (set : BoundedSet) (before : Volume) :
    beginCheckpoint set before =
      (holder dir name).begin set.seed set.plan.segmentBits
        (fun staging => (List.range set.segments.size).foldlM stageSegment staging) set before :=
  rfl

/-- Beginning a checkpoint writes what the set holds, or there is a reason not to. -/
theorem beginCheckpoint_ends (quiet : before.Quiet) (volumeSound : before.Sound)
    (keeps : (holder dir name).Keeps latest staged held before set) :
    Keeping.Ends beginCheckpoint set before fun result final after =>
      Changes (Touches dir name) NoFile before after ∧
        (holder dir name).Wrote set.seed set.plan.segmentBits
          (sharesOf set.plan.segmentBits held) latest staged held result final after := by
  obtain ⟨⟨homes, entries, sound, -⟩, -, bits⟩ := keeps.holds
  have fit : set.plan.segmentBits < UInt32.size := by
    rw [bits]
    exact Nat.lt_of_le_of_lt sound.bits (by decide)
  apply Keeping.Ends.comesTo (beginCheckpoint_apply dir name set before)
  apply Holder.begin_ends quiet volumeSound keeps fit (spares_touches dir name) fun _ => Or.inl
  intro staging after start afterSound holds blank writes
  exact staged_fills afterSound holds rfl blank writes

/-- Committing publishes what was written, or there is a reason not to. -/
theorem commitCheckpoint_ends (quiet : before.Quiet) (volumeSound : before.Sound)
    (keeps : (holder dir name).Keeps latest staged held before set) :
    Keeping.Ends commitCheckpoint set before fun result final after =>
      Changes (Owned dir name) NoFile before after ∧
        (holder dir name).Committed latest staged held result final after :=
  Holder.commit_ends quiet volumeSound keeps

/-- Putting takes a fingerprint in and changes only pages. -/
theorem puts (dir : Path) (name : String) :
    (holder dir name).Puts (Within (overflowDirectory dir name)) put := by
  rintro set held fp before volumeSound ⟨holds, place, bits⟩
  have pages (path : Path) (below : Below set.overflow path) :
      Within (overflowDirectory dir name) path := place ▸ below.within
  apply ((put_runs volumeSound holds fp).widen pages fun _ _ none => none).mono
  · rintro answer last after - ⟨decides, same, lastHolds⟩
    rw [SameButSegments] at same
    refine ⟨decides, by rw [same]; rfl, lastHolds, ?_, ?_⟩
    · rw [same]
      exact place
    · rw [same]
      exact bits
  · exact fun _ _ _ _ => trivial

/-- A membership test answers whether the fingerprint is held. -/
theorem contains_ends (quiet : before.Quiet) (volumeSound : before.Sound)
    (keeps : (holder dir name).Keeps latest staged held before set) (fp : Fingerprint) :
    Keeping.Ends (contains fp) set before fun result final after =>
      Changes (Within (overflowDirectory dir name)) NoFile before after ∧
        result = .ok (decide (fp ∈ held)) ∧
        (holder dir name).Keeps latest staged held after final := by
  obtain ⟨holds, place, bits⟩ := keeps.holds
  apply Keeping.Ends.of_runs (contains_runs volumeSound holds fp)
  · rintro answer final after changes ⟨decides, same, finalHolds⟩
    obtain rfl : answer = decide (fp ∈ held) := Bool.eq_iff_iff.mpr (by simpa using decides)
    rw [SameButSegments] at same
    have pages : Changes (Within (overflowDirectory dir name)) NoFile before after :=
      changes.mono (fun _ below => place ▸ below.within) fun _ _ none => none
    refine ⟨pages, rfl, keeps.of_changes volumeSound pages (apart_overflow dir name) ?_ ?_⟩
    · rw [same]
      rfl
    · refine ⟨finalHolds, ?_, ?_⟩
      · rw [same]
        exact place
      · rw [same]
        exact bits
  · exact fun _ _ _ _ _ refused => absurd quiet refused

end BoundedSet

end FingerprintSet
