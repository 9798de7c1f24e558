import FingerprintSet.BoundedSet
import FingerprintSet.Proofs.Segment.Whole
import FingerprintSet.Proofs.Total

/-!
# What a bounded set holds

The router splits the fingerprints among the segments, so a set holds a fingerprint when the one
segment that it is routed to does.  Segments keep their pages apart, and an operation on one of
them leaves the others as they were.
-/

namespace FingerprintSet

open Storage Volume

/-! ## Routing -/

namespace Router

variable {router : Router}

/-- Every fingerprint has a segment. -/
theorem segment_lt (bits : router.segmentBits ≤ 64) (fp : Fingerprint) :
    router.segment fp < Nat.pow 2 router.segmentBits := by
  have small : fp.toNat < Nat.pow 2 (64 - router.segmentBits) * Nat.pow 2 router.segmentBits := by
    have exponents : 64 - router.segmentBits + router.segmentBits = 64 := Nat.sub_add_cancel bits
    show fp.toNat < 2 ^ (64 - router.segmentBits) * 2 ^ router.segmentBits
    rw [← Nat.pow_add, exponents]
    exact fp.toNat_lt
  exact Nat.div_lt_of_lt_mul small

/-- Segments cover the fingerprints in order. -/
theorem segment_mono {first second : Fingerprint} (ordered : first ≤ second) :
    router.segment first ≤ router.segment second :=
  Nat.div_le_div_right (UInt64.le_iff_toNat_le.mp ordered)

/-- The buckets that a router sends fingerprints to. -/
def homes (router : Router) (positive : 0 < router.buckets) : Homes where
  buckets := router.buckets
  home := router.bucket
  inside _ := Nat.mod_lt _ positive

end Router

namespace BoundedSet

/-! ## Segments in their places -/

/-- The segment in a place. -/
def segmentAt (set : BoundedSet) (index : Nat) : Segment :=
  set.segments.getD index default

@[simp]
theorem size_putSegment (index : Nat) (segment : Segment) (set : BoundedSet) :
    (set.putSegment index segment).segments.size = set.segments.size :=
  Array.size_setIfInBounds

theorem segmentAt_putSegment {index : Nat} (segment : Segment) {set : BoundedSet}
    (inside : index < set.segments.size) (other : Nat) :
    (set.putSegment index segment).segmentAt other =
      if other = index then segment else set.segmentAt other := by
  have there : (set.putSegment index segment).segmentAt other =
      (set.segments.setIfInBounds index segment).getD other default := rfl
  rw [there, segmentAt, Array.getD_eq_getD_getElem?, Array.getD_eq_getD_getElem?,
    Array.getElem?_setIfInBounds]
  by_cases same : other = index
  · rw [if_pos same.symm, if_pos inside, if_pos same]
    rfl
  · rw [if_neg (Ne.symm same), if_neg same]

theorem putSegment_putSegment (index : Nat) (first second : Segment) (set : BoundedSet) :
    (set.putSegment index first).putSegment index second = set.putSegment index second := by
  have twice : (set.segments.setIfInBounds index first).setIfInBounds index second =
      set.segments.setIfInBounds index second :=
    Array.setIfInBounds_setIfInBounds first
  have unfolded : (set.putSegment index first).putSegment index second =
      { set with
        segments := (set.segments.setIfInBounds index first).setIfInBounds index second } := rfl
  rw [unfolded, twice]
  rfl

theorem segments_toList (set : BoundedSet) :
    set.segments.toList = (List.range set.segments.size).map set.segmentAt := by
  apply List.ext_getElem
  · simp
  · intro index inside _
    have bound : index < set.segments.size := by simpa using inside
    simp [segmentAt, Array.getD_eq_getD_getElem?, bound]

variable {set : BoundedSet} {homes : Homes} {before : Volume}
  {entries : Nat → PageId → List Fingerprint} {index : Nat}

/-- Work on a segment leaves the other parts of the set alone. -/
theorem onSegment_runs {α : Type} {work : Keeping Segment α} {paths : Path → Prop}
    {files : FileId → Prop} {good : α → Segment → Volume → Prop} {bad : Segment → Volume → Prop}
    (runs : Keeping.Runs work (set.segmentAt index) before paths files good bad) :
    Keeping.Runs (onSegment index work) set before paths files
      (fun a last after => ∃ segment, last = set.putSegment index segment ∧ good a segment after)
      fun last after => ∃ segment, last = set.putSegment index segment ∧ bad segment after := by
  have parts : Keeping.Runs (Keeping.onPart (·.segmentAt index) (putSegment index) work) set before
      paths files _ _ := Keeping.Runs.onPart runs
  apply parts.mono
  · rintro a last after _ ⟨segment, same, holds⟩
    exact ⟨segment, same.trans (putSegment_putSegment index _ segment set), holds⟩
  · rintro last after _ ⟨segment, same, holds⟩
    exact ⟨segment, same.trans (putSegment_putSegment index _ segment set), holds⟩

/-! ## Sound sets -/

/-- All fingerprints of a set, segment by segment. -/
def contents (entries : Nat → PageId → List Fingerprint) (set : BoundedSet) : List Fingerprint :=
  (List.range set.segments.size).flatMap fun index => (set.segmentAt index).all (entries index)

/-- Every segment has a directory of its own and holds what is routed to it only. -/
structure Arranged (homes : Homes) (entries : Nat → PageId → List Fingerprint) (set : BoundedSet) :
    Prop where
  bits : set.router.segmentBits ≤ 64
  home : homes.home = set.router.bucket
  count : set.segments.size = Nat.pow 2 set.router.segmentBits
  placed : ∀ index < set.segments.size,
    (set.segmentAt index).store.directory = set.overflow.child (Segment.directoryName index)
  routed : ∀ index < set.segments.size, ∀ fp ∈ (set.segmentAt index).all (entries index),
    set.router.segment fp = index

/-- All segments of an arranged set are at rest. -/
structure Sound (homes : Homes) (volume : Volume) (entries : Nat → PageId → List Fingerprint)
    (set : BoundedSet) : Prop extends Arranged homes entries set where
  rests : ∀ index < set.segments.size, (set.segmentAt index).Rests homes volume (entries index)

/-- The lists that the page numbers of a segment stand for, in place of others. -/
def given (entries : Nat → PageId → List Fingerprint) (index : Nat)
    (others : PageId → List Fingerprint) : Nat → PageId → List Fingerprint :=
  fun other => if other = index then others else entries other

theorem all_putSegment (inside : index < set.segments.size) (segment : Segment)
    (others : PageId → List Fingerprint) (other : Nat) :
    ((set.putSegment index segment).segmentAt other).all (given entries index others other) =
      if other = index then segment.all others else (set.segmentAt other).all (entries other) := by
  rw [segmentAt_putSegment segment inside, given]
  split <;> rfl

namespace Arranged

theorem segment_lt (arranged : set.Arranged homes entries) (fp : Fingerprint) :
    set.router.segment fp < set.segments.size :=
  arranged.count ▸ Router.segment_lt arranged.bits fp

/-- A set holds what the segment it is routed to holds. -/
theorem mem_contents_iff (arranged : set.Arranged homes entries) {fp : Fingerprint} :
    fp ∈ set.contents entries ↔
      fp ∈ (set.segmentAt (set.router.segment fp)).all (entries (set.router.segment fp)) := by
  rw [contents, List.mem_flatMap]
  constructor
  · rintro ⟨index, inside, mem⟩
    rw [arranged.routed index (List.mem_range.mp inside) fp mem]
    exact mem
  · intro mem
    exact ⟨_, List.mem_range.mpr (arranged.segment_lt fp), mem⟩

/-- No fingerprint is in two segments, so none is held twice if no segment holds it twice. -/
theorem nodup_contents (arranged : set.Arranged homes entries)
    (distinct : ∀ index < set.segments.size, ((set.segmentAt index).all (entries index)).Nodup) :
    (set.contents entries).Nodup := by
  apply List.pairwise_flatMap.mpr
  constructor
  · exact fun index inside => distinct index (List.mem_range.mp inside)
  · apply List.Pairwise.imp_of_mem _ List.nodup_range
    rintro first second firstIn secondIn different fp mem _ other rfl
    apply different
    rw [← arranged.routed first (List.mem_range.mp firstIn) fp mem,
      ← arranged.routed second (List.mem_range.mp secondIn) fp other]

/-- What lies in the directory of one segment lies in no other. -/
theorem apart (arranged : set.Arranged homes entries) {first second : Nat} {path : Path}
    (firstIn : first < set.segments.size) (secondIn : second < set.segments.size)
    (different : first ≠ second)
    (within : Within (set.segmentAt first).store.directory path) :
    ¬Within (set.segmentAt second).store.directory path := by
  rw [arranged.placed first firstIn] at within
  rw [arranged.placed second secondIn]
  intro other
  have names : Segment.directoryName first ≠ Segment.directoryName second :=
    fun same => different (Segment.directoryName_inj.mp same)
  rw [Within, Path.not_within_sibling names within] at other
  contradiction

theorem within_overflow (arranged : set.Arranged homes entries) (inside : index < set.segments.size)
    {path : Path} (within : Within (set.segmentAt index).store.directory path) :
    Within set.overflow path := by
  rw [arranged.placed index inside] at within
  exact Path.within_trans (Path.within_child _ _) within

theorem pages_below (arranged : set.Arranged homes entries) (inside : index < set.segments.size)
    (path : Path) (mem : (set.segmentAt index).Pages path) : Below set.overflow path := by
  rw [Segment.Pages, arranged.placed index inside] at mem
  obtain ⟨name, rest, rfl⟩ := below_iff.mp mem
  exact below_iff.mpr ⟨Segment.directoryName index, name :: rest, by simp [Path.child]⟩

/-- A segment that gained fingerprints routed to it fits in among the others. -/
theorem replaced (arranged : set.Arranged homes entries) (inside : index < set.segments.size)
    {gained : List Fingerprint} {segment : Segment} {others : PageId → List Fingerprint}
    (directory : segment.store.directory = (set.segmentAt index).store.directory)
    (holds : ∀ fp ∈ segment.all others,
      fp ∈ (set.segmentAt index).all (entries index) ∨ fp ∈ gained)
    (routed : ∀ fp ∈ gained, set.router.segment fp = index) :
    (set.putSegment index segment).Arranged homes (given entries index others) where
  bits := arranged.bits
  home := arranged.home
  count := (size_putSegment index segment set).trans arranged.count
  placed := by
    intro other otherIn
    rw [size_putSegment] at otherIn
    rw [segmentAt_putSegment segment inside]
    by_cases same : other = index
    · rw [if_pos same, same, directory]
      exact arranged.placed index inside
    · rw [if_neg same]
      exact arranged.placed other otherIn
  routed := by
    intro other otherIn fp mem
    rw [size_putSegment] at otherIn
    rw [all_putSegment inside] at mem
    by_cases same : other = index
    · rw [if_pos same] at mem
      rw [same]
      exact (holds fp mem).elim (arranged.routed index inside fp) (routed fp)
    · rw [if_neg same] at mem
      exact arranged.routed other otherIn fp mem

end Arranged

namespace Sound

/-- No fingerprint is held twice. -/
theorem nodup_contents (sound : set.Sound homes before entries) : (set.contents entries).Nodup :=
  sound.toArranged.nodup_contents fun index inside => (sound.rests index inside).sound.distinct

/-- The size counts all fingerprints. -/
theorem size_eq (sound : set.Sound homes before entries) :
    set.size = (set.contents entries).length := by
  rw [size, segments_toList, total_map, contents, length_flatMap]
  exact total_congr fun index mem => (sound.rests index (List.mem_range.mp mem)).sound.counted

/-- Work outside the directory of all pages leaves the set sound. -/
theorem of_changes (sound : set.Sound homes before entries) (volumeSound : before.Sound)
    {paths : Path → Prop} {after : Volume} (changes : Changes paths NoFile before after)
    (outside : ∀ path, Within set.overflow path → ¬paths path) : set.Sound homes after entries :=
  { sound with
    rests := by
      intro index inside
      apply (sound.rests index inside).of_changes volumeSound changes
      exact fun path within => outside path (sound.within_overflow inside within) }

end Sound

/-- A list joined together with one of its pieces grown. -/
theorem flatMap_grown {indexes : List Nat} {first second : Nat → List Fingerprint}
    {gained : List Fingerprint} (distinct : indexes.Nodup) (mem : index ∈ indexes)
    (grown : (second index).Perm (gained ++ first index))
    (same : ∀ other, other ≠ index → second other = first other) :
    (indexes.flatMap second).Perm (gained ++ indexes.flatMap first) := by
  induction indexes with
  | nil => contradiction
  | cons other indexes ih =>
      rw [List.nodup_cons] at distinct
      rw [List.flatMap_cons, List.flatMap_cons]
      by_cases here : other = index
      · subst here
        have rest : indexes.flatMap second = indexes.flatMap first := by
          rw [List.flatMap, List.flatMap]
          congr 1
          apply List.map_congr_left
          exact fun another inRest => same another fun equal => distinct.1 (equal ▸ inRest)
        rw [rest, ← List.append_assoc]
        exact grown.append_right _
      · have later := ih distinct.2 ((List.mem_cons.mp mem).resolve_left (Ne.symm here))
        rw [same other here]
        exact (later.append_left _).trans (List.perm_append_comm_assoc _ _ _)

/-- The set holds given fingerprints, each of them once. -/
def Holds (volume : Volume) (held : List Fingerprint) (set : BoundedSet) : Prop :=
  ∃ homes entries, set.Sound homes volume entries ∧ (set.contents entries).Perm held

/-- The set with other segments. -/
def SameButSegments (set last : BoundedSet) : Prop :=
  last = { set with segments := last.segments }

/-- A segment that gained fingerprints routed to it stands among the others. -/
theorem Sound.replaced (sound : set.Sound homes before entries) (volumeSound : before.Sound)
    (inside : index < set.segments.size) {after : Volume}
    (changes : Changes (set.segmentAt index).Pages NoFile before after)
    {gained : List Fingerprint} {segment : Segment} {others : PageId → List Fingerprint}
    (rests : segment.Rests homes after others)
    (becomes : Segment.Becomes homes after (entries index) (set.segmentAt index) gained others segment)
    (routed : ∀ fp ∈ gained, set.router.segment fp = index) :
    (set.putSegment index segment).Sound homes after (given entries index others) where
  toArranged := by
    apply sound.toArranged.replaced inside becomes.directory _ routed
    intro fp mem
    rw [becomes.holds.mem_iff, List.mem_append] at mem
    exact mem.symm
  rests := by
    intro other otherIn
    rw [size_putSegment] at otherIn
    rw [segmentAt_putSegment segment inside, given]
    by_cases same : other = index
    · rw [if_pos same, if_pos same]
      exact rests
    · rw [if_neg same, if_neg same]
      apply (sound.rests other otherIn).of_changes volumeSound changes
      intro path within below
      exact sound.apart otherIn inside same within below.within

/-- A segment that gained fingerprints routed to it makes its set gain them. -/
theorem Sound.gained (sound : set.Sound homes before entries) (volumeSound : before.Sound)
    (inside : index < set.segments.size) {after : Volume}
    (changes : Changes (set.segmentAt index).Pages NoFile before after)
    {gained : List Fingerprint} {segment : Segment}
    (gains : (set.segmentAt index).Gains homes after (entries index) gained segment)
    (routed : ∀ fp ∈ gained, set.router.segment fp = index) :
    (set.putSegment index segment).Holds after (gained ++ set.contents entries) := by
  obtain ⟨others, rests, becomes⟩ := gains
  refine ⟨homes, given entries index others,
    sound.replaced volumeSound inside changes rests becomes routed, ?_⟩
  rw [contents, size_putSegment]
  apply flatMap_grown List.nodup_range (List.mem_range.mpr inside)
  · rw [all_putSegment inside, if_pos rfl]
    exact becomes.holds
  · intro other different
    rw [all_putSegment inside, if_neg different]

theorem Holds.of_changes {held : List Fingerprint} (holds : set.Holds before held)
    (volumeSound : before.Sound) {paths : Path → Prop} {after : Volume}
    (changes : Changes paths NoFile before after)
    (outside : ∀ path, Within set.overflow path → ¬paths path) : set.Holds after held := by
  obtain ⟨homes, entries, sound, perm⟩ := holds
  exact ⟨homes, entries, sound.of_changes volumeSound changes outside, perm⟩

theorem sameButSegments_putSegment (index : Nat) (segment : Segment) (set : BoundedSet) :
    set.SameButSegments (set.putSegment index segment) :=
  rfl

/-! ## Operations -/

variable {held : List Fingerprint}

/-- What work on the segment of a fingerprint says about the whole set. -/
theorem routed_runs (volumeSound : before.Sound) (sound : set.Sound homes before entries)
    {fp : Fingerprint} {work : Keeping Segment Bool} {gained : Bool → List Fingerprint}
    (only : ∀ answer, ∀ other ∈ gained answer, other = fp)
    (runs : Keeping.Runs work (set.segmentAt (set.router.segment fp)) before
      (set.segmentAt (set.router.segment fp)).Pages NoFile
      (fun answer last after =>
        (answer = true ↔ fp ∈ (set.segmentAt (set.router.segment fp)).all
          (entries (set.router.segment fp))) ∧
        Segment.Gains homes after (entries (set.router.segment fp))
          (set.segmentAt (set.router.segment fp)) (gained answer) last) fun _ _ => True) :
    Keeping.Runs (onSegment (set.router.segment fp) work) set before (Below set.overflow) NoFile
      (fun answer last after => (answer = true ↔ fp ∈ set.contents entries) ∧
        set.SameButSegments last ∧ last.Holds after (gained answer ++ set.contents entries))
      fun _ _ => True := by
  have inside := sound.segment_lt fp
  have noting := runs.mono (fun _ _ _ changes holds => And.intro changes holds) fun _ _ _ holds => holds
  apply ((onSegment_runs noting).widen (sound.pages_below inside) fun _ _ none => none).mono
  · rintro answer _ after _ ⟨segment, rfl, changes, decides, gains⟩
    refine ⟨decides.trans sound.mem_contents_iff.symm, sameButSegments_putSegment .., ?_⟩
    apply sound.gained volumeSound inside changes gains
    intro other mem
    rw [only answer other mem]
  · exact fun _ _ _ _ => trivial

/-- A put answers whether the fingerprint was held, and then it is held. -/
theorem put_runs (volumeSound : before.Sound) (holds : set.Holds before held) (fp : Fingerprint) :
    Keeping.Runs (put fp) set before (Below set.overflow) NoFile
      (fun answer last after => (answer = true ↔ fp ∈ held) ∧ set.SameButSegments last ∧
        last.Holds after (if answer then held else fp :: held)) fun _ _ => True := by
  obtain ⟨homes, entries, sound, perm⟩ := holds
  have puts := (Segment.put_runs volumeSound (sound.rests _ (sound.segment_lt fp)) fp).mono
    (fun _ _ _ _ holds => holds) fun _ _ _ _ => trivial
  rw [sound.home] at puts
  have only (answer : Bool) (other : Fingerprint) (mem : other ∈ if answer then [] else [fp]) :
      other = fp := by
    cases answer with
    | true => exact absurd mem List.not_mem_nil
    | false => exact List.mem_singleton.mp mem
  apply Keeping.Runs.getThen
  apply (routed_runs volumeSound sound only puts).mono
  · rintro answer last after _ ⟨decides, same, homes, others, lastSound, lastPerm⟩
    refine ⟨decides.trans perm.mem_iff, same, homes, others, lastSound, ?_⟩
    cases answer with
    | true => exact lastPerm.trans perm
    | false => exact lastPerm.trans (perm.cons fp)
  · exact fun _ _ _ _ => trivial

/-- A membership test answers whether the fingerprint is held. -/
theorem contains_runs (volumeSound : before.Sound) (holds : set.Holds before held)
    (fp : Fingerprint) :
    Keeping.Runs (contains fp) set before (Below set.overflow) NoFile
      (fun answer last after => (answer = true ↔ fp ∈ held) ∧ set.SameButSegments last ∧
        last.Holds after held) fun _ _ => True := by
  obtain ⟨homes, entries, sound, perm⟩ := holds
  have looks := Segment.contains_rests volumeSound (sound.rests _ (sound.segment_lt fp)) fp
  rw [sound.home] at looks
  have only (answer : Bool) (other : Fingerprint) (mem : other ∈ (fun _ : Bool => []) answer) :
      other = fp := absurd mem List.not_mem_nil
  apply Keeping.Runs.getThen
  apply (routed_runs volumeSound sound only looks).mono
  · rintro answer last after _ ⟨decides, same, homes, others, lastSound, lastPerm⟩
    exact ⟨decides.trans perm.mem_iff, same, homes, others, lastSound, lastPerm.trans perm⟩
  · exact fun _ _ _ _ => trivial

/-- The size of a set is the number of its fingerprints. -/
theorem Holds.size_eq (holds : set.Holds before held) : set.size = held.length := by
  obtain ⟨homes, entries, sound, perm⟩ := holds
  rw [sound.size_eq, perm.length_eq]

end BoundedSet

end FingerprintSet
