import FingerprintSet.Proofs.BoundedSet.Traffic

/-!
# A checkpoint amid calls

The segments of a set are written one after the other while fingerprints are put into all of them,
so the files of a checkpoint come from different moments.  Each file holds what its segment held
when its snapshot was taken.  That is all that the segment held when the checkpoint was begun, and
nothing that is not held in the end; and no fingerprint is in two files, because it has one segment.
-/

namespace FingerprintSet

open Storage Volume SortedFile Checkpoint

namespace BoundedSet

/-- Fingerprints, each of them once: all that there were at a first moment, and none but those that
there were at a last one. -/
structure Cut (begun held fps : List Fingerprint) : Prop where
  distinct : fps.Nodup
  all : begun ⊆ fps
  among : fps ⊆ held

theorem Cut.mono {begun held more fps : List Fingerprint} (cut : Cut begun held fps)
    (grows : held ⊆ more) : Cut begun more fps :=
  { cut with among := List.Subset.trans cut.among grows }

/-! ## The files written so far -/

/-- The files of some segments of a set that held `begun` at first and holds `held` now. -/
structure Captures (router : Router) (begun held : List Fingerprint) (parts : List Part) :
    Prop where
  routed : ∀ part ∈ parts, ∀ fp ∈ part.held, router.segment fp = part.index
  among : ∀ part ∈ parts, part.held ⊆ held
  all : ∀ part ∈ parts, ∀ fp ∈ begun, router.segment fp = part.index → fp ∈ part.held

namespace Captures

variable {router : Router} {begun held more : List Fingerprint} {parts : List Part}

theorem nil (router : Router) (begun held : List Fingerprint) : Captures router begun held [] where
  routed _ none := absurd none List.not_mem_nil
  among _ none := absurd none List.not_mem_nil
  all _ none := absurd none List.not_mem_nil

/-- What is put later changes nothing. -/
theorem mono (captures : Captures router begun held parts) (grows : held ⊆ more) :
    Captures router begun more parts :=
  { captures with among := fun part mem => List.Subset.trans (captures.among part mem) grows }

/-- One more segment is captured at a moment when it holds what was there at first. -/
theorem snoc (captures : Captures router begun held parts) {index : Nat} {taken : List Fingerprint}
    (takes : ∀ fp, fp ∈ taken ↔ fp ∈ held ∧ router.segment fp = index) (since : begun ⊆ held) :
    Captures router begun held (parts ++ [{ index, held := taken }]) where
  routed part mem fp inPart := by
    rcases List.mem_append.mp mem with old | new
    · exact captures.routed part old fp inPart
    · obtain rfl := List.mem_singleton.mp new
      exact ((takes fp).mp inPart).2
  among part mem fp inPart := by
    rcases List.mem_append.mp mem with old | new
    · exact captures.among part old inPart
    · obtain rfl := List.mem_singleton.mp new
      exact ((takes fp).mp inPart).1
  all part mem fp inBegun here := by
    rcases List.mem_append.mp mem with old | new
    · exact captures.all part old fp inBegun here
    · obtain rfl := List.mem_singleton.mp new
      exact (takes fp).mpr ⟨since inBegun, here⟩

/-- When all segments are captured, what is in the files is cut between the two moments. -/
theorem cut (captures : Captures router begun held parts)
    (distinct : (parts.map Part.index).Nodup) (ascending : ∀ part ∈ parts, Ascending part.held)
    (covers : ∀ fp, router.segment fp ∈ parts.map Part.index) :
    Cut begun held (parts.flatMap (·.held)) where
  distinct := by
    apply List.nodup_flatMap.mpr
    refine ⟨fun part mem => (ascending part mem).nodup, ?_⟩
    apply (List.pairwise_map.mp distinct).imp_of_mem
    intro first second firstIn secondIn different fp inFirst inSecond
    exact different ((captures.routed first firstIn fp inFirst).symm.trans
      (captures.routed second secondIn fp inSecond))
  all := by
    intro fp mem
    obtain ⟨part, partIn, here⟩ := List.mem_map.mp (covers fp)
    exact List.mem_flatMap.mpr ⟨part, partIn, captures.all part partIn fp mem here.symm⟩
  among := by
    intro fp mem
    obtain ⟨part, partIn, inPart⟩ := List.mem_flatMap.mp mem
    exact captures.among part partIn inPart

end Captures

/-- A checkpoint is being written; these segments are left. -/
structure Reached (dir : Path) (name : String) (latest staged : Option Generation)
    (begun held : List Fingerprint) (set : BoundedSet) (staging : Staging) (indexes : List Nat)
    (generation : Generation) (volume : Volume) : Prop where
  tree : volume.Sound
  free : ¬CheckpointKeeper.Hinders name latest staged
  keeper : set.checkpoints.Sound dir name latest none volume
  writes : ∃ tried, Writes dir name volume staging generation tried ∧
    tried ⊆ generation.parts.map Part.index
  number : generation.number = set.checkpoints.nextGeneration
  above : ∀ last, latest = some last → last.number < generation.number
  bits : generation.segmentBits < UInt32.size
  captures : Captures set.router begun held generation.parts
  left : generation.parts.map Part.index ++ indexes = List.range set.segments.size

/-- The path of a segment's file, and those of all pages. -/
def FileOrPages (dir : Path) (name : String) (index : Nat) (path : Path) : Prop :=
  At ((dir.child (stagingName name)).child (segmentFile index)) path ∨
    Within (overflowDirectory dir name) path

/-- The file of a segment is being filled since a moment at which it was not there. -/
structure Filling (dir : Path) (name : String) (index : Nat) (origin volume : Volume)
    (durable : Bool) (writer : Writer) (pushed : List Fingerprint) : Prop where
  changes : Changes (FileOrPages dir name index) NoFile origin volume
  sound : writer.Sound volume pushed
  target : writer.target = ((dir.child (stagingName name)).child (segmentFile index), .checkpoint,
    origin.contents.size, 0, durable)

/-- A call that waits on one segment. -/
def alone (index : Nat) (call : Segment.Call) : Nat → List Segment.Call :=
  Function.update (fun _ => []) index [call]

/-- What is known between two steps of a checkpoint, and the call that it has waiting then. -/
inductive Progress (dir : Path) (name : String) (latest staged : Option Generation)
    (begun held : List Fingerprint) (set : BoundedSet) (volume : Volume) :
    Stage → (Nat → List Segment.Call) → Prop
  | waiting (keeper : set.checkpoints.Sound dir name latest staged volume) :
      Progress dir name latest staged begun held set volume .waiting fun _ => []
  | between {staging : Staging} {indexes : List Nat} {generation : Generation}
      (reached : Reached dir name latest staged begun held set staging indexes generation volume) :
      Progress dir name latest staged begun held set volume (.between staging indexes) fun _ => []
  | merging {staging : Staging} {index : Nat} {indexes : List Nat} {generation : Generation}
      {job : CompactionJob}
      (reached : Reached dir name latest staged begun held set staging (index :: indexes) generation
        volume) :
      Progress dir name latest staged begun held set volume (.merging staging index indexes job)
        (alone index (.merging none job))
  | settling {staging : Staging} {index : Nat} {indexes : List Nat} {generation : Generation}
      {outcome : Except Error MergedPage}
      (reached : Reached dir name latest staged begun held set staging (index :: indexes) generation
        volume) :
      Progress dir name latest staged begun held set volume
        (.settling staging index indexes outcome)
        (alone index (.settling none outcome))
  | merged {staging : Staging} {index : Nat} {indexes : List Nat} {generation : Generation}
      (reached : Reached dir name latest staged begun held set staging (index :: indexes) generation
        volume) :
      Progress dir name latest staged begun held set volume (.merged staging index indexes)
        fun _ => []
  | reading {staging : Staging} {index : Nat} {indexes : List Nat} {generation : Generation}
      {bound : Nat} {writer : Writer} {snapshot : Merge} {origin : Volume}
      {taken pushed left : List Fingerprint} {pulls : List Pull}
      (reached : Reached dir name latest staged begun held set staging (index :: indexes) generation
        origin)
      (filling : Filling dir name index origin volume staging.durable writer pushed)
      (captures : Captures set.router begun held (generation.add { index, held := taken }).parts)
      (split : taken = pushed ++ left) (pulled : pulls.length = pushed.length)
      (enough : snapshot.remaining < bound) :
      Progress dir name latest staged begun held set volume
        (.reading staging index indexes bound writer snapshot)
        (alone index (.reading taken pulls snapshot))
  | read {staging : Staging} {index : Nat} {indexes : List Nat} {generation : Generation}
      {writer : Writer} {snapshot : Merge} {origin : Volume} {taken : List Fingerprint}
      {pulls : List Pull}
      (reached : Reached dir name latest staged begun held set staging (index :: indexes) generation
        origin)
      (filling : Filling dir name index origin volume staging.durable writer taken)
      (captures : Captures set.router begun held (generation.add { index, held := taken }).parts) :
      Progress dir name latest staged begun held set volume
        (.read staging index indexes (.ok writer))
        (alone index (.reading taken pulls snapshot))
  | refused {error : Error} (hinders : CheckpointKeeper.Hinders name latest staged)
      (keeper : set.checkpoints.Sound dir name latest staged volume) :
      Progress dir name latest staged begun held set volume (.ended (.error error)) fun _ => []
  | ended {generation : Generation} (free : ¬CheckpointKeeper.Hinders name latest staged)
      (keeper : set.checkpoints.Sound dir name latest (some generation) volume)
      (cut : Cut begun held generation.held) :
      Progress dir name latest staged begun held set volume (.ended (.ok ())) fun _ => []

variable {dir : Path} {name : String} {latest staged : Option Generation}
  {begun held more : List Fingerprint} {set last : BoundedSet} {before after : Volume}
  {staging : Staging} {indexes : List Nat} {generation : Generation}

/-- A set whose segments took steps. -/
structure Moved (set last : BoundedSet) : Prop where
  checkpoints : last.checkpoints = set.checkpoints
  router : last.router = set.router
  count : last.segments.size = set.segments.size

theorem Reached.of_changes {paths : Path → Prop}
    (reached : Reached dir name latest staged begun held set staging indexes generation before)
    (changes : Changes paths NoFile before after) (apart : Apart dir name paths) :
    Reached dir name latest staged begun held set staging indexes generation after :=
  { reached with
    tree := changes.sound reached.tree
    keeper := reached.keeper.of_changes reached.tree changes apart
    writes := by
      obtain ⟨tried, writes, known⟩ := reached.writes
      exact ⟨tried, writes.of_apart reached.tree changes apart, known⟩ }

theorem Reached.moved
    (reached : Reached dir name latest staged begun held set staging indexes generation before)
    (moved : Moved set last) (grows : held ⊆ more) :
    Reached dir name latest staged begun more last staging indexes generation before :=
  { reached with
    keeper := moved.checkpoints ▸ reached.keeper
    number := moved.checkpoints ▸ reached.number
    captures := moved.router ▸ reached.captures.mono grows
    left := moved.count ▸ reached.left }

theorem Filling.of_changes {index : Nat} {origin : Volume} {durable : Bool} {writer : Writer}
    {pushed : List Fingerprint}
    (filling : Filling dir name index origin before durable writer pushed)
    (volumeSound : before.Sound)
    (changes : Changes (Within (overflowDirectory dir name)) NoFile before after) :
    Filling dir name index origin after durable writer pushed where
  changes := filling.changes.trans (changes.mono (fun _ => Or.inr) fun _ _ none => none)
  sound := by
    apply filling.sound.of_changes volumeSound changes _ fun none => none
    have place : writer.path = (dir.child (stagingName name)).child (segmentFile index) :=
      congrArg Prod.fst filling.target
    rw [place]
    exact (apart_overflow dir name).owned _ (owned_staging (Path.within_child _ _))
  target := filling.target

theorem Filling.file_eq {index : Nat} {origin : Volume} {durable : Bool} {writer : Writer}
    {pushed : List Fingerprint}
    (filling : Filling dir name index origin before durable writer pushed) :
    writer.file = origin.contents.size :=
  congrArg (·.2.2.1) filling.target

/-- What is written to the file is written to none that was there. -/
theorem Filling.written {index : Nat} {origin : Volume} {durable : Bool} {writer : Writer}
    {pushed : List Fingerprint}
    (filling : Filling dir name index origin before durable writer pushed)
    (changes : Changes Nowhere (Only writer.file) before after) :
    Changes (FileOrPages dir name index) NoFile origin after := by
  have own : Changes (FileOrPages dir name index) origin.Fresh before after :=
    changes.mono (fun _ nowhere => nowhere.elim) fun id _ only =>
      Nat.le_of_eq (filling.file_eq.symm.trans only.symm)
  exact ((filling.changes.toFresh origin).trans own).ofFresh

/-- Steps of others leave the checkpoint where it is. -/
theorem Progress.of_call {stage : Stage} {own : Nat → List Segment.Call}
    (progress : Progress dir name latest staged begun held set before stage own)
    (volumeSound : before.Sound)
    (moved : Moved set last) (grows : held ⊆ more)
    (changes : Changes (Within (overflowDirectory dir name)) NoFile before after) :
    Progress dir name latest staged begun more last after stage own := by
  have apart := apart_overflow dir name
  cases progress with
  | waiting keeper =>
      exact .waiting (moved.checkpoints ▸ keeper.of_changes volumeSound changes apart)
  | between reached => exact .between ((reached.of_changes changes apart).moved moved grows)
  | merging reached => exact .merging ((reached.of_changes changes apart).moved moved grows)
  | settling reached => exact .settling ((reached.of_changes changes apart).moved moved grows)
  | merged reached => exact .merged ((reached.of_changes changes apart).moved moved grows)
  | reading reached filling captures split pulled enough =>
      exact .reading (reached.moved moved grows) (filling.of_changes volumeSound changes)
        (moved.router ▸ captures.mono grows) split pulled enough
  | read reached filling captures =>
      exact .read (reached.moved moved grows) (filling.of_changes volumeSound changes)
        (moved.router ▸ captures.mono grows)
  | refused hinders keeper =>
      exact .refused hinders (moved.checkpoints ▸ keeper.of_changes volumeSound changes apart)
  | ended free keeper cut =>
      exact .ended free (moved.checkpoints ▸ keeper.of_changes volumeSound changes apart)
        (cut.mono grows)

theorem Reached.inside
    {index : Nat}
    (reached : Reached dir name latest staged begun held set staging (index :: indexes) generation
      before) :
    index < set.segments.size := by
  have mem : index ∈ List.range set.segments.size :=
    reached.left ▸ List.mem_append_right _ List.mem_cons_self
  exact List.mem_range.mp mem

theorem Reached.new {index : Nat} {tried : List Nat}
    (reached : Reached dir name latest staged begun held set staging (index :: indexes) generation
      before)
    (known : tried ⊆ generation.parts.map Part.index) : index ∉ tried := by
  intro mem
  have distinct : (generation.parts.map Part.index ++ index :: indexes).Nodup :=
    reached.left ▸ List.nodup_range
  exact (List.nodup_append.mp distinct).2.2 index (known mem) index List.mem_cons_self rfl

theorem Arranged.index_lt {homes : Homes} {entries : Nat → PageId → List Fingerprint}
    (arranged : set.Arranged homes entries) {index : Nat} (inside : index < set.segments.size) :
    index < UInt64.size := by
  apply Nat.lt_of_lt_of_le inside
  rw [arranged.count]
  exact Nat.pow_le_pow_right Nat.zero_lt_two arranged.bits

/-- A segment is captured once its file is finished. -/
theorem Reached.filed {index : Nat} {origin : Volume} {durable : Bool} {writer : Writer}
    {taken : List Fingerprint} {written : Written}
    (reached : Reached dir name latest staged begun held set staging (index :: indexes) generation
      origin)
    (filling : Filling dir name index origin before durable writer taken)
    (finishing : Changes Nowhere (Only writer.file) before after)
    (stored : SortedFile.Holds after writer.path writer.kind taken writer.file)
    (describes : written.Describes writer.stride taken) (below : index < UInt64.size)
    (ascending : Ascending taken)
    (captures : Captures set.router begun held (generation.add { index, held := taken }).parts) :
    Reached dir name latest staged begun held set (staging.record index written) indexes
      (generation.add { index, held := taken }) after := by
  have whole := filling.written finishing
  obtain ⟨tried, writes, known⟩ := reached.writes
  have only (path : Path) (within : Within (dir.child (stagingName name)) path)
      (touched : FileOrPages dir name index path) :
      path = (dir.child (stagingName name)).child (segmentFile index) :=
    touched.resolve_right ((apart_overflow dir name).owned path (owned_staging within))
  have filed := writes.of_changes reached.tree (reached.new known) whole only
  have target := filling.target
  simp only [Writer.target, Prod.mk.injEq] at target
  obtain ⟨path, kind, -, stride, -⟩ := target
  rw [path, kind] at stored
  rw [stride] at describes
  have recorded := @Writes.record after dir name staging generation (index :: tried) filed
    { index, held := taken } written ⟨below, ascending⟩ ⟨_, stored⟩ describes
  have touches : Changes (Touches dir name) NoFile origin after := by
    apply whole.mono _ fun _ _ none => none
    rintro path (same | within)
    · exact Or.inl (same ▸ Path.within_child _ _)
    · exact Or.inr within
  have indexes : (generation.add { index, held := taken }).parts.map Part.index =
      generation.parts.map Part.index ++ [index] := List.map_append
  exact
    { tree := whole.sound reached.tree
      free := reached.free
      keeper := reached.keeper.spared reached.tree touches (spares_touches dir name) filed.noFile
      writes := by
        refine ⟨_, recorded, ?_⟩
        rw [indexes, List.cons_subset]
        exact
          ⟨List.mem_append_right _ List.mem_cons_self, List.subset_append_of_subset_left _ known⟩
      number := reached.number
      above := reached.above
      bits := reached.bits
      captures := captures
      left := by
        rw [indexes, List.append_assoc]
        exact reached.left }

end BoundedSet

end FingerprintSet
