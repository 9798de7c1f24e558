import FingerprintSet.Proofs.BoundedSet.Words
import FingerprintSet.Proofs.Checkpoint.Words

/-!
# Opening a bounded set in words

The words that opening a set needs beyond those of the plan are the ones that set room aside: for the
table, for what is pending and for one block of a page.  The budget bounds the first two, and the
stride alone bounds the last.  Restoring the last checkpoint is a put for each fingerprint it records.
-/

namespace FingerprintSet

open Storage Volume SortedFile Checkpoint Wordwise

variable {before after : Volume} {plan : Plan} {storage : StorageSettings}

/-! ## What a plan leaves room for -/

theorem Plan.Budgeted.copy_lt (budgeted : plan.Budgeted) :
    (plan.segmentCapacity + plan.pendingCapacity) * fingerprintBytes < UInt64.size :=
  Nat.lt_of_le_of_lt (Nat.le_trans budgeted.snapshot_le budgeted.reserve_le) budgeted.budget

theorem Plan.Budgeted.segmentCapacity_lt (budgeted : plan.Budgeted) :
    plan.segmentCapacity < UInt64.size := by
  have copy := budgeted.copy_lt
  rw [fingerprintBytes] at copy
  omega

/-- The pending set has room for a bucket beyond a page. -/
theorem Plan.Budgeted.pending_fits (budgeted : plan.Budgeted) :
    plan.pendingCapacity + plan.bucketEntries < UInt64.size := by
  have copy := budgeted.copy_lt
  have narrow := budgeted.narrow
  have size : UInt64.size = 2 ^ 64 := rfl
  rw [fingerprintBytes] at copy
  omega

/-- A set has a power of two of buckets in each segment. -/
theorem Plan.bucketsPerSegment_pow {memory : MemorySettings}
    (planned : Plan.compute memory = .ok plan) : ∃ bits, plan.bucketsPerSegment = Nat.pow 2 bits := by
  obtain ⟨accepted, reserved⟩ := Plan.withReserve_of_compute planned
  obtain ⟨-, -, -, -, -, bits, power, -⟩ := Plan.withReserve_budgeted accepted reserved
  exact ⟨bits, power⟩

/-- No operation has gone by when a segment was just created. -/
theorem Segment.create_paced (small : plan.segmentCapacity < UInt64.size) {index : Nat}
    {overflow : Path} {segment : Segment}
    (created : Segment.create index plan storage overflow before = (.ok segment, after)) :
    segment.Paced 0 := by
  obtain ⟨store, middle, made, built⟩ := exists_of_bind_ok created
  obtain rfl := PageStore.create_eq made
  obtain rfl := Except.ok.inj (Prod.mk.inj built).1
  exact
    { slots := lt_of_eq_of_lt Array.size_replicate small
      size := Nat.le_refl 0
      numbers := Nat.le_refl 0
      merges := Nat.le_refl 0 }

namespace BoundedSet

namespace Wordwise

/-- `BoundedSet.createSegments` in words. -/
def createSegments (plan : Plan) (storage : StorageSettings) (overflow : Path) :
    GuardedTask (Array Segment) := do
  let count ← GuardedTask.demand (FingerprintSet.Wordwise.segmentCount plan)
  (List.range count).foldlM (fun segments index => do
    return segments.push (← Segment.Wordwise.create index plan storage overflow)) #[]

/-- `BoundedSet.layOut` in words. -/
def layOut (plan : Plan) (storage : StorageSettings) (overflow : Path) :
    GuardedTask (Array Segment) := do
  GuardedTask.plain (CheckpointKeeper.clearDirectory .clearing overflow)
  GuardedTask.plain ((Activity.creating overflow).run (makeDirectories overflow))
  createSegments plan storage overflow

/-- Filling a set from the last checkpoint, in words. -/
def restored (set : BoundedSet) : GuardedTask BoundedSet := do
  let recovered ← GuardedTask.plain set.checkpoints.recover
  match recovered with
  | none => pure set
  | some checkpoint => GuardedTask.build set (Checkpoint.Wordwise.restore put size checkpoint)

/-- `BoundedSet.openAt` in words. -/
def openAt (settings : Settings) (seed : UInt64) (directory : Path) (name : String) :
    GuardedTask BoundedSet := do
  GuardedTask.plain (Task.ofExcept (settings.storage.validate.mapError fun error =>
    .invalidConfiguration (.settings error)))
  let plan ← GuardedTask.plain
    (Task.ofExcept ((Plan.compute settings.memory).mapError .invalidConfiguration))
  let checkpoints ← GuardedTask.plain
    (CheckpointKeeper.openAt directory name settings.storage.syncWrites)
  let overflow := overflowDirectory directory name
  let segments ← layOut plan settings.storage overflow
  restored { plan, router := routerFor plan seed, segments, checkpoints, overflow }

end Wordwise

/-! ## Laying out the segments -/

section LayOut

variable (budgeted : plan.Budgeted)
  (short : storage.pageIndexStride.toNat * entryLength < UInt64.size) (overflow : Path)

include budgeted short

theorem createSegments_agrees (before : Volume) :
    (Wordwise.createSegments plan storage overflow).Agrees (createSegments plan storage overflow)
      before := by
  apply GuardedTask.Agrees.demandThen (FingerprintSet.Wordwise.tells budgeted).segmentCount
  apply GuardedTask.Agrees.foldlM
  intro segments index before
  have creates : (Segment.Wordwise.create index plan storage overflow).Agrees
      (Segment.create index plan storage overflow) before :=
    Segment.Wordwise.create_agrees short budgeted.segmentCapacity_lt budgeted.pending_fits overflow
      before
  exact creates.bind fun segment after _ => GuardedTask.Agrees.pure _ after

theorem layOut_agrees (before : Volume) :
    (Wordwise.layOut plan storage overflow).Agrees (layOut plan storage overflow) before := by
  apply (GuardedTask.Agrees.plain _ before).bind
  intro _ cleared _
  apply (GuardedTask.Agrees.plain _ cleared).bind
  intro _ made _
  exact createSegments_agrees budgeted short overflow made

end LayOut

/-- The segments that were laid out are unused. -/
theorem layOut_paced (budgeted : plan.Budgeted) (overflow : Path) (before : Volume) :
    Meets (layOut plan storage overflow) before
      (fun segments _ => ∀ index < segments.size, (segments.getD index default).Paced 0)
      fun _ _ => True := by
  rcases laid : layOut plan storage overflow before with ⟨error | segments, after⟩
  · exact Meets.of_error laid trivial
  obtain ⟨_, cleared, -, making⟩ := exists_of_bind_ok laid
  obtain ⟨_, made, -, creating⟩ := exists_of_bind_ok making
  exact Meets.of_ok laid
    (createSegments_each (Segment.create_paced budgeted.segmentCapacity_lt) creating).2

/-! ## Putting what a checkpoint records -/

variable {dir : Path} {name : String} {set : BoundedSet} {spent used : Nat}

/-- A calm set that few operations have been made on. -/
structure Measured (dir : Path) (name : String) (spent used : Nat) (volume : Volume)
    (set : BoundedSet) : Prop where
  calm : Calm dir name spent volume set
  paced : set.Paced fun _ => used

theorem Measured.put_agrees (measured : set.Measured dir name spent used before)
    (volumeSound : before.Sound) (few : used + 1 < entryLimit) (fp : Fingerprint) :
    (Wordwise.put fp).Agrees (put fp) set before :=
  Wordwise.put_agrees measured.calm volumeSound measured.paced few fp

theorem Measured.put_runs (measured : set.Measured dir name spent used before)
    (volumeSound : before.Sound) (room : spent + 2 < numberLimit) (fp : Fingerprint) :
    Keeping.Runs (put fp) set before (Within (overflowDirectory dir name)) NoFile
      (fun _ last after => last.Measured dir name (spent + 2) (used + 1) after)
      fun last after => last.Measured dir name (spent + 2) (used + 1) after := by
  have inside : set.router.segment fp < set.segments.size := by
    obtain ⟨homes, entries, idle⟩ := measured.calm
    exact idle.segment_lt fp
  apply ((measured.calm.put_runs volumeSound room fp).leaving
    (measured.paced.put_leaves fp inside)).mono
  · exact fun _ _ _ _ ⟨⟨_, calm⟩, paced⟩ => ⟨calm, paced⟩
  · exact fun _ _ _ ⟨⟨_, calm⟩, paced⟩ => ⟨calm, paced⟩

/-- A set that is restored has gone through a put for each fingerprint of its checkpoint. -/
theorem Measured.restore_answers {directory : Path} {number : Nat} {manifest : Manifest}
    (measured : set.Measured dir name spent 0 before) (volumeSound : before.Sound)
    (valid : Checkpoint.Valid before directory number manifest) (few : manifest.count < entryLimit)
    (room : spent + 2 * entryLimit < numberLimit) :
    (GuardedTask.build set (Checkpoint.Wordwise.restore Wordwise.put size { directory, manifest })).Answers
      (Keeping.build set (Checkpoint.restore put size { directory, manifest })) before
      fun last _ => last.Paced fun _ => manifest.count := by
  let taken (current : BoundedSet) (done : List Fingerprint) (volume : Volume) : Prop :=
    current.Measured dir name (spent + 2 * done.length) done.length volume
  have outside (path : Path) (_ : Within (overflowDirectory dir name) path) : ¬Nowhere path :=
    fun nowhere => nowhere
  have steady (current : BoundedSet) (done : List Fingerprint) (first second : Volume)
      (sound : first.Sound) (looked : Changes Nowhere NoFile first second)
      (already : taken current done first) : taken current done second :=
    ⟨already.calm.of_changes sound looked outside, already.paced⟩
  have puts (current : BoundedSet) (done : List Fingerprint) (fp : Fingerprint)
      (rest : List Fingerprint) (middle : Volume) (sound : middle.Sound)
      (split : done ++ fp :: rest = listed before directory manifest.segments)
      (already : taken current done middle) :
      (Wordwise.put fp).Agrees (put fp) current middle ∧
        Keeping.Runs (put fp) current middle (Within (overflowDirectory dir name)) NoFile
          (fun _ last after => taken last (done ++ [fp]) after) fun _ _ => True := by
    have short : done.length + 1 ≤ manifest.count := by
      rw [← valid.length_listed, ← split, List.length_append, List.length_cons]
      omega
    have roomHere : spent + 2 * done.length + 2 < numberLimit := by omega
    refine ⟨already.put_agrees sound (Nat.lt_of_le_of_lt short few) fp, ?_⟩
    apply (already.put_runs sound roomHere fp).mono
    · intro _ last after _ there
      have longer : (done ++ [fp]).length = done.length + 1 := List.length_append
      show last.Measured dir name (spent + 2 * (done ++ [fp]).length) (done ++ [fp]).length after
      rw [longer, Nat.mul_add]
      exact there
    · exact fun _ _ _ _ => trivial
  constructor
  · apply GuardedTask.Agrees.build
    exact Checkpoint.restore_agrees steady puts volumeSound valid rfl measured
  · apply Meets.mono (Checkpoint.restore_meets steady (fun current done fp rest middle sound split
      already => (puts current done fp rest middle sound split already).2) volumeSound valid rfl measured)
    · rintro last after ⟨-, there, -⟩
      exact valid.length_listed ▸ there.paced
    · exact fun _ _ _ => trivial

/-- Whatever is recovered, a set that is filled from it has gone through so many puts at most. -/
theorem Measured.restored_answers {most limit : Nat} (measured : set.Measured dir name spent 0 before)
    (volumeSound : before.Sound) (standing : StandsUpTo dir name most before)
    (fresh : set.checkpoints.Fresh dir name most) (counts : CountsUpTo dir name limit before)
    (few : limit < entryLimit) (room : spent + 2 * entryLimit < numberLimit) :
    (Wordwise.restored set).Answers ((holder dir name).restored put size set) before
      fun last _ => last.Paced fun _ => limit := by
  apply GuardedTask.Answers.bind (GuardedTask.Agrees.plain _ _)
    (CheckpointKeeper.recover_valid volumeSound standing fresh.path fresh.named)
  rintro found recovered ⟨changes, -, valid⟩
  cases found with
  | none =>
      refine ⟨GuardedTask.Agrees.pure _ _, Meets.of_ok rfl ?_⟩
      exact measured.paced.mono fun _ => Nat.zero_le limit
  | some checkpoint =>
      obtain ⟨directory, manifest⟩ := checkpoint
      obtain ⟨entry, number, named, rfl, isValid⟩ := valid _ rfl
      have counted : manifest.count ≤ limit :=
        counts.of_changes volumeSound changes (spares_staging dir name) entry number manifest named
          isValid
      have there : set.Measured dir name spent 0 recovered := by
        refine ⟨measured.calm.of_changes volumeSound changes fun path within staging => ?_,
          measured.paced⟩
        exact (apart_overflow dir name).owned path (owned_staging staging) within
      obtain ⟨agrees, fills⟩ := there.restore_answers (changes.sound volumeSound) isValid
        (Nat.lt_of_le_of_lt counted few) room
      refine ⟨agrees, Meets.mono fills ?_ fun _ _ _ => trivial⟩
      exact fun last _ paced => paced.mono fun _ => counted

variable {settings : Settings} {seed : UInt64} {most limit : Nat}

/-- Opening a set comes to the same in words if a word holds the bytes of a block. -/
theorem openAt_answers (admits : Admits dir name most before) (room : most + 1 < generationLimit)
    (counts : CountsUpTo dir name limit before) (few : limit < entryLimit)
    (short : settings.storage.pageIndexStride.toNat * entryLength < UInt64.size) :
    (Wordwise.openAt settings seed dir name).Answers (openAt settings seed dir name) before
      fun set _ => set.Paced fun _ => limit := by
  rcases accepted : settings.storage.validate with error | _
  · rw [Wordwise.openAt, openAt, accepted]
    exact ⟨rfl, Meets.of_error rfl trivial⟩
  rcases planned : Plan.compute settings.memory with error | plan
  · rw [Wordwise.openAt, openAt, accepted, planned]
    exact ⟨rfl, Meets.of_error rfl trivial⟩
  have shaped := Plan.compute_shaped planned
  have budgeted := budgeted_of_compute planned
  have apart := apart_overflow dir name
  rw [openAt_eq accepted planned, Wordwise.openAt, accepted, planned]
  apply GuardedTask.Answers.bind (GuardedTask.Agrees.plain _ _)
    (CheckpointKeeper.openAt_takes admits room _)
  rintro keeper taken ⟨takenSound, standing, fresh, usable, counting⟩
  have buckets : ((routerFor plan seed).homes shaped.buckets).buckets = plan.bucketsPerSegment := rfl
  apply GuardedTask.Answers.bind (layOut_agrees budgeted short _ taken)
    ((layOut_meets takenSound standing.isDir usable accepted planned buckets).and
      (layOut_paced budgeted _ taken))
  rintro segments laid ⟨⟨laying, blank⟩, unused⟩
  have measured : Measured dir name (2 * countLimit) 0 laid
      { plan, router := routerFor plan seed, segments, checkpoints := keeper
        overflow := overflowDirectory dir name } :=
    { calm := blank.calm shaped rfl rfl rfl
      paced := ⟨Plan.bucketsPerSegment_pow planned, unused⟩ }
  exact measured.restored_answers (laying.sound takenSound) (standing.of_changes laying apart.spares)
    fresh ((counting limit counts).of_changes takenSound laying apart.spares) few (by decide)

end BoundedSet

end FingerprintSet
