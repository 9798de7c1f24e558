import FingerprintSet.Proofs.OpenSet.Origin

/-!
# Checkpoints are canonical

Two sets write the same segment files if they share the same fingerprints among the same number of
segments.  How they came to hold them is not to be seen in the files: neither the order in which the
fingerprints were put, nor how often, nor what else was asked and committed in between, nor the
buckets, pages and merges of either set.
-/

namespace FingerprintSet

open Storage Volume SortedFile Checkpoint

namespace OpenSet

/-! ## Checkpoints that wait -/

/-- Whether a checkpoint waits to be committed after a command, if one does or does not before it. -/
def Command.waits (waiting : Bool) : Command → Bool
  | beginCheckpoint => true
  | commitCheckpoint => false
  | _ => waiting

theorem Notes.take_waits (notes : Notes) (command : Command) :
    (notes.take command).staged.isSome = command.waits notes.staged.isSome := by
  cases command <;> rfl

/-- A checkpoint is noted after some commands just when they say so. -/
theorem Notes.foldl_waits (notes : Notes) (commands : List Command) :
    (commands.foldl take notes).staged.isSome = commands.foldl Command.waits notes.staged.isSome :=
  (List.foldl_hom (fun notes : Notes => notes.staged.isSome)
    fun notes command => (notes.take_waits command).symm).symm

/-! ## Runs -/

/-- A set is opened after others were in the same directory, and asked for this and that. -/
structure Run where
  site : Site
  lives : List Life
  settings : Settings
  seed : UInt64
  commands : List Command

namespace Run

/-- The fingerprints of the checkpoint that the set is opened with. -/
def restored (run : Run) : List Fingerprint :=
  (run.site.history run.lives).1

/-- Open the set. -/
def opened (run : Run) : Except Error OpenSet × Volume :=
  openAt run.settings run.seed run.site.directory run.site.name (run.site.history run.lives).2

/-- The set when all was asked, or any if it could not be opened. -/
def used (run : Run) : Session × Volume :=
  match run.opened with
  | (.ok set, opened) => Session.run run.commands (.restored run.restored set) opened
  | (.error _, opened) => (default, opened)

/-- The fingerprints that were restored and put. -/
def held (run : Run) : List Fingerprint :=
  Command.puts run.commands ++ run.restored

/-- Begin a checkpoint then. -/
def begun (run : Run) : (Except Error Unit × OpenSet) × Volume :=
  beginCheckpoint run.used.1.set run.used.2

/-- The bytes of a file of that checkpoint, if it is there. -/
def bytes? (run : Run) (file : String) : Option Bytes :=
  run.begun.2.bytes? ((run.site.directory.child (stagingName run.site.name)).child file)

/-- A run without refused steps at whose end a checkpoint can be begun: the settings and the names are
in order, there are numbers for all checkpoints, and each that was begun has been committed. -/
structure Lawful (run : Run) : Prop where
  quiet : run.site.volume.Quiet
  opens : ∀ life ∈ run.lives, Opens life.settings run.site.name
  opensNow : Opens run.settings run.site.name
  few : (sorted (Life.puts run.lives)).length < UInt64.size
  allowed : Commits run.site.name (Life.commits run.lives + run.commands.count .commitCheckpoint)
  settled : run.commands.foldl Command.waits false = false

variable {run : Run}

/-- The set is in use, holds what was restored and put, and is still what it was opened as. -/
theorem Lawful.used_sound (lawful : run.Lawful) : ∃ latest,
    run.used.1.set.Sound run.site.directory run.site.name latest none (sorted run.held) run.used.2 ∧
      (∀ last, latest = some last → last.number + 1 < generationLimit) ∧
      run.used.1.set.origin = (run.seed, run.settings.segmentBits) := by
  have room : Life.commits run.lives + 1 < generationLimit :=
    Nat.lt_of_le_of_lt (Nat.succ_le_succ (Nat.le_add_right _ _)) lawful.allowed.room
  obtain ⟨set, opened, _, result, sound⟩ :=
    run.site.restored_sound lawful.quiet lawful.opens room lawful.few run.seed lawful.opensNow
  have used : run.used = Session.run run.commands (.restored run.restored set) opened := by
    rw [Run.used, Run.opened, result]
  obtain ⟨latest, staged, later⟩ :=
    sound.restored_follows.run lawful.allowed run.commands (Nat.le_refl _)
  have idle : staged.isSome = false := calc
    staged.isSome
    _ = _ := later.waits.symm
    _ = _ := congrArg (·.staged.isSome) later.noted
    _ = run.commands.foldl Command.waits false := Notes.foldl_waits _ _
    _ = false := lawful.settled
  obtain rfl : staged = none := by simpa using idle
  have held : sorted run.used.1.held = sorted run.held := by
    apply sorted_congr
    intro fp
    rw [used, Session.run_held, Run.held, List.mem_append, List.mem_append, List.mem_reverse]
    rfl
  have opening := openAt_origin lawful.opensNow result
  have origin : (Session.run run.commands (.restored run.restored set) opened).1.set.origin = _ :=
    Session.run_origin opening run.commands opened
  rw [used] at held ⊢
  exact ⟨latest, held ▸ later.set,
    fun last same => Nat.lt_of_le_of_lt (Nat.succ_le_succ (later.number last same)) lawful.allowed.room,
    origin⟩

end Run

/-! ## Canonical checkpoints -/

/-- A checkpoint was begun whose files hold what belongs in them, in ascending order, and whose
manifest lists them in order. -/
structure Run.Canonical (run : Run) : Prop where
  begun : run.begun.1.1 = .ok ()
  files : ∀ index < Nat.pow 2 run.settings.segmentBits, run.bytes? (segmentFile index) =
    some (fileBytes .checkpoint (shareOf run.settings.segmentBits run.held index).held)
  manifest : ∃ number, run.bytes? manifestFile = some
    (Manifest.encode
      { formatVersion := SortedFile.formatVersion.toNat
        generation := number
        seed := run.seed
        segmentBits := run.settings.segmentBits
        count := (sorted run.held).length
        segments := (List.range (Nat.pow 2 run.settings.segmentBits)).map fun index =>
          let fps := (shareOf run.settings.segmentBits run.held index).held
          { index, file := segmentFile index, count := fps.length
            checksum := Fnv.checksum fps } }).toArray

/-- What a checkpoint of some number that is begun then is made of. -/
def Run.generation (run : Run) (number : Nat) : Generation where
  number := number
  seed := run.seed
  segmentBits := run.settings.segmentBits
  parts := sharesOf run.settings.segmentBits run.held

/-- A checkpoint can be begun, and all its files are there then. -/
theorem Run.Lawful.begins {run : Run} (lawful : run.Lawful) :
    run.begun.1.1 = .ok () ∧ ∃ number, (run.generation number).Complete run.begun.2
      (run.site.directory.child (stagingName run.site.name)) := by
  obtain ⟨latest, sound, room, origin⟩ := lawful.used_sound
  obtain ⟨seed, bits⟩ := Prod.mk.inj origin
  have shares : sharesOf run.settings.segmentBits (sorted run.held) =
      sharesOf run.settings.segmentBits run.held := sharesOf_congr fun _ => mem_sorted
  have writes := beginCheckpoint_writes sound
  rw [Keeping.Ends, seed, bits, shares] at writes
  obtain ⟨-, -, wrote⟩ := writes
  rw [Run.begun]
  rcases ended : beginCheckpoint run.used.1.set run.used.2 with ⟨⟨error | _, last⟩, after⟩ <;>
    rw [ended] at wrote
  · obtain ⟨busy | unfit | ⟨last, same, most⟩, -⟩ := wrote
    · exact absurd rfl busy
    · exact absurd lawful.allowed.staging unfit
    · exact absurd (room last same) most
  · obtain ⟨-, number, keeps⟩ := wrote
    obtain ⟨-, complete⟩ := keeps.keeper.inStaging _ rfl
    exact ⟨rfl, number, complete⟩

theorem Run.Lawful.canonical {run : Run} (lawful : run.Lawful) : run.Canonical := by
  obtain ⟨begun, number, complete⟩ := lawful.begins
  refine ⟨begun, fun index inside => ?_, number, ?_⟩
  · have mem : shareOf run.settings.segmentBits run.held index ∈
        sharesOf run.settings.segmentBits run.held :=
      List.mem_map_of_mem (List.mem_range.mpr inside)
    have there := bytes?_of_stored (complete.parts _ mem)
    rw [Run.bytes?]
    exact there
  · have whole : ((run.generation number).held).Perm (sorted run.held) := sharesOf_perm _ _
    refine (bytes?_manifestFile complete).trans ?_
    rw [Generation.manifest, ← Generation.length_held, whole.length_eq, generation, sharesOf,
      List.map_map]
    rfl

/-- Two runs that end with the same fingerprints, shared among the same number of segments, write the
same bytes to the file of each segment, whatever else differs: the order and the number of the puts,
what was asked and committed in between, the seeds, the budgets and buckets, how pages are stored, and
also the directories and the sets that were there before.  The file of a segment holds the
fingerprints whose top bits form its number, in ascending order, and the manifest lists the files of
all segments in order with their counts and checksums.  A set that is all in memory writes the one
file that a set with no segment bits writes. -/
theorem checkpoints_canonical {first second : Run} (firstLawful : first.Lawful)
    (secondLawful : second.Lawful) (sameBits : first.settings.segmentBits = second.settings.segmentBits)
    (same : ∀ fp, fp ∈ first.held ↔ fp ∈ second.held) :
    first.Canonical ∧ second.Canonical ∧
      ∀ index < Nat.pow 2 first.settings.segmentBits,
        first.bytes? (segmentFile index) = second.bytes? (segmentFile index) := by
  have one := firstLawful.canonical
  have two := secondLawful.canonical
  refine ⟨one, two, fun index inside => ?_⟩
  calc first.bytes? (segmentFile index)
    _ = some (fileBytes .checkpoint (shareOf first.settings.segmentBits first.held index).held) :=
        one.files index inside
    _ = some (fileBytes .checkpoint (shareOf second.settings.segmentBits second.held index).held) := by
        rw [sameBits, shareOf_congr same]
    _ = second.bytes? (segmentFile index) := (two.files index (sameBits ▸ inside)).symm

/-- A set whose buckets hold one fingerprint each commits a checkpoint between its puts. -/
def committingRun : Run where
  site := .root
  lives := []
  settings := tightSettings
  seed := 7
  commands :=
    [.put 3, .put 70, .beginCheckpoint, .put 3, .commitCheckpoint, .put 0x8000000000000001]

/-- The same fingerprints are put into wider buckets, backwards and one of them twice. -/
def backwardRun : Run where
  site := .root
  lives := []
  settings := BoundedSet.spreadSettings
  seed := 1
  commands := [.put 0x8000000000000001, .put 70, .leastDistance, .put 3, .put 70]

theorem committingRun_lawful : committingRun.Lawful where
  quiet _ _ := rfl
  opens := List.forall_mem_nil _
  opensNow := tightSettings_opens
  few := by decide +kernel
  allowed := commits_of_short (by decide) (by decide) (by decide)
  settled := rfl

theorem backwardRun_lawful : backwardRun.Lawful where
  quiet _ _ := rfl
  opens := List.forall_mem_nil _
  opensNow := ⟨BoundedSet.spreadPlan, by decide, ⟨by decide, by decide⟩, rfl,
    BoundedSet.compute_spread, by decide, by decide⟩
  few := by decide +kernel
  allowed := commits_of_short (by decide) (by decide) (by decide)
  settled := rfl

/-- Both runs write the same two files. -/
theorem checkpoints_canonical_backward :
    committingRun.Lawful ∧ backwardRun.Lawful ∧
      committingRun.settings.segmentBits = backwardRun.settings.segmentBits ∧
      (∀ fp, fp ∈ committingRun.held ↔ fp ∈ backwardRun.held) ∧
      committingRun.begun.1.1 = .ok () ∧ backwardRun.begun.1.1 = .ok () ∧
      committingRun.bytes? (segmentFile 0) = some (fileBytes .checkpoint [3, 70]) ∧
      backwardRun.bytes? (segmentFile 0) = some (fileBytes .checkpoint [3, 70]) ∧
      committingRun.bytes? (segmentFile 1) = backwardRun.bytes? (segmentFile 1) := by
  have sameBits : committingRun.settings.segmentBits = backwardRun.settings.segmentBits := rfl
  have same (fp : Fingerprint) : fp ∈ committingRun.held ↔ fp ∈ backwardRun.held := by
    have first : committingRun.held = [3, 70, 3, 0x8000000000000001] := rfl
    have second : backwardRun.held = [0x8000000000000001, 70, 3, 70] := rfl
    rw [first, second]
    simp only [List.mem_cons]
    tauto
  obtain ⟨first, second, files⟩ :=
    checkpoints_canonical committingRun_lawful backwardRun_lawful sameBits same
  have zero : committingRun.bytes? (segmentFile 0) = some (fileBytes .checkpoint [3, 70]) := by
    have share : (shareOf 1 [3, 70, 3, 0x8000000000000001] 0).held = [3, 70] := by
      decide +kernel
    exact (first.files 0 (by decide)).trans (congrArg (some ∘ fileBytes .checkpoint) share)
  exact ⟨committingRun_lawful, backwardRun_lawful, sameBits, same, first.begun, second.begun, zero,
    (files 0 (by decide)).symm.trans zero, files 1 (by decide)⟩

end OpenSet

end FingerprintSet
