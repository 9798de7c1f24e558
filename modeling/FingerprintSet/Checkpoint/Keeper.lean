import FingerprintSet.Checkpoint.Basic

/-!
# Keeping checkpoints

The keeper owns the checkpoint directories of one set.  A checkpoint comes about in two phases.
First it is written into a staging directory, which ends with its manifest.  Then the staging
directory is renamed to the directory of a new generation, and older generations are removed.
What stops before the renaming leaves only a staging directory behind, and recovery removes
that; so the last generation that got its name is what recovery finds.
-/

namespace FingerprintSet

open Storage

/-- The owner of the checkpoint directories of one set. -/
structure CheckpointKeeper where
  directory : Path
  name : String
  /-- Whether a checkpoint counts as written only once it is on the medium. -/
  durable : Bool
  /-- The number of the next generation. -/
  nextGeneration : Nat
  /-- The checkpoint that is written and not committed. -/
  staged : Option Manifest
  deriving DecidableEq, Repr, Inhabited

/-- A checkpoint being written. -/
structure Staging where
  directory : Path
  durable : Bool
  manifest : Manifest
  deriving DecidableEq, Repr, Inhabited

namespace Staging

/-- The generation the checkpoint will be. -/
def generation (staging : Staging) : Nat :=
  staging.manifest.generation

/-- Create the file of a segment. -/
def segmentWriter (staging : Staging) (index : Nat) : Task SortedFile.Writer :=
  SortedFile.Writer.create (staging.directory.child (Checkpoint.segmentFile index)) .checkpoint
    staging.durable 0

/-- Enter a finished segment file into the manifest. -/
def record (staging : Staging) (index : Nat) (written : SortedFile.Written) : Staging :=
  { staging with
    manifest := staging.manifest.record index (Checkpoint.segmentFile index) written }

end Staging

/-- Bring a directory to the medium. -/
def syncDirectory (path : Path) : Task Unit :=
  (Activity.syncingDirectory path).run do
    let _ ← openFile path
    sync

namespace CheckpointKeeper

/-- The directory in which a checkpoint is written. -/
def stagingDirectory (keeper : CheckpointKeeper) : Path :=
  keeper.directory.child (Checkpoint.stagingName keeper.name)

/-- The directory of a generation. -/
def generationDirectory (keeper : CheckpointKeeper) (generation : Nat) : Path :=
  keeper.directory.child (Checkpoint.generationName keeper.name generation)

/-- The generations that a directory holds under a name, in ascending order. -/
def generationsIn (directory : Path) (name : String) : Task (List (Nat × Path)) := do
  let entries ← (Activity.listing directory).run (listDirectory directory)
  let volume ← getThe Volume
  let found := entries.filterMap fun entry => do
    let generation ← Checkpoint.generationOf? name entry
    let path := directory.child entry
    if volume.isDirectory path then some (generation, path) else none
  pure (found.mergeSort fun a b => a.1 ≤ b.1)

/-- The generations there are, in ascending order. -/
def generations (keeper : CheckpointKeeper) : Task (List (Nat × Path)) :=
  generationsIn keeper.directory keeper.name

/-- The number behind a generation. -/
def successor (generation : Nat) : Except Error Nat :=
  if generation + 1 < Checkpoint.generationLimit then .ok (generation + 1)
  else .error (.outOfRange .generation)

/-- The number behind the last of some generations, but at least `least`. -/
def numberAfter (least : Nat) (found : List (Nat × Path)) : Except Error Nat :=
  match found.getLast? with
  | none => .ok least
  | some (latest, _) => (successor latest).map (max least ·)

/-- Take charge of the checkpoints under a name in a directory, which is created if it is not
there. -/
def openAt (directory : Path) (name : String) (durable : Bool) : Task CheckpointKeeper := do
  if !Checkpoint.isUsableName name then
    throw (.invalidConfiguration (.unusableName name))
  else
    ExceptT.adapt (fun cause => Error.invalidConfiguration (.unusableDirectory directory cause))
      (makeDirectories directory)
    if !(← getThe Volume).isDirectory directory then
      throw (.invalidConfiguration (.notADirectory directory))
    else
      let found ← generationsIn directory name
      let nextGeneration ← Task.ofExcept (numberAfter 1 found)
      pure { directory, name, durable, nextGeneration, staged := none }

/-- Remove a directory with all it holds if it is there. -/
def clearDirectory (activity : Path → Activity) (path : Path) : Task Unit := do
  if (← getThe Volume).isPresent path then
    (activity path).run (removeTree path)
  else
    pure ()

/-- Load the first of some generations that can be loaded. -/
def loadFirst : List (Nat × Path) → Task (Option Checkpoint)
  | [] => pure none
  | (generation, path) :: rest =>
      tryCatch (some <$> Checkpoint.load path generation) fun _ => loadFirst rest

/-- Remove what is staged and load the latest generation that can be loaded.  Having
generations of which none can be loaded is an error. -/
def recover (keeper : CheckpointKeeper) : Task (Option Checkpoint) := do
  clearDirectory .removing keeper.stagingDirectory
  let found ← keeper.generations
  match ← loadFirst found.reverse with
  | some checkpoint => pure (some checkpoint)
  | none =>
      if found.isEmpty then pure none
      else throw (.corrupt keeper.directory (.noneLoadable found.length keeper.name))

/-- Begin a checkpoint in an empty staging directory.  Its generation is above all there
are. -/
def beginStaging (seed : UInt64) (segmentBits : Nat) : Keeping CheckpointKeeper Staging := do
  let keeper ← get
  if keeper.staged.isSome then
    throw (.protocol .alreadyStaged)
  else
    let directory := keeper.stagingDirectory
    clearDirectory .removing directory
    ((Activity.creating directory).run (makeDirectories directory) : Task Unit)
    let found ← keeper.generations
    let next ← Keeping.ofExcept (numberAfter keeper.nextGeneration found)
    modify fun keeper => { keeper with nextGeneration := next }
    pure
      { directory
        durable := keeper.durable
        manifest := .blank next seed segmentBits }

/-- Write the manifest of a checkpoint. -/
def writeManifest (staging : Staging) : Task Unit := do
  let path := staging.directory.child Checkpoint.manifestFile
  let file ← (Activity.creating path).run (createFile path)
  (Activity.writing path).run (writeAt file 0 staging.manifest.encode.toArray)
  if staging.durable then
    (Activity.syncing path).run sync
    syncDirectory staging.directory
  else
    pure ()

/-- End the writing of a checkpoint with its manifest; it can then be committed.  The result
is the number of its fingerprints. -/
def stage (staging : Staging) : Keeping CheckpointKeeper Nat := do
  writeManifest staging
  modify fun keeper => { keeper with staged := some staging.manifest }
  pure staging.manifest.count

/-- Remove a generation, or what of it can be removed. -/
def removeGeneration (path : Path) : Task Unit :=
  ExceptT.mk fun volume => (.ok (), (removeTree path volume).2)

/-- Remove the generations below a number. -/
def removeBelow (generation : Nat) : List (Nat × Path) → Task Unit
  | [] => pure ()
  | (number, path) :: rest => do
      if number < generation then removeGeneration path else pure ()
      removeBelow generation rest

/-- Publish the staged checkpoint as a generation and remove older ones.  If it cannot be
published it stays staged. -/
def commit : Keeping CheckpointKeeper Manifest := do
  let keeper ← get
  match keeper.staged with
  | none => throw (.protocol .nothingStaged)
  | some manifest =>
      let source := keeper.stagingDirectory
      let target := keeper.generationDirectory manifest.generation
      ((Activity.publishing source target).run (rename source target) : Task Unit)
      modify fun keeper => { keeper with staged := none }
      let next ← Keeping.ofExcept (successor manifest.generation)
      modify fun keeper => { keeper with nextGeneration := next }
      if keeper.durable then
        (syncDirectory keeper.directory : Task Unit)
      let found ← keeper.generations
      (removeBelow manifest.generation found : Task Unit)
      pure manifest

/-- Whether a checkpoint waits to be committed. -/
def isStaged (keeper : CheckpointKeeper) : Bool :=
  keeper.staged.isSome

end CheckpointKeeper

end FingerprintSet
