import Std.Data.TreeMap
import FingerprintSet.Word
import FingerprintSet.Storage.Path
import FingerprintSet.Storage.Failure

/-!
# Volumes

A volume holds directories and files.  A file's contents are kept apart from its name: they
live under a number that is given once and never again, so whoever holds a file open goes on
reading it after its name is gone or stands for another file.

Every step on a volume passes one tick of its clock, and a schedule says at which ticks the
operating system refuses.  A refused step changes nothing but the clock.  A schedule that
refuses everything from some tick on therefore leaves the volume exactly as a stop at that
tick would.
-/

namespace FingerprintSet.Storage

/-- The number under which a file's contents are kept. -/
abbrev FileId := Nat

/-- What a path can name. -/
inductive Entry
  | directory
  | file (id : FileId)
  deriving DecidableEq, Repr, Inhabited

/-- Something held open for reading. -/
inductive Handle
  | directory
  | file (id : FileId)
  deriving DecidableEq, Repr, Inhabited

/-- Directories and files, and the schedule of refusals. -/
structure Volume where
  /-- What each path below the root names. -/
  entries : Std.TreeMap Path Entry := ∅
  /-- The contents of every file ever created. -/
  contents : Array Bytes := #[]
  /-- The steps that the operating system refuses, by tick. -/
  faults : Nat → Option Errno := fun _ => none
  /-- Steps taken so far. -/
  clock : Nat := 0

instance : Inhabited Volume := ⟨{}⟩

/-- Work on a volume.  What was done before a failure stays done. -/
abbrev Access := ExceptT Failure (StateM Volume)

namespace Volume

/-- The longest name, in bytes, that a directory takes. -/
def longestName : Nat := 255

/-- The contents of a file. -/
def read (volume : Volume) (id : FileId) : Bytes :=
  volume.contents.getD id #[]

/-- Put a file's contents in place of what it held. -/
def write (volume : Volume) (id : FileId) (bytes : Bytes) : Volume :=
  { volume with contents := volume.contents.setIfInBounds id bytes }

/-- Bind a path. -/
def bind (volume : Volume) (path : Path) (entry : Entry) : Volume :=
  { volume with entries := volume.entries.insert path entry }

/-- Unbind a path. -/
def unbind (volume : Volume) (path : Path) : Volume :=
  { volume with entries := volume.entries.erase path }

/-- Follow the names of an unbound path from the directory `above` on.  All names but the last
must be directories; the last one may be missing. -/
def follow (volume : Volume) (above : Path) : Path → Except Failure (Option Entry)
  | [] => .ok (some .directory)
  | name :: rest =>
      if longestName < name.utf8ByteSize then
        .error (.refused .nameTooLong)
      else
        match rest, volume.entries[above.child name]? with
        | [], found => .ok found
        | _ :: _, none => .error (.refused .notFound)
        | _ :: _, some (.file _) => .error (.refused .notDirectory)
        | _ :: _, some .directory => volume.follow (above.child name) rest

/-- What a path names, `none` where only its last name is missing. -/
def find (volume : Volume) (path : Path) : Except Failure (Option Entry) :=
  if path.any (·.toList.contains '\x00') then
    .error .nulInName
  else
    match volume.entries[path]? with
    | some entry => .ok (some entry)
    | none => volume.follow [] path

/-- Whether a path names anything. -/
def isPresent (volume : Volume) (path : Path) : Bool :=
  match volume.find path with
  | .ok (some _) => true
  | _ => false

/-- Whether a path names a directory. -/
def isDirectory (volume : Volume) (path : Path) : Bool :=
  match volume.find path with
  | .ok (some .directory) => true
  | _ => false

/-- All that lies below a path, in the order of paths. -/
def below (volume : Volume) (path : Path) : List (Path × Entry) :=
  volume.entries.toList.filter fun item => path.strictlyWithin item.1

/-- The names that a directory holds, in order. -/
def children (volume : Volume) (path : Path) : List String :=
  (volume.entries.toList.filter fun item => item.1.isChildOf path).filterMap fun item =>
    item.1.getLast?

end Volume

/-- Take one step on the volume: the schedule may refuse it, and the step itself may fail.
Either way the clock moves on. -/
def attempt {α : Type} (step : Volume → Except Failure (α × Volume)) : Access α :=
  ExceptT.mk fun volume =>
    let now := volume.clock
    let volume := { volume with clock := now + 1 }
    match volume.faults now with
    | some errno => (.error (.refused errno), volume)
    | none =>
        match step volume with
        | .ok (result, after) => (.ok result, after)
        | .error failure => (.error failure, volume)

/-- Look at the volume without taking a step. -/
def inspect {α : Type} (view : Volume → α) : Access α :=
  ExceptT.mk fun volume => (.ok (view volume), volume)

/-! ## Steps -/

/-- Create a file, or empty the one that is there. -/
def createFile (path : Path) : Access FileId :=
  attempt fun volume => do
    match ← volume.find path with
    | some .directory => .error (.refused .isDirectory)
    | some (.file id) => .ok (id, volume.write id #[])
    | none =>
        let id := volume.contents.size
        let grown := { volume with contents := volume.contents.push #[] }
        .ok (id, grown.bind path (.file id))

/-- Open what a path names for reading. -/
def openFile (path : Path) : Access Handle :=
  attempt fun volume => do
    match ← volume.find path with
    | none => .error (.refused .notFound)
    | some .directory => .ok (.directory, volume)
    | some (.file id) => .ok (.file id, volume)

/-- Read at most `length` bytes from a position on. -/
def readAt (handle : Handle) (start length : Nat) : Access Bytes :=
  attempt fun volume =>
    match handle with
    | .directory => .error (.refused .isDirectory)
    | .file id => .ok ((volume.read id).extract start (start + length), volume)

/-- The number of bytes an open file holds. -/
def fileLength (handle : Handle) : Access Nat :=
  attempt fun volume =>
    match handle with
    | .directory => .ok (0, volume)
    | .file id => .ok ((volume.read id).size, volume)

/-- Bytes with a piece written over them from a position on; a gap before it is zero. -/
def splice (contents : Bytes) (start : Nat) (piece : Bytes) : Bytes :=
  contents.extract 0 start ++ Array.replicate (start - contents.size) 0 ++ piece
    ++ contents.extract (start + piece.size) contents.size

/-- Write bytes into a file from a position on. -/
def writeAt (id : FileId) (start : Nat) (bytes : Bytes) : Access Unit :=
  attempt fun volume => .ok ((), volume.write id (splice (volume.read id) start bytes))

/-- Cut a file to a length, or fill it up with zeros. -/
def setLength (id : FileId) (length : Nat) : Access Unit :=
  attempt fun volume =>
    let contents := volume.read id
    .ok ((), volume.write id (contents.extract 0 length
      ++ Array.replicate (length - contents.size) 0))

/-- Bring what was written so far to the medium. -/
def sync : Access Unit :=
  attempt fun volume => .ok ((), volume)

/-- Remove a file's name. -/
def removeFile (path : Path) : Access Unit :=
  attempt fun volume => do
    match ← volume.find path with
    | none => .error (.refused .notFound)
    | some .directory => .error (.refused .isDirectory)
    | some (.file _) => .ok ((), volume.unbind path)

/-- Create a directory. -/
def makeDirectory (path : Path) : Access Unit :=
  attempt fun volume => do
    match ← volume.find path with
    | some _ => .error (.refused .alreadyExists)
    | none => .ok ((), volume.bind path .directory)

/-- Remove an empty directory. -/
def removeDirectory (path : Path) : Access Unit :=
  attempt fun volume => do
    match ← volume.find path with
    | none => .error (.refused .notFound)
    | some (.file _) => .error (.refused .notDirectory)
    | some .directory =>
        if (volume.below path).isEmpty then
          .ok ((), volume.unbind path)
        else
          .error (.refused .notEmpty)

/-- The names a directory holds. -/
def listDirectory (path : Path) : Access (List String) :=
  attempt fun volume => do
    match ← volume.find path with
    | none => .error (.refused .notFound)
    | some (.file _) => .error (.refused .notDirectory)
    | some .directory => .ok (volume.children path, volume)

/-- Whether something new called `target` may take the place of what is there. -/
def mayReplace (volume : Volume) (source : Entry) (target : Path) :
    Option Entry → Except Failure Unit
  | none => .ok ()
  | some present =>
      match source, present with
      | .file _, .file _ => .ok ()
      | .file _, .directory => .error (.refused .isDirectory)
      | .directory, .file _ => .error (.refused .notDirectory)
      | .directory, .directory =>
          if (volume.below target).isEmpty then .ok () else .error (.refused .notEmpty)

/-- Give a file, or a directory with all it holds, another name.  This is one step: at no time
is either name half done. -/
def rename (source target : Path) : Access Unit :=
  attempt fun volume => do
    match ← volume.find source with
    | none => .error (.refused .notFound)
    | some entry =>
        let present ← volume.find target
        if source = target then
          .ok ((), volume)
        else if source.strictlyWithin target then
          .error (.refused .invalidArgument)
        else do
          mayReplace volume entry target present
          let inner := volume.below source
          let moved := inner.foldl (fun v item => v.unbind item.1) (volume.unbind source)
          .ok ((), inner.foldl (fun v item => v.bind (target ++ item.1.drop source.length) item.2)
            (moved.bind target entry))

end FingerprintSet.Storage
