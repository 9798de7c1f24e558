import FingerprintSet.Storage.Volume

/-!
# Whole files and whole trees

Work made of several steps: creating a directory with its parents, removing a tree bottom up,
reading or writing a file in one go.  Each can be cut short between any two of its steps.
-/

namespace FingerprintSet.Storage

/-- Create a directory whose names are given innermost first, with all its parents.  A
directory that is there already is left alone. -/
def makeDirectoriesUp : List String → Access Unit
  | [] => pure ()
  | name :: above => do
      let path := (name :: above).reverse
      let keep (failure : Failure) : Access Unit := do
        if ← inspect (·.isDirectory path) then pure () else throw failure
      tryCatch (makeDirectory path) fun failure =>
        if failure = .refused .notFound then do
          makeDirectoriesUp above
          tryCatch (makeDirectory path) keep
        else
          keep failure

/-- Create a directory with all its parents. -/
def makeDirectories (path : Path) : Access Unit :=
  makeDirectoriesUp path.reverse

/-- Remove one entry, a directory only when it is empty. -/
def removeEntry (item : Path × Entry) : Access Unit :=
  match item.2 with
  | .directory => removeDirectory item.1
  | .file _ => removeFile item.1

/-- Remove a directory and all it holds, what lies deepest first. -/
def removeTree (path : Path) : Access Unit := do
  let _ ← listDirectory path
  let inner ← inspect (·.below path)
  inner.reverse.forM removeEntry
  removeDirectory path

/-- All bytes of a file. -/
def readWhole (path : Path) : Access Bytes := do
  let handle ← openFile path
  let length ← fileLength handle
  readAt handle 0 length

/-! ## Steps of others

What someone beside a set may do to files on the same volume: put them there, copy them, damage them
and take them away. -/

/-- Create a file with the given bytes, or put them in place of what it held. -/
def writeFile (path : Path) (bytes : Bytes) : Access Unit := do
  let id ← createFile path
  writeAt id 0 bytes

/-- Remove a file, or a directory with all it holds. -/
def removeAny (path : Path) : Access Unit := do
  if ← inspect (·.isDirectory path) then removeTree path else removeFile path

/-- Copy a file. -/
def copyFile (source target : Path) : Access Unit := do
  let bytes ← readWhole source
  writeFile target bytes

/-- The file that a path names, to be written to. -/
def openForWriting (path : Path) : Access FileId := do
  match ← openFile path with
  | .directory => throw (.refused .isDirectory)
  | .file id => pure id

/-- Overwrite a piece of a file. -/
def overwrite (path : Path) (start : Nat) (bytes : Bytes) : Access Unit := do
  let id ← openForWriting path
  writeAt id start bytes

/-- Cut a file to a length. -/
def truncate (path : Path) (length : Nat) : Access Unit := do
  let id ← openForWriting path
  setLength id length

end FingerprintSet.Storage
