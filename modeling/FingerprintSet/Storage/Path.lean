/-!
# Paths

A path is the list of names that lead to a file or directory, outermost first.  The empty list
is the root of the volume.
-/

namespace FingerprintSet.Storage

/-- The names leading to a file or directory, outermost first. -/
abbrev Path := List String

namespace Path

/-- A path as one text, its names parted by slashes. -/
def text (path : Path) : String :=
  "/".intercalate path

/-- The path whose text is the given one. -/
def ofText (text : String) : Path :=
  text.splitOn "/"

/-- What the directory `dir` holds under a name. -/
def child (dir : Path) (name : String) : Path :=
  dir ++ [name]

/-- Whether a path is the directory `dir` or lies below it. -/
def within (dir path : Path) : Bool :=
  dir.isPrefixOf path

/-- Whether a path lies below the directory `dir`. -/
def strictlyWithin (dir path : Path) : Bool :=
  dir.isPrefixOf path && dir.length < path.length

/-- Whether a path names an immediate child of the directory `dir`. -/
def isChildOf (path dir : Path) : Bool :=
  dir.isPrefixOf path && path.length == dir.length + 1

end Path

/-- Names that can stand as one component of a path: not empty, not a dot or two, and without
a slash. -/
def plainName (name : String) : Bool :=
  name != "" && name != "." && name != ".." && !name.toList.contains '/'

end FingerprintSet.Storage
