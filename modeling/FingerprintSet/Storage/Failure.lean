/-!
# Failures of a volume

Why a single step on a volume did not happen.  Most are refusals of the operating system, told
apart by its error numbers; two come from the reading and naming rules above it.
-/

namespace FingerprintSet.Storage

/-- The operating system's reason for refusing a step. -/
inductive Errno
  | notFound
  | inputOutput
  | alreadyExists
  | notDirectory
  | isDirectory
  | invalidArgument
  | noSpace
  | nameTooLong
  | notEmpty
  deriving DecidableEq, Repr, Inhabited

namespace Errno

/-- All reasons, in the order of their numbers. -/
def all : List Errno :=
  [notFound, inputOutput, alreadyExists, notDirectory, isDirectory, invalidArgument, noSpace,
    nameTooLong, notEmpty]

/-- The number of a reason. -/
def number : Errno → Nat
  | notFound => 2
  | inputOutput => 5
  | alreadyExists => 17
  | notDirectory => 20
  | isDirectory => 21
  | invalidArgument => 22
  | noSpace => 28
  | nameTooLong => 36
  | notEmpty => 39

/-- The wording of a reason. -/
def wording : Errno → String
  | notFound => "No such file or directory"
  | inputOutput => "Input/output error"
  | alreadyExists => "File exists"
  | notDirectory => "Not a directory"
  | isDirectory => "Is a directory"
  | invalidArgument => "Invalid argument"
  | noSpace => "No space left on device"
  | nameTooLong => "File name too long"
  | notEmpty => "Directory not empty"

/-- A reason as it is shown: wording and number. -/
def text (errno : Errno) : String :=
  s!"{errno.wording} (os error {errno.number})"

end Errno

/-- Why a step on a volume failed. -/
inductive Failure
  /-- The operating system refused it. -/
  | refused (errno : Errno)
  /-- A name holds the character NUL, which no name on a volume can. -/
  | nulInName
  /-- A file ended before all bytes asked for were read. -/
  | endOfFile
  /-- Any other failure, in its own words. -/
  | described (text : String)
  deriving DecidableEq, Repr, Inhabited

/-- A failure in words. -/
def Failure.text : Failure → String
  | refused errno => errno.text
  | nulInName => "file name contained an unexpected NUL byte"
  | endOfFile => "failed to fill whole buffer"
  | described text => text

end FingerprintSet.Storage
