import FingerprintSet.Settings.Basic
import FingerprintSet.Storage.Failure
import FingerprintSet.Text.Quoted

/-!
# Errors

Every way an operation of the library can fail, told by its cause.  The wording is in one place
and follows the cause: `Error.message`.
-/

namespace FingerprintSet

open Storage (Path Failure)

/-- What cannot be used to build a set. -/
inductive Misconfiguration
  | settings (error : SettingsError)
  /-- The budget has no room for one bucket in each segment. -/
  | budgetTooSmall (budgetBytes bucketEntries segments : Nat)
  /-- The reserve has no room for a snapshot of one segment beside the smallest indexes. -/
  | reserveTooSmall (reserveBytes indexBytes : Nat)
  | unusableDirectory (path : Path) (cause : Failure)
  | notADirectory (path : Path)
  | unusableName (name : String)
  | described (text : String)
  deriving DecidableEq, Repr, Inhabited

/-- The wording of a misconfiguration. -/
def Misconfiguration.message : Misconfiguration → String
  | settings error => error.message
  | budgetTooSmall budget entries segments =>
      s!"memory budget of {budget} bytes cannot hold one {entries}-entry bucket in each of " ++
        s!"{segments} segments"
  | reserveTooSmall reserve index =>
      s!"reserve of {reserve} bytes cannot buffer a single segment snapshot plus " ++
        s!"{index} bytes of page index"
  | unusableDirectory path cause => s!"cannot use directory {path.text}: {cause.text}"
  | notADirectory path => s!"{path.text} is not a directory"
  | unusableName name => s!"{Text.quoted name} is not a usable checkpoint name"
  | described text => text

/-- What was going on when a step on the volume failed. -/
inductive Activity
  | creating (path : Path)
  | creatingOverflow (path : Path)
  | clearing (path : Path)
  | opening (path : Path)
  | openingPage (path : Path)
  | probingPage (path : Path)
  | measuring (path : Path)
  | reading (path : Path)
  | writing (path : Path)
  | finishing (path : Path)
  | syncing (path : Path)
  | syncingDirectory (path : Path)
  | listing (path : Path)
  | removing (path : Path)
  | publishing (source target : Path)
  | described (text : String)
  deriving DecidableEq, Repr, Inhabited

/-- The wording of an activity. -/
def Activity.text : Activity → String
  | creating path => s!"creating {path.text}"
  | creatingOverflow path => s!"creating overflow directory {path.text}"
  | clearing path => s!"clearing {path.text}"
  | opening path => s!"opening {path.text}"
  | openingPage path => s!"opening page {path.text}"
  | probingPage path => s!"probing page {path.text}"
  | measuring path => s!"reading metadata of {path.text}"
  | reading path => s!"reading {path.text}"
  | writing path => s!"writing {path.text}"
  | finishing path => s!"finishing {path.text}"
  | syncing path => s!"syncing {path.text}"
  | syncingDirectory path => s!"syncing directory {path.text}"
  | listing path => s!"listing {path.text}"
  | removing path => s!"removing {path.text}"
  | publishing source target => s!"publishing {source.text} as {target.text}"
  | described text => text

/-- What is wrong with a fingerprint file or a checkpoint. -/
inductive Defect
  | unreadableHeader (cause : Failure)
  | badMagic
  | unsupportedVersion (version : Nat)
  | lengthMismatch (length entries : Nat)
  | checksumMismatch
  | unreadableManifest
  | foreignGeneration (named actual : Nat)
  | invalidFileName (name : String)
  | headerDisagrees
  | entriesOutOfOrder
  | countMismatch (held recorded : Nat)
  | noneLoadable (generations : Nat) (name : String)
  | restoredMismatch (restored generation recorded : Nat)
  | described (text : String)
  deriving DecidableEq, Repr, Inhabited

/-- The wording of a defect. -/
def Defect.text : Defect → String
  | unreadableHeader cause => s!"unreadable header: {cause.text}"
  | badMagic => "bad magic"
  | unsupportedVersion version => s!"unsupported format version {version}"
  | lengthMismatch length entries => s!"length {length} does not match {entries} entries"
  | checksumMismatch => "checksum mismatch"
  | unreadableManifest => "unreadable manifest"
  | foreignGeneration named actual =>
      s!"manifest names generation {named} inside directory of generation {actual}"
  | invalidFileName name => s!"invalid segment file name {Text.quoted name}"
  | headerDisagrees => "header disagrees with manifest"
  | entriesOutOfOrder => "entries out of order"
  | countMismatch held recorded => s!"segments hold {held} entries, manifest says {recorded}"
  | noneLoadable generations name =>
      s!"none of the {generations} checkpoint generations of {name} is loadable"
  | restoredMismatch restored generation recorded =>
      s!"restored {restored} distinct fingerprints, checkpoint {generation} records {recorded}"
  | described text => text

/-- A checkpoint operation that came at the wrong time. -/
inductive Violation
  | alreadyStaged
  | nothingStaged
  | described (text : String)
  deriving DecidableEq, Repr, Inhabited

/-- The wording of a violation. -/
def Violation.text : Violation → String
  | alreadyStaged => "a checkpoint is already staged and awaiting commit"
  | nothingStaged => "commit requested without a staged checkpoint"
  | described text => text

/-- A number that has no 64-bit value.  No operation goes on from one. -/
inductive Quantity
  /-- The generation after the last one there can be. -/
  | generation
  /-- The bytes of one block of a page. -/
  | blockBytes
  /-- The room for all open pages. -/
  | openPages
  /-- The distance to a smaller fingerprint. -/
  | distance
  deriving DecidableEq, Repr, Inhabited

/-- The wording of a quantity. -/
def Quantity.text : Quantity → String
  | generation => "generation number"
  | blockBytes => "block size"
  | openPages => "number of open pages"
  | distance => "distance between fingerprints"

/-- Why an operation failed. -/
inductive Error
  | invalidConfiguration (reason : Misconfiguration)
  | storage (activity : Activity) (cause : Failure)
  | corrupt (path : Path) (defect : Defect)
  | protocol (violation : Violation)
  | settings (error : SettingsError)
  | outOfRange (quantity : Quantity)
  deriving DecidableEq, Repr, Inhabited

namespace Error

/-- The wording of an error. -/
def message : Error → String
  | invalidConfiguration reason => s!"Invalid configuration: {reason.message}"
  | storage activity cause => s!"Storage I/O failure while {activity.text}: {cause.text}"
  | corrupt path defect =>
      s!"Corrupt checkpoint at {Text.quoted path.text}: {defect.text}"
  | protocol violation => s!"Checkpoint protocol violation: {violation.text}"
  | settings error => s!"Configuration error: {error.message}"
  | outOfRange quantity => s!"{quantity.text} out of range"

/-- Whether an error came from the volume. -/
def isStorage : Error → Bool
  | storage _ _ => true
  | _ => false

end Error

end FingerprintSet
