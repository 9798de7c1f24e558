import FingerprintSet.Storage.Failure
import FingerprintSet.Storage.Path

/-!
# Settings

What a fingerprint set is built from: which kind of set, how much memory it may use and how
that memory is cut up, how its overflow pages are kept, and how it logs.  Validation goes
through the fields in a fixed order and reports the first one that is out of bounds.
-/

namespace FingerprintSet

open Storage (Path Failure)

/-! ## Errors -/

/-- The formats of settings files. -/
inductive FileFormat
  | toml
  | json
  | yaml
  deriving DecidableEq, Repr, Inhabited

/-- The name of a format. -/
def FileFormat.name : FileFormat → String
  | toml => "TOML"
  | json => "JSON"
  | yaml => "YAML"

/-- Why a source is not settings, or settings have no written form. -/
inductive Complaint
  | unreadable (cause : Failure)
  /-- The bytes of a file do not spell text. -/
  | notText
  | malformed (format : FileFormat)
  /-- What stands under a key cannot be what is wanted there. -/
  | misfit (key wanted : String)
  | missing (key : String)
  /-- A whole number that the written form has no room for. -/
  | tooLarge (key : String)
  | described (text : String)
  deriving DecidableEq, Repr, Inhabited

/-- The wording of a complaint. -/
def Complaint.text : Complaint → String
  | unreadable cause => cause.text
  | notText => "not a text file"
  | malformed format => s!"not a {format.name} document"
  | misfit key wanted => s!"{key} is not {wanted}"
  | missing key => s!"{key} is missing"
  | tooLarge key => s!"{key} is too large"
  | described text => text

/-- A setting that no value can be right for. -/
inductive Rejection
  | noBudget
  | noStride
  | unknownLevel (level : String)
  | described (text : String)
  deriving DecidableEq, Repr, Inhabited

/-- The wording of a rejection. -/
def Rejection.text : Rejection → String
  | noBudget => "budget_bytes must be greater than 0"
  | noStride => "page_index_stride must be greater than 0"
  | unknownLevel level => s!"Invalid log level: {level}"
  | described text => text

/-- The largest number of segment bits. -/
def maxSegmentBits : UInt32 := 12

/-- The widest bucket; how full a bucket is takes one byte. -/
def maxBucketEntries : UInt64 := 255

/-- A setting that must lie between bounds. -/
inductive Bounded
  | segmentBits
  | bucketEntries
  | reserveRatio
  | maxPagesPerSegment
  | maxOpenPages
  | described (key allowed : String)
  deriving DecidableEq, Repr, Inhabited

namespace Bounded

/-- The key of a setting. -/
def key : Bounded → String
  | segmentBits => "memory.segment_bits"
  | bucketEntries => "memory.bucket_entries"
  | reserveRatio => "memory.reserve_ratio"
  | maxPagesPerSegment => "storage.max_pages_per_segment"
  | maxOpenPages => "storage.max_open_pages"
  | described key _ => key

/-- The bounds of a setting. -/
def allowed : Bounded → String
  | segmentBits => s!"must be at most {maxSegmentBits}"
  | bucketEntries => s!"must be between 1 and {maxBucketEntries}"
  | reserveRatio => "must be in (0.0, 0.9]"
  | maxPagesPerSegment => "must be at least 2"
  | maxOpenPages => "must be at least 1"
  | described _ allowed => allowed

end Bounded

/-- Why settings could not be loaded, written or accepted. -/
inductive SettingsError
  | fileNotFound (path : Path)
  | unsupportedFormat (path : Path)
  /-- The sources named by `origin` do not make up settings. -/
  | unreadable (origin : String) (complaint : Complaint)
  | unwritable (complaint : Complaint)
  | rejected (reason : Rejection)
  | outOfRange (setting : Bounded)
  deriving DecidableEq, Repr, Inhabited

namespace SettingsError

/-- The wording of an error. -/
def message : SettingsError → String
  | fileNotFound path => s!"Configuration file not found: {path.text}"
  | unsupportedFormat path => s!"Unsupported configuration format: {path.text}"
  | unreadable origin complaint =>
      s!"Failed to parse configuration from {origin}: {complaint.text}"
  | unwritable complaint => s!"Failed to render configuration: {complaint.text}"
  | rejected reason => s!"Configuration validation error: {reason.text}"
  | outOfRange setting =>
      s!"Configuration value {setting.key} is out of valid range: {setting.allowed}"

end SettingsError

/-! ## Settings -/

/-- The two kinds of set. -/
inductive SetKind
  /-- All fingerprints stay in memory. -/
  | memory
  /-- Memory is bounded, and what does not fit goes to disk. -/
  | disk
  deriving DecidableEq, Repr, Inhabited

/-- The name of a kind in settings. -/
def SetKind.name : SetKind → String
  | memory => "memory"
  | disk => "disk"

/-- How much memory a set may use and how the table in it is shaped. -/
structure MemorySettings where
  budgetBytes : UInt64
  /-- The table is split into `2 ^ segmentBits` segments. -/
  segmentBits : UInt32
  bucketEntries : UInt64
  /-- The share of the budget kept for snapshots and page indexes. -/
  reserveRatio : Float
  deriving Inhabited

/-- How overflow pages and checkpoints are kept. -/
structure StorageSettings where
  /-- One fingerprint in this many stays in memory as a page's index. -/
  pageIndexStride : UInt64
  /-- A segment with more pages than this merges some. -/
  maxPagesPerSegment : UInt64
  /-- Page files kept open over the whole set. -/
  maxOpenPages : UInt64
  syncWrites : Bool
  deriving DecidableEq, Repr, Inhabited

/-- How a set logs. -/
structure LogSettings where
  level : String
  json : Bool
  sourceLocation : Bool
  deriving DecidableEq, Repr, Inhabited

/-- All settings of a fingerprint set. -/
structure Settings where
  kind : SetKind
  memory : MemorySettings
  storage : StorageSettings
  log : LogSettings
  deriving Inhabited

/-! ## Defaults -/

/-- Segment bits for a machine: at least four segments per processor. -/
def segmentBitsFor (processors : Nat) : UInt32 :=
  min (UInt32.ofNat (processors * 4).nextPowerOfTwo.log2) maxSegmentBits

namespace MemorySettings

/-- The defaults on a machine with the given number of processors. -/
def forMachine (processors : Nat) : MemorySettings where
  budgetBytes := 64 * 1024 * 1024
  segmentBits := segmentBitsFor processors
  bucketEntries := 8
  reserveRatio := 0.25

/-- The defaults with another budget. -/
def withBudget (processors : Nat) (budgetBytes : UInt64) : MemorySettings :=
  { forMachine processors with budgetBytes }

/-- The number of segments. -/
def segmentCount (settings : MemorySettings) : Nat :=
  Nat.pow 2 settings.segmentBits.toNat

/-- Accept the settings, or name the first field that is out of bounds. -/
def validate (settings : MemorySettings) : Except SettingsError Unit :=
  if settings.budgetBytes = 0 then
    .error (.rejected .noBudget)
  else if maxSegmentBits < settings.segmentBits then
    .error (.outOfRange .segmentBits)
  else if settings.bucketEntries = 0 ∨ maxBucketEntries < settings.bucketEntries then
    .error (.outOfRange .bucketEntries)
  else if 0.0 < settings.reserveRatio ∧ settings.reserveRatio ≤ 0.9 then
    .ok ()
  else
    .error (.outOfRange .reserveRatio)

end MemorySettings

namespace StorageSettings

/-- The defaults. -/
def standard : StorageSettings where
  pageIndexStride := 512
  maxPagesPerSegment := 16
  maxOpenPages := 256
  syncWrites := true

/-- Accept the settings, or name the first field that is out of bounds. -/
def validate (settings : StorageSettings) : Except SettingsError Unit :=
  if settings.pageIndexStride = 0 then
    .error (.rejected .noStride)
  else if settings.maxPagesPerSegment < 2 then
    .error (.outOfRange .maxPagesPerSegment)
  else if settings.maxOpenPages = 0 then
    .error (.outOfRange .maxOpenPages)
  else
    .ok ()

/-- The page files that each of so many segments may keep open: an even share, but never
none. -/
def openPagesPerSegment (settings : StorageSettings) (segments : Nat) : Nat :=
  max (settings.maxOpenPages.toNat / max segments 1) 1

end StorageSettings

namespace LogSettings

/-- The defaults. -/
def standard : LogSettings where
  level := "info"
  json := false
  sourceLocation := true

/-- The levels there are. -/
def levels : List String :=
  ["trace", "debug", "info", "warn", "error"]

/-- Accept the settings if the level is one there is. -/
def validate (settings : LogSettings) : Except SettingsError Unit :=
  if settings.level ∈ levels then
    .ok ()
  else
    .error (.rejected (.unknownLevel settings.level))

end LogSettings

namespace Settings

/-- The defaults on a machine with the given number of processors. -/
def forMachine (processors : Nat) : Settings where
  kind := .disk
  memory := .forMachine processors
  storage := .standard
  log := .standard

/-- Accept the settings, or name the first field that is out of bounds. -/
def validate (settings : Settings) : Except SettingsError Unit := do
  settings.memory.validate
  settings.storage.validate
  settings.log.validate

end Settings

end FingerprintSet
