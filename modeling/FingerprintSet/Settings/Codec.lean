import FingerprintSet.Decimal.Numeral
import FingerprintSet.Decimal.Shortest
import FingerprintSet.Settings.Basic
import FingerprintSet.Settings.Tree

/-!
# Settings as trees

Settings written as a setting tree, and a setting tree read as settings.  Writing gives each
field one form.  Reading takes every value that can be understood as one of the field's kind: a
number may stand as text, a truth value as a number or a word.  The fields of a section stand
under their names or, in a list, in order; what is left over does not count.
-/

namespace FingerprintSet

/-- What something is read or written as, or what speaks against it. -/
abbrev Coded := Except Complaint

namespace Setting

/-- The truth value that a word stands for. -/
def wordBool? (word : String) : Option Bool :=
  match String.ofList (word.toList.map Char.toLower) with
  | "true" => some true
  | "on" => some true
  | "yes" => some true
  | "false" => some false
  | "off" => some false
  | "no" => some false
  | _ => none

/-- A value as a truth value. -/
def toBool? : Setting → Option Bool
  | bool value => some value
  | int value => some (value ≠ 0)
  | float value => some (value != 0.0)
  | text "1" => some true
  | text "0" => some false
  | text word => wordBool? word
  | _ => none

/-- A value as a word of 64 bits.  A number with places is rounded, half away from zero, and
brought into range. -/
def toWord? : Setting → Option UInt64
  | bool value => some (if value then 1 else 0)
  | int value => if 0 ≤ value then some (UInt64.ofNat value.toNat) else none
  | float value => some value.round.toUInt64
  | text word =>
      match wordBool? word with
      | some value => some (if value then 1 else 0)
      | none => do
          let n ← Decimal.unsigned? word.toList
          if n < UInt64.size then some (UInt64.ofNat n) else none
  | _ => none

/-- A value as a floating-point number. -/
def toFloat? : Setting → Option Float
  | bool value => some (if value then 1.0 else 0.0)
  | int value => some (Decimal.ofInt value)
  | float value => some value
  | text word =>
      match wordBool? word with
      | some value => some (if value then 1.0 else 0.0)
      | none => Decimal.float? word.toList
  | _ => none

/-- A value as text. -/
def toText? : Setting → Option String
  | bool value => some (if value then "true" else "false")
  | int value => some (toString value)
  | float value => some (Decimal.text value)
  | text value => some value
  | _ => none

/-- A value as a kind of set: its name, or a table with a field of that name alone. -/
def toKind? : Setting → Option SetKind
  | text name => [SetKind.memory, .disk].find? (·.name = name)
  | table [(name, _)] => [SetKind.memory, .disk].find? (·.name = name)
  | _ => none

end Setting

namespace Settings

/-- A value under a key read in one way, which the key wants. -/
def decodeField {α : Type} (key wanted : String) (read : Setting → Option α)
    (value : Setting) : Coded α :=
  match read value with
  | some result => .ok result
  | none => .error (.misfit key wanted)

/-- A truth value under a key. -/
def decodeBool (key : String) : Setting → Coded Bool :=
  decodeField key "a truth value" Setting.toBool?

/-- A word under a key. -/
def decodeWord (key : String) : Setting → Coded UInt64 :=
  decodeField key "a whole number" Setting.toWord?

/-- A floating-point number under a key. -/
def decodeFloat (key : String) : Setting → Coded Float :=
  decodeField key "a number" Setting.toFloat?

/-- A text under a key. -/
def decodeText (key : String) : Setting → Coded String :=
  decodeField key "text" Setting.toText?

/-- The values of the named fields of a section. -/
def decodeSection (key : String) (names : List String) : Setting → Coded (List Setting)
  | .table fields => names.mapM fun name =>
      match fields.lookup name with
      | some value => .ok value
      | none => .error (.missing (key ++ name))
  | .list items =>
      if names.length ≤ items.length then .ok (items.take names.length)
      else .error (.missing (key ++ (names.getD items.length "")))
  | _ => .error (.misfit key "a section")

/-- The memory section. -/
def decodeMemory (tree : Setting) : Coded MemorySettings := do
  match ← decodeSection "memory."
    ["budget_bytes", "segment_bits", "bucket_entries", "reserve_ratio"] tree with
  | [budget, bits, entries, ratio] =>
      return {
        budgetBytes := ← decodeWord "memory.budget_bytes" budget
        segmentBits := (← decodeWord "memory.segment_bits" bits).toUInt32
        bucketEntries := ← decodeWord "memory.bucket_entries" entries
        reserveRatio := ← decodeFloat "memory.reserve_ratio" ratio }
  | _ => .error (.misfit "memory" "a section")

/-- The storage section. -/
def decodeStorage (tree : Setting) : Coded StorageSettings := do
  match ← decodeSection "storage."
    ["page_index_stride", "max_pages_per_segment", "max_open_pages", "sync_writes"] tree with
  | [stride, pages, handles, sync] =>
      return {
        pageIndexStride := ← decodeWord "storage.page_index_stride" stride
        maxPagesPerSegment := ← decodeWord "storage.max_pages_per_segment" pages
        maxOpenPages := ← decodeWord "storage.max_open_pages" handles
        syncWrites := ← decodeBool "storage.sync_writes" sync }
  | _ => .error (.misfit "storage" "a section")

/-- The log section. -/
def decodeLog (tree : Setting) : Coded LogSettings := do
  match ← decodeSection "log." ["level", "json", "source_location"] tree with
  | [level, json, location] =>
      return {
        level := ← decodeText "log.level" level
        json := ← decodeBool "log.json" json
        sourceLocation := ← decodeBool "log.source_location" location }
  | _ => .error (.misfit "log" "a section")

/-- The settings that a tree is. -/
def ofTree (tree : Setting) : Coded Settings := do
  match ← decodeSection "" ["kind", "memory", "storage", "log"] tree with
  | [kind, memory, storage, log] =>
      return {
        kind := ← decodeField "kind" "a kind of set" Setting.toKind? kind
        memory := ← decodeMemory memory
        storage := ← decodeStorage storage
        log := ← decodeLog log }
  | _ => .error (.misfit "settings" "a section")

/-- A word as a whole number of a tree, which has a sign and so only half the range. -/
def encodeWord (key : String) (word : UInt64) : Coded Setting :=
  match Setting.ofInt? word.toNat with
  | some value => .ok value
  | none => .error (.tooLarge key)

/-- The tree of settings. -/
def toTree (settings : Settings) : Coded Setting := do
  let memory := settings.memory
  let storage := settings.storage
  return .table
    [("kind", .text settings.kind.name),
      ("memory", .table
        [("budget_bytes", ← encodeWord "memory.budget_bytes" memory.budgetBytes),
          ("segment_bits", .int memory.segmentBits.toNat),
          ("bucket_entries", ← encodeWord "memory.bucket_entries" memory.bucketEntries),
          ("reserve_ratio", .float memory.reserveRatio)]),
      ("storage", .table
        [("page_index_stride",
            ← encodeWord "storage.page_index_stride" storage.pageIndexStride),
          ("max_pages_per_segment",
            ← encodeWord "storage.max_pages_per_segment" storage.maxPagesPerSegment),
          ("max_open_pages", ← encodeWord "storage.max_open_pages" storage.maxOpenPages),
          ("sync_writes", .bool storage.syncWrites)]),
      ("log", .table
        [("level", .text settings.log.level),
          ("json", .bool settings.log.json),
          ("source_location", .bool settings.log.sourceLocation)])]

end Settings

end FingerprintSet
