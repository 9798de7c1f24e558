import FingerprintSet.Storage.Path
import FingerprintSet.Text.Digits

/-!
# Names of checkpoints

The checkpoints of a set stand side by side in one directory, told apart by the set's name and
a suffix: the number of a generation, or the word for the one being written.  A directory is a
generation whenever its suffix spells a number, whatever zeros it has in front.
-/

namespace FingerprintSet.Checkpoint

/-- The file that describes a generation, inside its directory. -/
def manifestFile : String := "manifest.json"

/-- What the names of all checkpoint directories of a set start with. -/
def stem (name : String) : String :=
  name ++ ".chkpt."

/-- The name of the directory in which a checkpoint is written. -/
def stagingName (name : String) : String :=
  stem name ++ "staging"

/-- The name of a generation's directory. -/
def generationName (name : String) (generation : Nat) : String :=
  stem name ++ Text.zeroPadded 8 generation

/-- The name of a segment's file. -/
def segmentFile (index : Nat) : String :=
  s!"seg-{Text.zeroPadded 4 index}.fps"

/-- Generations are numbered below this limit. -/
def generationLimit : Nat := UInt64.size

/-- The number that a suffix spells: digits, with a plus sign in front if need be. -/
def suffixNumber? (suffix : List Char) : Option Nat :=
  let unsigned :=
    match suffix with
    | '+' :: rest => rest
    | other => other
  match Text.takeDigits unsigned with
  | ([], _) => none
  | (ds, []) =>
      let n := Text.ofDigits ds
      if n < generationLimit then some n else none
  | (_, _ :: _) => none

/-- The generation that a directory's name stands for. -/
def generationOf? (name entry : String) : Option Nat := do
  let suffix ← (stem name).toList.isPrefixOf? entry.toList
  suffixNumber? suffix

/-- Names under which checkpoints can be kept. -/
def isUsableName (name : String) : Bool :=
  Storage.plainName name && !name.toList.contains '\\' && !name.toList.contains '\x00'

end FingerprintSet.Checkpoint
