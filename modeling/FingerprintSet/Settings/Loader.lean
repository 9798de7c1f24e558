import FingerprintSet.Json.Setting
import FingerprintSet.Settings.Codec
import FingerprintSet.Settings.Key
import FingerprintSet.Storage.Tree
import FingerprintSet.Text.Lowercase
import FingerprintSet.Text.Utf8
import FingerprintSet.Toml.Document
import FingerprintSet.Yaml.Node

/-!
# Loading settings

Settings come from three layers, each laid over the one before: the defaults, a file, and the
environment's variables.  Where a layer is silent, what lies below it counts.
-/

namespace FingerprintSet

open Storage

/-! ## Files -/

namespace FileFormat

/-- The endings of file names in a format. -/
def endings : FileFormat → List String
  | toml => ["toml"]
  | json => ["json"]
  | yaml => ["yaml", "yml"]

/-- The format with an ending. -/
def ofEnding? (ending : String) : Option FileFormat :=
  [toml, json, yaml].find? (·.endings.contains ending)

/-- What stands in a name behind its last dot, if something stands before that dot. -/
def ending? (name : String) : Option String :=
  let reversed := name.toList.reverse
  let after := reversed.takeWhile (· ≠ '.')
  match reversed.drop after.length with
  | _ :: _ :: _ => some (String.ofList after.reverse)
  | _ => none

/-- The format of the file with a name. -/
def ofName? (name : String) : Option FileFormat := do
  ofEnding? (← ending? name)

/-- The setting tree that bytes in a format spell.  A byte order mark in front does not count. -/
def readSetting (format : FileFormat) (bytes : List UInt8) : Coded Setting :=
  match Text.utf8Decode bytes with
  | none => .error .notText
  | some text =>
      let text :=
        match text with
        | '\ufeff' :: rest => rest
        | text => text
      let read : Option Setting :=
        match format with
        | toml => Toml.readSetting? text
        | json => Json.readSetting? (Text.utf8Encode text)
        | yaml => Yaml.readSetting? text
      match read with
      | some tree => .ok tree
      | none => .error (.malformed format)

end FileFormat

/-! ## The environment -/

/-- What settings are loaded on. -/
structure Machine where
  processors : Nat
  /-- The environment's variables and their values. -/
  environment : List (String × String)
  deriving Repr, Inhabited

namespace Machine

/-- The value of a variable: a truth value or a number if it reads as one, and otherwise
text. -/
def valueOf (text : String) : Setting :=
  let int? : Option Setting := Decimal.signed? text.toList >>= Setting.ofInt?
  let float? : Option Setting := Setting.float <$> Decimal.float? text.toList
  match String.ofList (text.toList.map Char.toLower) with
  | "true" => .bool true
  | "false" => .bool false
  | _ => ((int? <|> float?).getD (.text text))

/-- A text with a dot for every two underscores. -/
def dotted : List Char → List Char
  | '_' :: '_' :: rest => '.' :: dotted rest
  | c :: rest => c :: dotted rest
  | [] => []

/-- The key of the variable with a name, if the name starts with a stem and two underscores.
Case does not count. -/
def keyOf? (stem name : String) : Option String := do
  let stem := Text.lowercase (stem.toList ++ ['_', '_'])
  let rest ← stem.isPrefixOf? (Text.lowercase name.toList)
  return String.ofList (dotted rest)

/-- The values of the variables with a stem, by their keys.  Of several with one key the last
one counts. -/
def settings (machine : Machine) (stem : String) : List (String × Setting) :=
  let found := machine.environment.filterMap fun (name, text) => do
    return (← keyOf? stem name, valueOf text)
  found.foldl (fun values (key, value) => Setting.putField key value values) []

end Machine

/-! ## Layers -/

/-- Where settings are loaded from. -/
structure Loader where
  /-- The settings file, if there is one. -/
  file : Option Path
  /-- What the names of the variables start with. -/
  stem : String
  deriving DecidableEq, Repr, Inhabited

namespace Loader

/-- What the layers are called in errors. -/
def origin (loader : Loader) : String :=
  let fromVariables := s!"{loader.stem}__* environment"
  match loader.file with
  | none => fromVariables
  | some path => s!"{path.text} or {fromVariables}"

/-- The format of a settings file, which must be there. -/
def formatOf (path : Path) : StateM Volume (Except SettingsError FileFormat) := do
  if (← get).isPresent path then
    match path.getLast?.bind FileFormat.ofName? with
    | some format => return .ok format
    | none => return .error (.unsupportedFormat path)
  else
    return .error (.fileNotFound path)

/-- The files that a path may stand for: itself, and those whose names go on with an ending of
the format. -/
def candidates (path : Path) (format : FileFormat) : List Path :=
  let name := path.getLast?.getD ""
  path :: format.endings.map fun ending => Path.child path.dropLast s!"{name}.{ending}"

/-- Read a settings file.  A directory gives way to a file beside it. -/
def readLayer (path : Path) (format : FileFormat) : StateM Volume (Coded Setting) := do
  let volume ← get
  let isFile (path : Path) : Bool := volume.isPresent path && !volume.isDirectory path
  match ← (readWhole (((candidates path format).find? isFile).getD path)).run with
  | .ok bytes => return format.readSetting bytes.toList
  | .error cause => return .error (.unreadable cause)

/-- All layers in one tree. -/
def tree (loader : Loader) (machine : Machine) (format : Option FileFormat) :
    StateM Volume (Coded Setting) := do
  let file ←
    match loader.file, format with
    | some path, some format => readLayer path format
    | _, _ => pure (.ok .empty)
  return do
    let defaults ← (Settings.forMachine machine.processors).toTree
    return (defaults.setAll (← file).fields).setAll (machine.settings loader.stem)

/-- Load settings and validate them. -/
def load (loader : Loader) (machine : Machine) : ExceptT SettingsError (StateM Volume) Settings :=
  do
    let format ← loader.file.mapM fun path => ExceptT.mk (formatOf path)
    let tree ← ExceptT.adapt (SettingsError.unreadable loader.origin)
      (ExceptT.mk (loader.tree machine format))
    let settings ← ExceptT.mk (pure
      ((Settings.ofTree tree).mapError (SettingsError.unreadable loader.origin)))
    ExceptT.mk (pure (settings.validate.map fun _ => settings))

end Loader

end FingerprintSet
