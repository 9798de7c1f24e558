import FingerprintSet.Json.Document
import FingerprintSet.Json.Number
import FingerprintSet.Settings.Tree

/-!
# Settings in JSON

A JSON document as a setting tree.  A number is whole if it is written so and 64 bits with a
sign hold it.  Of fields of one name the last one counts.
-/

namespace FingerprintSet.Json

mutual

/-- How deep arrays and objects are nested. -/
def depth : Json → Nat
  | array items => itemsDepth items + 1
  | object fields => fieldsDepth fields + 1
  | _ => 0

/-- The depth of the deepest of some values. -/
def itemsDepth : List Json → Nat
  | [] => 0
  | item :: items => max item.depth (itemsDepth items)

/-- The depth of the deepest of some fields. -/
def fieldsDepth : List (List UInt8 × Json) → Nat
  | [] => 0
  | (_, value) :: fields => max value.depth (fieldsDepth fields)

end

/-- The deepest nesting that is read. -/
def maxDepth : Nat := 127

/-- A number as a setting. -/
def Numeral.toSetting? (numeral : Numeral) : Option Setting :=
  let whole? : Option Setting := do
    let n ← numeral.integer?
    if numeral.negative ∧ n = 0 then none else Setting.ofInt? n
  match whole? with
  | some setting => some setting
  | none => Setting.float <$> numeral.float?

mutual

/-- A value as a setting. -/
def toSetting? : Json → Option Setting
  | null => some .null
  | bool value => some (.bool value)
  | number numeral => numeral.toSetting?
  | string raw => Setting.text <$> textOf? raw
  | array items => Setting.list <$> itemSettings? items
  | object fields => Setting.tableOf <$> fieldSettings? fields

/-- The items of an array as settings. -/
def itemSettings? : List Json → Option (List Setting)
  | [] => some []
  | item :: items => do return (← item.toSetting?) :: (← itemSettings? items)

/-- The fields of an object as settings by name. -/
def fieldSettings? : List (List UInt8 × Json) → Option (List (String × Setting))
  | [] => some []
  | (name, value) :: fields => do
      return (← textOf? name, ← value.toSetting?) :: (← fieldSettings? fields)

end

/-- The setting tree that bytes spell. -/
def readSetting? (bytes : List UInt8) : Option Setting := do
  let document ← Json.read bytes
  if document.depth ≤ maxDepth then document.toSetting? else none

end FingerprintSet.Json
