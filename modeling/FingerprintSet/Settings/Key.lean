import FingerprintSet.Text.Digits
import FingerprintSet.Settings.Tree

/-!
# Keys

A key says where in a tree a value goes: `memory.budget_bytes` is a field of a table that is a
field of the root, and `pages[2]` an item of a list.  A name that cannot be read in this way is
the name of a field of the root.
-/

namespace FingerprintSet.Settings

open Text

/-- One step from a value to a value inside it. -/
inductive KeyStep
  | field (name : String)
  /-- An item by its position, counted from the end if it is negative. -/
  | item (index : Int)
  deriving DecidableEq, Repr, Inhabited

/-- The steps from the root to a value. -/
abbrev Key := List KeyStep

namespace Key

/-- Whether a character can stand in a name that is a part of a key. -/
def isNameChar (c : Char) : Bool :=
  c.isAlphanum || c = '_' || c = '-' || c = ' '

/-- Whether a character can stand beside an index. -/
def isPadding (c : Char) : Bool :=
  c = ' ' || c = '\t'

/-- A name at the front of a text, and what comes after it. -/
def takeName (text : List Char) : Option (String × List Char) :=
  match text.span isNameChar with
  | ([], _) => none
  | (name, rest) => some (String.ofList name, rest)

/-- An index and its closing bracket at the front of a text, and what comes after them. -/
def takeIndex (text : List Char) : Option (Int × List Char) :=
  let text := text.dropWhile isPadding
  let (negative, text) :=
    match text with
    | '-' :: rest => (true, rest)
    | _ => (false, text)
  match takeDigits text with
  | ([], _) => none
  | (ds, rest) =>
      let index : Int := if negative then -(ofDigits ds : Int) else ofDigits ds
      match rest.dropWhile isPadding with
      | ']' :: rest => if Word.isSigned index then some (index, rest) else none
      | _ => none

/-- The steps behind the first one, at most `bound` of them. -/
def takeSteps : Nat → List Char → Option Key
  | _, [] => some []
  | bound + 1, '.' :: rest => do
      let (name, rest) ← takeName rest
      return .field name :: (← takeSteps bound rest)
  | bound + 1, '[' :: rest => do
      let (index, rest) ← takeIndex rest
      return .item index :: (← takeSteps bound rest)
  | _, _ => none

/-- The steps that a text spells out. -/
def steps? (text : String) : Option Key := do
  let (name, rest) ← takeName text.toList
  return .field name :: (← takeSteps rest.length rest)

/-- The key that a text stands for. -/
def ofText (text : String) : Key :=
  (steps? text).getD [.field text]

end Key

/-- The position of an item in a list; no index reaches before the first one. -/
def itemPosition (length : Nat) (index : Int) : Nat :=
  if 0 ≤ index then index.toNat else ((length : Int) + index).toNat

/-- A list with an item put in place of what was there.  A list that is too short is filled up
with nulls. -/
def putItem (items : List Setting) (position : Nat) (item : Setting) : List Setting :=
  (items ++ List.replicate (position + 1 - items.length) Setting.null).set position item

end FingerprintSet.Settings

namespace FingerprintSet.Setting

open Settings

/-- A value laid over what a key leads to from `below`.  On the way, whatever does not have
the field or the item asked for gives way to a table or a list that does.  An item is
replaced rather than overlaid. -/
def overAt (value : Setting) : Key → Option Setting → Setting
  | [], below => value.onTop (below.getD empty)
  | .field name :: rest, below =>
      let parent := below.getD empty
      parent.put name (value.overAt rest (parent.field? name))
  | .item index :: rest, below =>
      let old := (below.getD empty).items
      let position := itemPosition old.length index
      let inner := if rest.isEmpty then none else old[position]?
      list (putItem old position (value.overAt rest inner))

/-- A tree with a value laid over what a key leads to. -/
def set (tree : Setting) (key : Key) (value : Setting) : Setting :=
  value.overAt key (some tree)

/-- A tree with values laid over it, each by the key that its name stands for. -/
def setAll (tree : Setting) (values : List (String × Setting)) : Setting :=
  values.foldl (fun tree value => tree.set (Key.ofText value.1) value.2) tree

end FingerprintSet.Setting
