import FingerprintSet.Word

/-!
# Setting trees

What a source of settings says, before it is known which settings there are: values of a few
kinds, and tables of values by name.  One tree can be laid over another; tables meet name by
name, and any other value hides what was below it.
-/

namespace FingerprintSet

/-- A value in a source of settings. -/
inductive Setting
  | null
  | bool (value : Bool)
  /-- A whole number of 64 bits with a sign. -/
  | int (value : Int)
  | float (value : Float)
  | text (value : String)
  | list (items : List Setting)
  /-- Values by name; a name comes once. -/
  | table (fields : List (String × Setting))
  deriving Inhabited

namespace Setting

/-- The whole number `n`, if 64 bits with a sign hold it. -/
def ofInt? (n : Int) : Option Setting :=
  if Word.isSigned n then some (int n) else none

/-- The table without fields. -/
def empty : Setting :=
  table []

/-- The fields of a table; other values have none. -/
def fields : Setting → List (String × Setting)
  | table fields => fields
  | _ => []

/-- The items of a list; other values have none. -/
def items : Setting → List Setting
  | list items => items
  | _ => []

/-- Fields with the value under one name put in place of what was there. -/
def putField (name : String) (value : Setting) :
    List (String × Setting) → List (String × Setting)
  | [] => [(name, value)]
  | (other, old) :: rest =>
      if other = name then (name, value) :: rest else (other, old) :: putField name value rest

/-- The value under a name. -/
def field? (tree : Setting) (name : String) : Option Setting :=
  tree.fields.lookup name

/-- A table with a value put under a name.  What is not a table becomes one. -/
def put (tree : Setting) (name : String) (value : Setting) : Setting :=
  table (putField name value tree.fields)

mutual

/-- A value laid over another one.  The fields of a table are laid over it one by one, which
leaves it alone if there are none. -/
def onTop : Setting → Setting → Setting
  | table fields, below => layFields fields below
  | value, _ => value

/-- Fields laid over a value one by one. -/
def layFields : List (String × Setting) → Setting → Setting
  | [], below => below
  | (name, value) :: rest, below =>
      layFields rest (below.put name (value.onTop ((below.field? name).getD empty)))

end

/-- Fields where a name may come twice as a table; what comes last counts. -/
def tableOf (fields : List (String × Setting)) : Setting :=
  fields.foldl (fun tree field => tree.put field.1 field.2) empty

end Setting

end FingerprintSet
