import FingerprintSet.Settings.Tree
import FingerprintSet.Yaml.Token

/-!
# YAML documents

Tokens as nodes, and nodes as setting trees.  An alias stands for the node that had its anchor
last; an anchor whose node is not complete stands for nothing.  Settings need names, so fields
under keys that are no text do not count, and of several fields of one name the last one does.
-/

namespace FingerprintSet.Yaml

/-- A node of a document. -/
inductive Node
  | scalar (scalar : Scalar)
  | list (items : List Node)
  | mapping (fields : List (Node × Node))
  deriving Inhabited

/-- The node without a value. -/
def Node.void : Node :=
  scalar .void

/-- Tokens yet to be read, and the nodes that had anchors so far. -/
structure Reading where
  tokens : List Token
  anchors : Array (String × Node) := #[]
  deriving Inhabited

/-- Work on tokens that fails where they make up no document. -/
abbrev Read := StateT Reading Option

/-- The next token. -/
def next? : Read (Option Token) := do
  return (← get).tokens.head?

/-- Pass over the next token. -/
def drop : Read Unit :=
  modify fun reading => { reading with tokens := reading.tokens.tail }

/-- Whether the next token is one of some, which it is not passed over for. -/
def sees (tokens : List Token) : Read Bool := do
  return (← next?).any tokens.contains

/-- Pass over the next token if it is the given one, and say whether it was. -/
def drops (token : Token) : Read Bool := do
  if (← next?) = some token then
    drop
    return true
  else
    return false

/-! ## Anchors and tags -/

/-- What may stand in front of a node. -/
structure Properties where
  /-- The number of the node among those that had anchors. -/
  anchor : Option Nat := none
  /-- The handle and the suffix of a tag. -/
  tag : Option (String × String) := none
  deriving DecidableEq, Repr, Inhabited

/-- Take an anchor, if there is one, and give its node no value for now. -/
def takeAnchor (properties : Properties) : Read Properties := do
  match ← next? with
  | some (.anchor name) => do
      drop
      let index := (← get).anchors.size
      modify fun reading => { reading with anchors := reading.anchors.push (name, .void) }
      return { properties with anchor := some index }
  | _ => return properties

/-- Take a tag, if there is one. -/
def takeTag (properties : Properties) : Read Properties := do
  match ← next? with
  | some (.tag handle suffix) => do
      drop
      return { properties with tag := some (handle, suffix) }
  | _ => return properties

/-- Take an anchor and a tag in either order. -/
def takeProperties : Read Properties := do
  match ← next? with
  | some (.anchor _) => takeTag (← takeAnchor {})
  | some (.tag _ _) => takeAnchor (← takeTag {})
  | _ => return {}

/-- Give the node of an anchor its value. -/
def keep (properties : Properties) (node : Node) : Read Node := do
  match properties.anchor with
  | none => return node
  | some index =>
      modify fun reading =>
        { reading with anchors := reading.anchors.modify index fun named => (named.1, node) }
      return node

/-- The node that had an anchor last. -/
def resolve (name : String) : Read Node := do
  match (← get).anchors.toList.reverse.lookup name with
  | some node => return node
  | none => failure

/-- A scalar with the tag in front of it. -/
def scalarNode (tag : Option (String × String)) (isPlain : Bool) (text : List Char) : Node :=
  if !isPlain then .scalar (.text (String.ofList text))
  else
    match tag with
    | none => .scalar (.ofPlain text)
    | some ("!!", suffix) => .scalar (.ofTagged suffix text)
    | some _ => .scalar (.text (String.ofList text))

/-! ## Nodes -/

mutual

/-- A node.  `inBlock` says whether it may be a collection in block form, and `afterKey` whether
it may be a sequence that is no deeper than the mapping around it. -/
def takeNode (inBlock afterKey : Bool) : Nat → Read Node
  | 0 => failure
  | bound + 1 => do
      match ← next? with
      | some (.alias name) => do
          drop
          resolve name
      | _ => do
          let properties ← takeProperties
          match ← next? with
          | some (.scalar isPlain text) => do
              drop
              keep properties (scalarNode properties.tag isPlain text)
          | some .openBracket => do
              drop
              keep properties (.list (← takeFlowItems true bound))
          | some .openBrace => do
              drop
              keep properties (.mapping (← takeFlowFields true bound))
          | some token =>
              if token = .dash && afterKey then do
                keep properties (.list (← takeLevelItems bound))
              else if token = .sequenceStart && inBlock then do
                drop
                keep properties (.list (← takeBlockItems bound))
              else if token = .mappingStart && inBlock then do
                drop
                keep properties (.mapping (← takeBlockFields bound))
              else if properties.anchor.isSome || properties.tag.isSome then
                keep properties (scalarNode properties.tag true [])
              else
                failure
          | none => failure

/-- A node, or none before one of some tokens. -/
def takeNodeBefore (stops : List Token) (inBlock afterKey : Bool) : Nat → Read Node
  | 0 => failure
  | bound + 1 => do
      if ← sees stops then return .void else takeNode inBlock afterKey bound

/-- The fields of a mapping in block form. -/
def takeBlockFields : Nat → Read (List (Node × Node))
  | 0 => failure
  | bound + 1 => do
      if ← drops .blockEnd then
        return []
      else if ← drops .key then do
        let key ← takeNodeBefore [.key, .value, .blockEnd] true true bound
        let value ← takeBlockValue bound
        return (key, value) :: (← takeBlockFields bound)
      else if ← sees [.value] then do
        let value ← takeBlockValue bound
        return (.void, value) :: (← takeBlockFields bound)
      else
        failure

/-- The value behind a key in block form. -/
def takeBlockValue : Nat → Read Node
  | 0 => failure
  | bound + 1 => do
      if ← drops .value then takeNodeBefore [.key, .value, .blockEnd] true true bound
      else return .void

/-- The items of a sequence in block form. -/
def takeBlockItems : Nat → Read (List Node)
  | 0 => failure
  | bound + 1 => do
      if ← drops .blockEnd then
        return []
      else if ← drops .dash then do
        let item ← takeNodeBefore [.dash, .blockEnd] true false bound
        return item :: (← takeBlockItems bound)
      else
        failure

/-- The items of a sequence in block form that is no deeper than what is around it. -/
def takeLevelItems : Nat → Read (List Node)
  | 0 => failure
  | bound + 1 => do
      if ← drops .dash then do
        let item ← takeNodeBefore [.dash, .key, .value, .blockEnd] true false bound
        return item :: (← takeLevelItems bound)
      else
        return []

/-- The fields of a mapping in brackets.  All but the first come behind a comma. -/
def takeFlowFields (isFirst : Bool) : Nat → Read (List (Node × Node))
  | 0 => failure
  | bound + 1 => do
      if ← drops .closeBrace then
        return []
      else do
        let isParted ← drops .comma
        if isParted == isFirst then
          failure
        else if ← drops .closeBrace then
          return []
        else do
          let field ← takeFlowField bound
          return field :: (← takeFlowFields false bound)

/-- A field of a mapping in brackets, which may have a key alone. -/
def takeFlowField : Nat → Read (Node × Node)
  | 0 => failure
  | bound + 1 => do
      if ← drops .key then do
        let key ← takeNodeBefore [.value, .comma, .closeBrace] false false bound
        return (key, ← takeFlowValue .closeBrace bound)
      else if ← sees [.value] then
        return (.void, ← takeFlowValue .closeBrace bound)
      else
        return (← takeNode false false bound, .void)

/-- The value behind a key in brackets. -/
def takeFlowValue (close : Token) : Nat → Read Node
  | 0 => failure
  | bound + 1 => do
      if ← drops .value then takeNodeBefore [.comma, close] false false bound
      else return .void

/-- The items of a sequence in brackets.  All but the first come behind a comma. -/
def takeFlowItems (isFirst : Bool) : Nat → Read (List Node)
  | 0 => failure
  | bound + 1 => do
      if ← drops .closeBracket then
        return []
      else do
        let isParted ← drops .comma
        if isParted == isFirst then
          failure
        else if ← drops .closeBracket then
          return []
        else do
          let item ← takeFlowItem bound
          return item :: (← takeFlowItems false bound)

/-- An item of a sequence in brackets, which may be a mapping of one field. -/
def takeFlowItem : Nat → Read Node
  | 0 => failure
  | bound + 1 => do
      if ← drops .key then do
        if ← sees [.value, .comma, .closeBracket] then do
          drop
          return .mapping [(.void, ← takeFlowValue .closeBracket bound)]
        else do
          let key ← takeNode false false bound
          return .mapping [(key, ← takeFlowValue .closeBracket bound)]
      else
        takeNode false false bound

end

/-! ## Documents -/

/-- Pass over tokens of one kind. -/
def dropAll (token : Token) : Nat → Read Unit
  | 0 => pure ()
  | bound + 1 => do
      if ← drops token then dropAll token bound

/-- The documents of a text.  All but the first start with a mark. -/
def takeDocuments (isFirst : Bool) : Nat → Read (List Node)
  | 0 => failure
  | bound + 1 => do
      if !isFirst then dropAll .documentEnd (bound + 1)
      if ← drops .streamEnd then
        return []
      else do
        let isMarked ← sees [.directive, .documentStart]
        let node ←
          if isMarked || !isFirst then do
            dropAll .directive (bound + 1)
            if ← drops .documentStart then
              takeNodeBefore [.directive, .documentStart, .documentEnd, .streamEnd] true false
                bound
            else
              failure
          else
            takeNode true false bound
        let _ ← drops .documentEnd
        return node :: (← takeDocuments false bound)

/-- The documents that a text spells. -/
def documents? (text : List Char) : Option (List Node) := do
  let tokens ← Token.ofText text
  let (documents, _) ← takeDocuments true (4 * tokens.length + 4) { tokens }
  return documents

/-! ## Settings -/

/-- The name that a key is. -/
def Node.name? : Node → Option String
  | scalar (.text name) => some name
  | _ => none

/-- A scalar as a setting. -/
def Scalar.toSetting? : Scalar → Option Setting
  | void => some .null
  | bool value => some (.bool value)
  | int value => some (.int value)
  | real digits => Setting.float <$> Decimal.float? digits
  | text value => some (.text value)

mutual

/-- A node as a setting. -/
def Node.toSetting? : Node → Option Setting
  | .scalar scalar => scalar.toSetting?
  | .list items => Setting.list <$> itemSettings? items
  | .mapping fields => Setting.tableOf <$> fieldSettings? fields

/-- Items as settings. -/
def itemSettings? : List Node → Option (List Setting)
  | [] => some []
  | item :: rest => do return (← item.toSetting?) :: (← itemSettings? rest)

/-- Fields as settings by name.  A field that a later one replaces does not count. -/
def fieldSettings? : List (Node × Node) → Option (List (String × Setting))
  | [] => some []
  | (key, value) :: rest =>
      match key.name? with
      | none => fieldSettings? rest
      | some name =>
          if rest.any fun field => field.1.name? = some name then fieldSettings? rest
          else do return (name, ← value.toSetting?) :: (← fieldSettings? rest)

end

/-- The setting tree that a text spells.  Without any document it has no fields, and more than
one document is too many. -/
def readSetting? (text : List Char) : Option Setting := do
  match ← documents? text with
  | [] => return .empty
  | [node] => node.toSetting?
  | _ => none

end FingerprintSet.Yaml
