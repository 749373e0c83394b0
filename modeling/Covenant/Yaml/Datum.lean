import Covenant.Text.Quoted
import Covenant.Value.Equality
import Covenant.Yaml.Node
import Covenant.Yaml.Scalar

/-!
# Data of a document

A node without further expectations is read as data. Keys that stand twice in a mapping are
complaints; so are nodes of the wrong kind. All complaints are gathered. A few things make a
document unusable at once.
-/

set_option autoImplicit false

namespace Covenant.Yaml

inductive Datum where
  | scalar (value : Scalar)
  | list (items : List Datum)
  /-- A mapping is named if all its keys are text. -/
  | map (named : Bool) (entries : List (Scalar × Datum))

/-- Reads nodes and gathers complaints; nothing if the document is unusable. -/
abbrev Reading := StateT (List Text) Option

def complain (complaint : Text) : Reading Unit := modify (· ++ [complaint])

/-!
## Nodes
-/

namespace Node

def isMerge : Node → Bool
  | .scalar .plain value _ => value == "<<"
  | _ => false

def tag (node : Node) : Text :=
  match node with
  | .scalar style value _ =>
    if node.isMerge then "!!merge" else (Scalar.of style value).tag
  | .sequence .. => "!!seq"
  | .mapping .. => "!!map"

def text : Node → Text
  | .scalar _ value _ => value
  | _ => []

/-- Whether two nodes look the same as keys: both scalars, both sequences or both mappings, with the
same text. -/
def sameKey : Node → Node → Bool
  | .scalar _ left _, .scalar _ right _ => left == right
  | .sequence .., .sequence .. => true
  | .mapping .., .mapping .. => true
  | _, _ => false

def cited (text : Text) : Text :=
  " `" ++ (if 10 < text.length then text.take 7 ++ "..." else text) ++ "`"

def misfit (node : Node) (type : String) : Text :=
  let text := match node with
    | .scalar _ value _ => cited value
    | _ => []
  "line " ++ Text.ofNat node.line ++ ": cannot unmarshal " ++ node.tag
    ++ text ++ " into " ++ Text.ofString type

def repeatedKey (earlier later : Node) : Text :=
  "line " ++ Text.ofNat later.line ++ ": mapping key "
    ++ Text.quoted later.text ++ " already defined at line " ++ Text.ofNat earlier.line

def repeatedKeys : List Node → List Text
  | [] => []
  | key :: others =>
    (others.filter (sameKey key)).map (repeatedKey key) ++ repeatedKeys others

end Node

def checkKeys (entries : List (Node × Node)) : Reading Bool := do
  let complaints := Node.repeatedKeys (entries.map (·.1))
  complaints.forM complain
  return complaints.isEmpty

def readKey (node : Node) : Reading (Option Text) :=
  match node with
  | .scalar style value _ =>
    match Scalar.of style value with
    | .null => return none
    | _ => return some value
  | .sequence .. => do
      complain (node.misfit "string")
      return none
  | .mapping entries _ => do
      if ← checkKeys entries then complain (node.misfit "string")
      return none

def Scalar.toValue : Scalar → Value
  | .null => .nil
  | .bool value => .ofBool value
  | .int value => if value < 0x8000000000000000 then .ofWord value else .int (.int .uint64) value
  | .float value => .ofFloat value
  | .time _ => .record (.named "time.Time" .struct) []
  | .text value => .ofText value

def setEntry (key : Scalar) (value : Datum) : List (Scalar × Datum) → List (Scalar × Datum)
  | [] => [(key, value)]
  | entry :: entries =>
    if key.toValue.sameKey entry.1.toValue then (entry.1, value) :: entries
    else entry :: setEntry key value entries

mutual

/-- Reads a node as data; nothing if a complaint stands in the way. The key that merges mappings is
no datum. -/
def readDatum : Node → Reading (Option Datum)
  | .scalar style value line =>
    if Node.isMerge (.scalar style value line) then failure
    else return some (.scalar (Scalar.of style value))
  | .sequence items _ => do return some (.list (← readItems items))
  | .mapping entries _ => do
      if !(← checkKeys entries) then return none
      else if entries.any (·.1.isMerge) then failure
      else
        let named := entries.all (fun entry => entry.1.tag == "!!str")
        return some (.map named (← readEntries [] entries))

def readItems : List Node → Reading (List Datum)
  | [] => return []
  | item :: items => do
      let datum ← readDatum item
      let rest ← readItems items
      return datum.toList ++ rest

/-- Reads the entries of a mapping. A collection cannot be a key. -/
def readEntries (done : List (Scalar × Datum)) :
    List (Node × Node) → Reading (List (Scalar × Datum))
  | [] => return done
  | (key, value) :: entries => do
      match key with
      | .scalar style text _ =>
        match ← readDatum value with
        | none => readEntries done entries
        | some datum => readEntries (setEntry (Scalar.of style text) datum done) entries
      | _ => failure

end

/-!
## Values of data
-/

mutual

def Datum.toValue : Datum → Value
  | .scalar value => value.toValue
  | .list items => .list .anySlice 0 (Datum.toValues items)
  | .map named entries =>
    .dict (if named then .namedValues else .map .any .any) 0 (Datum.toEntries entries)

def Datum.toValues : List Datum → List Value
  | [] => []
  | item :: items => item.toValue :: Datum.toValues items

def Datum.toEntries : List (Scalar × Datum) → List (Value × Value)
  | [] => []
  | (key, datum) :: entries => (key.toValue, datum.toValue) :: Datum.toEntries entries

end

end Covenant.Yaml
