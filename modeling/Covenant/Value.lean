import Covenant.HostType
import Covenant.Number.Binary

/-!
# Values and predicates

A value is self-describing: every node carries its host type, and the items of a container are
values themselves. Lists, dictionaries and pointers may be *objects*, which have an identity so
that writing into one shows wherever it is shared; identity `0` marks a temporary.

A predicate is a type of the contract language. Predicates occur as values, and values occur in
predicates.
-/

set_option autoImplicit false

namespace Covenant

/-- The identity of a shared container. -/
abbrev ObjectId := Nat

inductive Builtin where
  | len
  | abs
  | min
  | max
  | sum
  | all
  | any
  | int
  | float
  | str
  | bool
  | round
  | isnan
  | isinf
  | isfinite
  | sorted
  | range
  deriving DecidableEq, Repr

inductive NumberClass where
  | numeric
  | extendedReal
  | number
  | integer
  | natural0
  | natural1
  | positive0
  | positive
  deriving DecidableEq, Repr

inductive TextClass where
  | text
  | identifier
  | alphanumeric
  | latin
  deriving DecidableEq, Repr

inductive Interval where
  | closed
  | closedOpen
  | openClosed
  | opened
  deriving DecidableEq, Repr

mutual

/-- A value of the host program. -/
inductive Value where
  | nil
  | bool (type : HostType) (value : Bool)
  | int (type : HostType) (value : Int)
  | float (type : HostType) (value : Float)
  | text (type : HostType) (value : Text)
  | list (type : HostType) (object : ObjectId) (items : List Value)
  | dict (type : HostType) (object : ObjectId) (entries : List (Value × Value))
  | pointer (type : HostType) (object : ObjectId) (target : Value)
  /-- The absent slice, map, pointer or function of a type. -/
  | absent (type : HostType)
  | record (type : HostType) (fields : List Value)
  | function (type : HostType) (function : FunctionRef)
  | predicate (object : ObjectId) (predicate : Predicate)

inductive FunctionRef where
  | builtin (builtin : Builtin)
  | host (name : Text)
  | method (receiver : Value) (name : Text)

/-- A type of the contract language. -/
inductive Predicate where
  | number (family : NumberClass)
  | range (low high : Float) (interval : Interval)
  | text (family : TextClass)
  | boolean
  | nothing
  | function
  | constant (value : Value)
  /-- Accepts everything and generates the samples of another predicate, if any. -/
  | unchecked (samples : Option Predicate)
  | self
  | positionalArguments
  | keywordArguments
  | allOf (members : List Predicate)
  | anyOf (members : List Predicate)
  | complement (member : Predicate)
  | list (element : Predicate)
  | tuple (elements : List Predicate)
  | dict (key value : Predicate)
  | oneOf (members : List Value)
  | parameters (entries : List (Text × Predicate)) (allMandatory : Bool)
  | array (dimensions : Nat) (element : Option Predicate)
  | generic (type : HostType)

end

instance : Inhabited Value := ⟨.nil⟩

namespace Value

/-- The 64-bit integers in which conditions compute. -/
def ofInt (value : Int) : Value := .int .int64 value

def ofWord (value : Int) : Value := .int .wordInt value

def ofFloat (value : Float) : Value := .float .double value

def ofText (value : Text) : Value := .text .text value

def ofBool (value : Bool) : Value := .bool .bool value

def ofList (items : List Value) : Value := .list .anySlice 0 items

end Value

/-!
## Predicates as host values
-/

def Predicate.hostType : Predicate → HostType
  | .number .numeric => .named "types.Numeric" .struct
  | .number .extendedReal => .named "types.ExtendedReal" .struct
  | .number .number => .named "types.Number" .struct
  | .number .integer => .named "types.Integer" .struct
  | .number .natural0 => .named "types.Natural0" .struct
  | .number .natural1 => .named "types.Natural1" .struct
  | .number .positive0 => .named "types.Positive0" .struct
  | .number .positive => .named "types.Positive" .struct
  | .range .. => .pointer (.named "types.Range" .struct)
  | .text .text => .named "types.String" .struct
  | .text .identifier => .named "types.Identifier" .struct
  | .text .alphanumeric => .named "types.Alphanumeric" .struct
  | .text .latin => .named "types.Latin" .struct
  | .boolean => .named "types.Boolean" .struct
  | .nothing => .named "types.Nothing" .struct
  | .function => .named "types.Function" .struct
  | .constant _ => .named "types.Constant" .struct
  | .unchecked _ => .named "types.Unchecked" .struct
  | .self => .named "types.Self" .struct
  | .positionalArguments => .named "types.PositionalArguments" .struct
  | .keywordArguments => .named "types.KeywordArguments" .struct
  | .allOf _ => .named "types.and" .struct
  | .anyOf _ => .named "types.or" .struct
  | .complement _ => .named "types.not" .struct
  | .list _ => .named "types.list" .struct
  | .tuple _ => .named "types.tuple" .struct
  | .dict .. => .named "types.dict" .struct
  | .oneOf _ => .named "types.set" .struct
  | .parameters .. => .named "types.parametersDict" .struct
  | .array .. => .named "types.ndarray" .struct
  | .generic _ => .pointer (.named "types.Generic" .struct)

namespace Value

def type? : Value → Option HostType
  | .nil => none
  | .bool type _ | .int type _ | .float type _ | .text type _ | .list type _ _
  | .dict type _ _ | .pointer type _ _ | .absent type | .record type _
  | .function type _ => some type
  | .predicate _ inner => some inner.hostType

def typeLabel (value : Value) : Text :=
  match value.type? with
  | none => "<nil>"
  | some type => type.label

def isNil : Value → Bool
  | .nil => true
  | _ => false

def plainText? : Value → Option Text
  | .text .text value => some value
  | _ => none

def plainBool? : Value → Option Bool
  | .bool .bool value => some value
  | _ => none

/-!
## Values as numbers

Integers and floating-point numbers of every width are numbers; booleans are not.
-/

def asFloat? : Value → Option Float
  | .int _ value => some (Number.ofInt value)
  | .float _ value => some value
  | _ => none

def isNumber (value : Value) : Bool := value.asFloat?.isSome

def isInteger : Value → Bool
  | .int .. => true
  | _ => false

def items? : Value → Option (List Value)
  | .list _ _ items => some items
  | .absent type => match type.underlying with
      | .slice _ => some []
      | _ => none
  | _ => none

def entries? : Value → Option (List (Value × Value))
  | .dict _ _ entries => some entries
  | .absent type => match type.underlying with
      | .map .. => some []
      | _ => none
  | _ => none

def arrayParts? : Value → Option (Value × Value)
  | .record type [shape, data] => if type = .numericArray then some (shape, data) else none
  | _ => none

def ints (value : Value) : List Int :=
  (value.items?.getD []).filterMap fun
    | .int _ number => some number
    | _ => none

def floats (value : Value) : List Float :=
  (value.items?.getD []).filterMap fun
    | .float _ number => some number
    | _ => none

def ofArray (shape : List Int) (data : List Float) : Value :=
  .record .numericArray
    [.list (.slice .wordInt) 0 (shape.map .ofWord), .list (.slice .double) 0 (data.map .ofFloat)]

end Value

end Covenant
