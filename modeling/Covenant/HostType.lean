import Covenant.Text

/-!
# Host types

Every value carries the static type that it has in the host program. Two types are the same when
their descriptors are equal. The fields of structures and the methods of interfaces are declared by
the host world.
-/

set_option autoImplicit false

namespace Covenant

inductive IntKind where
  | int
  | int8
  | int16
  | int32
  | int64
  | uint
  | uint8
  | uint16
  | uint32
  | uint64
  | uintptr
  deriving DecidableEq, Repr

namespace IntKind

def label : IntKind → String
  | .int => "int"
  | .int8 => "int8"
  | .int16 => "int16"
  | .int32 => "int32"
  | .int64 => "int64"
  | .uint => "uint"
  | .uint8 => "uint8"
  | .uint16 => "uint16"
  | .uint32 => "uint32"
  | .uint64 => "uint64"
  | .uintptr => "uintptr"

def isSigned : IntKind → Bool
  | .int | .int8 | .int16 | .int32 | .int64 => true
  | _ => false

def bits : IntKind → Nat
  | .int8 | .uint8 => 8
  | .int16 | .uint16 => 16
  | .int32 | .uint32 => 32
  | _ => 64

def least (kind : IntKind) : Int :=
  if kind.isSigned then -((Nat.pow 2 (kind.bits - 1) : Nat) : Int) else 0

def greatest (kind : IntKind) : Int :=
  ((if kind.isSigned then Nat.pow 2 (kind.bits - 1) else Nat.pow 2 kind.bits : Nat) : Int) - 1

def holds (kind : IntKind) (value : Int) : Bool := kind.least ≤ value && value ≤ kind.greatest

/-- The number of a kind that is congruent to the given one. -/
def wrap (kind : IntKind) (value : Int) : Int :=
  if kind.isSigned then value.bmod (Nat.pow 2 kind.bits) else value % (Nat.pow 2 kind.bits : Nat)

end IntKind

inductive FloatKind where
  | single
  | double
  deriving DecidableEq, Repr

inductive HostType where
  | bool
  | int (kind : IntKind)
  | float (kind : FloatKind)
  | text
  | any
  | slice (element : HostType)
  | array (length : Nat) (element : HostType)
  | map (key value : HostType)
  | pointer (target : HostType)
  | func (label : Text)
  | struct
  | interface
  | named (name : Text) (underlying : HostType)
  deriving DecidableEq, Repr

namespace HostType

def label : HostType → Text
  | .bool => "bool"
  | .int kind => kind.label
  | .float .single => "float32"
  | .float .double => "float64"
  | .text => "string"
  | .any => "interface {}"
  | .slice element => "[]" ++ element.label
  | .array length element =>
    "[" ++ Text.ofNat length ++ "]" ++ element.label
  | .map key value =>
    "map[" ++ key.label ++ "]" ++ value.label
  | .pointer target => "*" ++ target.label
  | .func label => label
  | .struct => "struct {}"
  | .interface => "interface {}"
  | .named name _ => name

def underlying : HostType → HostType
  | .named _ type => type.underlying
  | type => type

/-- Types that have a name, which the basic ones do. -/
def isNamed : HostType → Bool
  | .named .. | .bool | .int _ | .float _ | .text => true
  | _ => false

def isInterface (type : HostType) : Bool :=
  match type.underlying with
  | .any | .interface => true
  | _ => false

def hasNil (type : HostType) : Bool :=
  match type.underlying with
  | .any | .interface | .slice _ | .map .. | .pointer _ | .func _ => true
  | _ => false

def isText (type : HostType) : Bool := type.underlying = .text

/-- What a collection holds or a pointer leads to. -/
def element : HostType → HostType
  | .slice element | .array _ element | .map _ element | .pointer element => element
  | .named _ type => type.element
  | _ => .any

def key : HostType → HostType
  | .map key _ => key
  | .named _ type => type.key
  | _ => .any

/-- The name of a type without its package. -/
def shortName : HostType → Text
  | .named name _ => (name.reverse.takeWhile (· != 46)).reverse
  | .bool => "bool"
  | .int kind => kind.label
  | .float .single => "float32"
  | .float .double => "float64"
  | .text => "string"
  | _ => []

/-- Types whose values can be compared, and so be keys. -/
def isComparable : HostType → Bool
  | .slice _ | .map .. | .func _ => false
  | .array _ element => element.isComparable
  | .named name type => name != "types.Array" && type.isComparable
  | _ => true

abbrev int64 : HostType := .int .int64

abbrev wordInt : HostType := .int .int

abbrev double : HostType := .float .double

abbrev anySlice : HostType := .slice .any

abbrev namedValues : HostType := .map .text .any

abbrev anyMap : HostType := .map .any .any

def duration : HostType := .named "time.Duration" (.int .int64)

def numericArray : HostType := .named "types.Array" .struct

def error : HostType := .named "error" .interface

def builtin : HostType :=
  .named "condition.builtin" (.func "func([]interface {}) (interface {}, error)")

end HostType

end Covenant
