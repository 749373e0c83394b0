import Covenant.Value

/-!
# Memory

A value holds the contents of its shared objects as they were when it was made. The memory keeps the
present contents of every object that was written since, and *viewing* a value brings all of it up
to date.
-/

set_option autoImplicit false

namespace Covenant

mutual

def Value.refresh (present : ObjectId → Option Value) : Value → Value
  | .list type object items =>
    match present object with
    | some contents => contents
    | none => .list type object (Value.refreshAll present items)
  | .dict type object entries =>
    match present object with
    | some contents => contents
    | none => .dict type object (Value.refreshEntries present entries)
  | .pointer type object target =>
    match present object with
    | some contents => contents
    | none => .pointer type object (target.refresh present)
  | .record type fields => .record type (Value.refreshAll present fields)
  | .function type function => .function type (function.refresh present)
  | .predicate object inner => .predicate object (inner.refresh present)
  | .nil => .nil
  | .bool type value => .bool type value
  | .int type value => .int type value
  | .float type value => .float type value
  | .text type value => .text type value
  | .absent type => .absent type

def Value.refreshAll (present : ObjectId → Option Value) : List Value → List Value
  | [] => []
  | value :: values => value.refresh present :: Value.refreshAll present values

def Value.refreshEntries (present : ObjectId → Option Value) :
    List (Value × Value) → List (Value × Value)
  | [] => []
  | (key, value) :: entries =>
    (key.refresh present, value.refresh present) :: Value.refreshEntries present entries

def FunctionRef.refresh (present : ObjectId → Option Value) : FunctionRef → FunctionRef
  | .method receiver name => .method (receiver.refresh present) name
  | .builtin builtin => .builtin builtin
  | .host name => .host name

def Predicate.refresh (present : ObjectId → Option Value) : Predicate → Predicate
  | .constant value => .constant (value.refresh present)
  | .oneOf members => .oneOf (Value.refreshAll present members)
  | .unchecked (some samples) => .unchecked (some (samples.refresh present))
  | .unchecked none => .unchecked none
  | .allOf members => .allOf (Predicate.refreshAll present members)
  | .anyOf members => .anyOf (Predicate.refreshAll present members)
  | .complement member => .complement (member.refresh present)
  | .list element => .list (element.refresh present)
  | .tuple elements => .tuple (Predicate.refreshAll present elements)
  | .dict key value => .dict (key.refresh present) (value.refresh present)
  | .parameters entries allMandatory =>
    .parameters (Predicate.refreshEntries present entries) allMandatory
  | .array dimensions (some element) => .array dimensions (some (element.refresh present))
  | .array dimensions none => .array dimensions none
  | .number family => .number family
  | .range low high interval => .range low high interval
  | .text family => .text family
  | .boolean => .boolean
  | .nothing => .nothing
  | .function => .function
  | .self => .self
  | .positionalArguments => .positionalArguments
  | .keywordArguments => .keywordArguments
  | .generic type => .generic type

def Predicate.refreshAll (present : ObjectId → Option Value) : List Predicate → List Predicate
  | [] => []
  | predicate :: predicates =>
    predicate.refresh present :: Predicate.refreshAll present predicates

def Predicate.refreshEntries (present : ObjectId → Option Value) :
    List (Text × Predicate) → List (Text × Predicate)
  | [] => []
  | (name, predicate) :: entries =>
    (name, predicate.refresh present) :: Predicate.refreshEntries present entries

end

structure Memory where
  written : List (ObjectId × Value)
  next : ObjectId

namespace Memory

/-- Identities from here on are given to objects that the engine makes itself. -/
def firstOwn : ObjectId := 0x10000000000

def empty : Memory := ⟨[], firstOwn⟩

instance : Inhabited Memory := ⟨empty⟩

def present (memory : Memory) (object : ObjectId) : Option Value :=
  memory.written.lookup object

def view (memory : Memory) (value : Value) : Value :=
  if memory.written.isEmpty then value else value.refresh memory.present

def viewAll (memory : Memory) (values : List Value) : List Value :=
  if memory.written.isEmpty then values else Value.refreshAll memory.present values

def viewPredicate (memory : Memory) (predicate : Predicate) : Predicate :=
  if memory.written.isEmpty then predicate else predicate.refresh memory.present

/-- Gives an object new contents, also inside other objects; temporaries are not remembered. -/
def write (memory : Memory) (object : ObjectId) (contents : Value) : Memory :=
  if object = 0 then memory
  else
    let only := fun other => if other = object then some contents else none
    { memory with
      written := (object, contents) ::
        (memory.written.filter (fun entry => entry.1 != object)).map
          (fun entry => (entry.1, entry.2.refresh only)) }

def allocate (memory : Memory) : ObjectId × Memory :=
  (memory.next, { memory with next := memory.next + 1 })

end Memory

end Covenant
