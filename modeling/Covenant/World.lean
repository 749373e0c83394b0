import Covenant.Failure
import Covenant.Location
import Covenant.Memory

/-!
# The host world

What the engine is told about the program it checks: the fields of its structures, the methods of
its types, its functions with their behaviour, and the registered classes.
-/

set_option autoImplicit false

namespace Covenant

structure Field where
  name : Text
  exported : Bool
  embedded : Bool
  type : HostType
  deriving DecidableEq

/-- What a function takes and gives. A fallible one may fail instead of giving its results. -/
structure Signature where
  parameters : List HostType
  variadic : Bool
  results : List HostType
  fallible : Bool

namespace Signature

def parameterLabels (variadic : Bool) : List HostType → List Text
  | [] => []
  | [type] => [if variadic then "..." ++ type.element.label else type.label]
  | type :: types => type.label :: parameterLabels variadic types

def resultLabels (signature : Signature) : List Text :=
  signature.results.map HostType.label
    ++ if signature.fallible then [HostType.error.label] else []

def label (signature : Signature) : Text :=
  enclosed "func(" ", " ")" (parameterLabels signature.variadic signature.parameters)
    ++ match signature.resultLabels with
      | [] => []
      | [result] => 32 :: result
      | results => enclosed " (" ", " ")" results

def type (signature : Signature) : HostType := .func signature.label

end Signature

/-- What a function of the program answers. A hung one never does. -/
inductive Reply where
  | returned (results : List Value)
  | failed (failure : Failure)
  | crashed (value : Text)
  | hung

structure HostFunction where
  name : Text
  title : Text
  signature : Signature

/-- The program under contract, as far as the engine can tell: its types, its functions, and how
these behave in a memory. -/
structure Host where
  fields : HostType → List Field
  methods : HostType → List (Text × Signature)
  functions : List HostFunction
  location : Text → Location
  call : Text → List Value → Memory → Reply × Memory
  callMethod : Value → Text → List Value → Memory → Reply × Memory
  /-- The digest by which a change of a value is noticed. Some values have none. -/
  digest? : Value → Option UInt64
  /-- Whether a call with these arguments outlasts a limit in nanoseconds, and then how many calls
  may be made meanwhile. -/
  delay? : Int → Bindings → Memory → Option Nat

namespace Host

def function? (host : Host) (name : Text) : Option HostFunction :=
  host.functions.find? (fun function => function.name == name)

def locationOf (host : Host) : Value → Location
  | .function _ (.host name) => host.location name
  | _ => .unknown

def method? (host : Host) (type : HostType) (name : Text) : Option Signature :=
  (host.methods type).lookup name

end Host

/-- What is registered for a type: the types it descends from, a test besides theirs, samples. -/
structure ClassInfo where
  parents : List HostType
  test : Option (Value → Except Failure Unit)
  generate : Option (Except Failure (List Value))

abbrev ClassTable := List (HostType × ClassInfo)

structure World where
  host : Host
  classes : ClassTable

/-!
## Ancestries

The ancestry of a class lists every type it descends from, each once, ancestors before descendants
and the class itself last.
-/

namespace ClassTable

def find? (classes : ClassTable) (type : HostType) : Option ClassInfo := classes.lookup type

def parents (classes : ClassTable) (type : HostType) : List HostType :=
  ((find? classes type).map (·.parents)).getD []

/-- A walk through the ancestors of a type: those that were met, and those that are listed. -/
structure Walk where
  met : List HostType
  listed : List HostType

def walk (classes : ClassTable) : Nat → HostType → Walk → Walk
  | 0, _, state => state
  | depth + 1, type, state =>
    if type ∈ state.met then state
    else
      let state := (parents classes type).foldl
        (fun state parent => walk classes depth parent state)
        { state with met := type :: state.met }
      { state with listed := state.listed ++ [type] }

def ancestry (classes : ClassTable) (type : HostType) : List HostType :=
  (walk classes (classes.length + 2) type ⟨[], []⟩).listed

def descends (classes : ClassTable) (type ancestor : HostType) : Bool :=
  ancestor ∈ ancestry classes type

def register (classes : ClassTable) (type : HostType) (info : ClassInfo) : ClassTable :=
  (type, info) :: classes.filter (fun entry => entry.1 != type)

end ClassTable

end Covenant
