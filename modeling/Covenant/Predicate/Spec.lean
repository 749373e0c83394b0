import Covenant.Predicate.Test

/-!
# Specifications

What a contract's author writes where a type is wanted: nothing, a predicate, a host type, or by
mistake some other value. A specification is read into a predicate, or refused.
-/

set_option autoImplicit false

namespace Covenant

/-- What is given where a type is wanted. -/
inductive Given where
  | nothing
  | predicate (predicate : Predicate)
  | hostType (type : HostType)
  | value (value : Value)

inductive Spec where
  | nothing
  | simple (predicate : Predicate)
  | range (low high : Float) (interval : Interval)
  | allOf (members : List Spec)
  | anyOf (members : List Spec)
  | complement (member : Spec)
  | list (element : Spec)
  | tuple (elements : List Spec)
  | dict (key value : Spec)
  | oneOf (members : List Value)
  | constant (value : Value)
  | unchecked (samples : Spec)
  | parameters (entries : List (Text × Spec)) (allMandatory : Bool)
  | array (dimensions : Int) (element : Option Spec)
  | generic (type : Option HostType)
  | hostType (type : HostType)
  | raw (value : Value)

namespace Predicate

def ofHostType (type : Option HostType) : Except Failure Predicate :=
  match type with
  | some type => .ok (.generic type)
  | none => .error (.invalidType "Generic needs a non-nil reflect.Type")

/-- The type that is meant; absent values mean that there is none. -/
def ofGiven : Given → Except Failure Predicate
  | .nothing => .ok .nothing
  | .predicate inner => .ok inner
  | .hostType type => ofHostType (some type)
  | .value .nil => .ok .nothing
  | .value (.predicate _ inner) => .ok inner
  | .value other =>
    .error (.invalidType (other.message ++ " (" ++ other.typeLabel ++ ") is not a type"))

def ofRange (low high : Float) (interval : Interval) : Except Failure Predicate :=
  if low.isNaN || high.isNaN then .error (.invalidType "range bounds cannot be nan")
  else if !(low < high) then
    .error (.invalidType ("low " ++ Number.text low
      ++ " must be strictly less than high " ++ Number.text high))
  else if low.isInf && high.isInf then
    .error (.invalidType "both range bounds cannot be infinite")
  else .ok (.range low high interval)

def ofMembers (label : String) (build : List Predicate → Predicate) (members : List Given) :
    Except Failure Predicate := do
  match ← members.mapM ofGiven with
  | [] => .error (.invalidType (Text.ofString label ++ " needs at least one type"))
  | predicates => return build predicates

def ofParameters (entries : List (Text × Given)) (allMandatory : Bool) :
    Except Failure Predicate := do
  let declared ← entries.mapM fun (name, given) => do
    let predicate ← (ofGiven given).mapError
      (.within ("parameter " ++ Text.quoted name) ·)
    return (name, predicate)
  return .parameters (declared.mergeSort (fun left right => Text.le left.1 right.1)) allMandatory

def ofArray (dimensions : Int) (element : Option Given) : Except Failure Predicate := do
  if dimensions < 0 then
    .error (.invalidType ("invalid dimension " ++ Text.ofInt dimensions))
  else
    match element with
    | none => return .array dimensions.toNat none
    | some given => return .array dimensions.toNat (some (← ofGiven given))

end Predicate

mutual

def Spec.give : Spec → Except Failure Given
  | .nothing => .ok .nothing
  | .simple inner => .ok (.predicate inner)
  | .range low high interval => .predicate <$> Predicate.ofRange low high interval
  | .allOf members => do
      .predicate <$> Predicate.ofMembers "And" .allOf (← Spec.giveAll members)
  | .anyOf members => do
      .predicate <$> Predicate.ofMembers "Or" .anyOf (← Spec.giveAll members)
  | .complement member => do
      return .predicate (.complement (← Predicate.ofGiven (← member.give)))
  | .list element => do
      return .predicate (.list (← Predicate.ofGiven (← element.give)))
  | .tuple elements => do
      return .predicate (.tuple (← (← Spec.giveAll elements).mapM Predicate.ofGiven))
  | .dict key value => do
      let key ← key.give
      let value ← value.give
      return .predicate (.dict (← Predicate.ofGiven key) (← Predicate.ofGiven value))
  | .oneOf members => .ok (.predicate (.oneOf members))
  | .constant value => .ok (.predicate (.constant value))
  | .unchecked samples => do
      return .predicate (.unchecked (some (← Predicate.ofGiven (← samples.give))))
  | .parameters entries allMandatory => do
      .predicate <$> Predicate.ofParameters (← Spec.giveNamed entries) allMandatory
  | .array dimensions none => .predicate <$> Predicate.ofArray dimensions none
  | .array dimensions (some element) => do
      .predicate <$> Predicate.ofArray dimensions (some (← element.give))
  | .generic type => .predicate <$> Predicate.ofHostType type
  | .hostType type => .ok (.hostType type)
  | .raw value => .ok (.value value)

def Spec.giveAll : List Spec → Except Failure (List Given)
  | [] => .ok []
  | spec :: specs => do
      let given ← spec.give
      return given :: (← Spec.giveAll specs)

def Spec.giveNamed : List (Text × Spec) → Except Failure (List (Text × Given))
  | [] => .ok []
  | (name, spec) :: specs => do
      let given ← spec.give
      return (name, given) :: (← Spec.giveNamed specs)

end

def Predicate.simple : List Predicate :=
  [.number .numeric, .number .extendedReal, .number .number, .number .integer, .number .natural0,
    .number .natural1, .number .positive0, .number .positive, .boolean, .nothing, .function,
    .text .text, .text .identifier, .text .alphanumeric, .text .latin, .unchecked none, .self,
    .positionalArguments, .keywordArguments]

def Predicate.ofWord? (word : Text) : Option Predicate :=
  Predicate.simple.find? (fun predicate => predicate.declaration == word)

def Spec.read (spec : Spec) : Except Failure Predicate := do
  Predicate.ofGiven (← spec.give)

end Covenant
