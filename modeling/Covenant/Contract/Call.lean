import Covenant.Contract.Postcondition

/-!
# Calls under contract

A call is checked in a fixed order: argument types, preconditions, the call itself, unchanged
arguments, return type, postconditions. Where the settings disable the engine the function is
called directly.
-/

set_option autoImplicit false

namespace Covenant.Contract

open Condition (Evaluation)

/-- A failed test as a failure of the contract: a violation by `broken`, any other failure with its
`context`. Crashes stay as they are. -/
def explain (broken : Failure → Failure) (context : Text) (failure : Failure) : Failure :=
  match failure with
  | .crash _ | .unending => failure
  | _ => if failure.isViolation then broken failure else .within context failure

def checkArgument (world : World) (name label : Text) (type : Predicate) (value : Value) :
    Evaluation Unit := do
  let memory ← get
  let present := memory.view value
  let declared := memory.viewPredicate type
  Evaluation.ofExcept <| (declared.test world present).mapError <| explain
    (fun cause => .argumentType name label present declared.declaration (some cause))
    (name ++ ": argument " ++ label)

def typesCover (types : List (Text × Predicate)) (bound : Bindings) : Bool :=
  types.length == bound.length && bound.all (fun entry => (types.lookup entry.1).isSome)

def inconsistent (contract : Contract) : Failure := .argumentType contract.name [] .nil [] none

def checkEntry (world : World) (contract : Contract) (types : List (Text × Predicate)) :
    Text × Value → Evaluation Unit
  | (label, value) =>
    match types.lookup label with
    | some type => checkArgument world contract.name label type value
    | none => throw contract.inconsistent

def checkAccepts (world : World) (contract : Contract) (bound : Bindings) : Evaluation Unit :=
  match contract.argumentTypes with
  | none => return ()
  | some types =>
    if typesCover types bound then bound.sorted.forM (checkEntry world contract types)
    else throw contract.inconsistent

def checkRequired (world : World) (contract : Contract) (inner : Condition.Scope)
    (bound : Bindings) (condition : Condition) : Evaluation Unit := do
  let refuse (cause : Option Failure) : Evaluation Unit := do
    throw (.entryConditions contract.name condition.source (← lookBindings bound) cause)
  let outcome ← tryCatch (Except.ok <$> condition.holds world inner)
    (fun failure => return .error failure)
  match outcome with
  | .ok true => return ()
  | .ok false => refuse none
  | .error .unending => throw .unending
  | .error failure => refuse (some failure)

def checkRequires (world : World) (contract : Contract) (scope : Condition.Scope)
    (bound : Bindings) : Evaluation Unit :=
  contract.requires.forM (checkRequired world contract (scope.push bound) bound)

def convertArgument (world : World) (contract : Contract) (bound : Bindings) :
    Parameter × HostType → Evaluation Value
  | (parameter, type) => do
      let value := (← get).view ((bound.lookup parameter.name).getD .nil)
      match value.convert world.host type with
      | .ok converted => return converted.retype type
      | .error (.crash reason) => throw (.crash reason)
      | .error cause =>
        throw (.argumentType contract.name parameter.name value type.label (some cause))

def convertBound (world : World) (contract : Contract) (bound : Bindings) :
    Evaluation (List Value) :=
  (contract.parameters.zip contract.signature.parameters).mapM
    (convertArgument world contract bound)

def invoke (world : World) (contract : Contract) (bound : Bindings) : Evaluation Value := do
  let arguments ← convertBound world contract bound
  Evaluation.ofOutcome (Condition.enter world contract.function arguments)

def digestsOf (world : World) (contract : Contract) (bound : Bindings) (memory : Memory) :
    List (Text × UInt64) :=
  if contract.immutable then
    bound.filterMap fun (label, value) =>
      if label ∈ contract.mutableNames then none
      else (world.host.digest? (memory.view value)).map (label, ·)
  else []

def differs (world : World) (before : List (Text × UInt64)) (memory : Memory) :
    Text × Value → Bool
  | (label, value) =>
    match before.lookup label with
    | none => false
    | some digest => world.host.digest? (memory.view value) != some digest

def checkDigests (world : World) (contract : Contract) (bound : Bindings)
    (before : List (Text × UInt64)) : Evaluation Unit := do
  match bound.sorted.find? (differs world before (← get)) with
  | some (label, _) => throw (.objectModified contract.name label)
  | none => return ()

def checkReturns (world : World) (contract : Contract) (returned : Value) : Evaluation Unit := do
  match contract.returnType with
  | none => return ()
  | some type =>
    let memory ← get
    let present := memory.view returned
    let declared := memory.viewPredicate type
    Evaluation.ofExcept <| (declared.test world present).mapError <| explain
      (fun cause => .returnType contract.name present declared.declaration (some cause))
      (contract.name ++ ": return value")

def outerScope (snapshot : Snapshot) : Condition.Scope :=
  Condition.Scope.root.push snapshot.names

def prepare (world : World) (contract : Contract) (snapshot : Snapshot) (bound : Bindings) :
    Evaluation Value := do
  checkAccepts world contract bound
  checkRequires world contract (outerScope snapshot) bound
  let before := digestsOf world contract bound (← get)
  let returned ← invoke world contract bound
  checkDigests world contract bound before
  checkReturns world contract returned
  return returned

structure Concluded where
  outcome : Except Failure Unit
  memory : Memory
  remembered : List Record

/-- The guarded end of a call, which no other call interrupts: it evaluates all postconditions and
remembers the call when they held. -/
def conclude (world : World) (contract : Contract) (snapshot : Snapshot) (current : Record)
    (memory : Memory) : Concluded :=
  match (checkEnsures world contract (outerScope snapshot) current).run memory with
  | (.error failure, memory) => ⟨.error failure, memory, contract.remembered⟩
  | (.ok _, memory) =>
    if contract.isTemporal then
      match remember snapshot.maxCache contract.remembered current with
      | (.ok calls, _) => ⟨.ok (), memory, calls⟩
      | (.error failure, calls) => ⟨.error failure, memory, calls⟩
    else ⟨.ok (), memory, contract.remembered⟩

structure Called where
  outcome : Except Failure Value
  memory : Memory
  remembered : List Record

def run (world : World) (contract : Contract) (snapshot : Snapshot) (bound : Bindings)
    (memory : Memory) : Called :=
  if !snapshot.enabled then
    let (outcome, memory) := (invoke world contract bound).run memory
    ⟨outcome, memory, contract.remembered⟩
  else
    match (prepare world contract snapshot bound).run memory with
    | (.error failure, memory) => ⟨.error failure, memory, contract.remembered⟩
    | (.ok returned, memory) =>
      let ended := conclude world contract snapshot (record bound returned) memory
      ⟨ended.outcome.map (fun _ => returned), ended.memory, ended.remembered⟩

/-- A call whose arguments are bound with the identities of two new collections. -/
def runWith (world : World) (contract : Contract) (snapshot : Snapshot)
    (bind : ObjectId → ObjectId → Except Failure Bindings) (memory : Memory) : Called :=
  let (listId, memory) := memory.allocate
  let (dictId, memory) := memory.allocate
  match bind listId dictId with
  | .error failure => ⟨.error (.within contract.name failure), memory, contract.remembered⟩
  | .ok bound => run world contract snapshot bound memory

def call (world : World) (contract : Contract) (snapshot : Snapshot) (arguments : List Value)
    (named : Bindings) : Memory → Called :=
  runWith world contract snapshot (contract.parameters.bind · · arguments named)

/-- A call up to its guarded end, with its record where it gets there. -/
def approach (world : World) (contract : Contract) (snapshot : Snapshot) (named : Bindings)
    (memory : Memory) : Option Record × Memory :=
  let (listId, memory) := memory.allocate
  let (dictId, memory) := memory.allocate
  match contract.parameters.bindNamed listId dictId named with
  | .error _ => (none, memory)
  | .ok bound =>
    if !snapshot.enabled then (none, ((invoke world contract bound).run memory).2)
    else
      let (outcome, memory) := (prepare world contract snapshot bound).run memory
      (outcome.toOption.map (record bound), memory)

def callBound (world : World) (contract : Contract) (snapshot : Snapshot) (named : Bindings) :
    Memory → Called :=
  runWith world contract snapshot (contract.parameters.bindNamed · · named)

end Covenant.Contract
