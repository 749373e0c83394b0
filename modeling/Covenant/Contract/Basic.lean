import Covenant.Condition.Call
import Covenant.Condition.Basic
import Covenant.Contract.Parameter
import Covenant.Predicate.Spec
import Covenant.Settings

/-!
# Contracts

A contract names the parameters of a function and declares types, conditions, settings, and whether
arguments must stay unchanged. It is declared by clauses, in one step or in several; a declaration
that fails changes nothing.
-/

set_option autoImplicit false

namespace Covenant

abbrev Record := Bindings

structure Contract where
  function : Value
  signature : Signature
  parameters : Parameters
  name : Text
  argumentTypes : Option (List (Text × Predicate))
  returnType : Option Predicate
  requires : List Condition
  ensures : List Condition
  overlay : Overlay
  store : Option Text
  immutable : Bool
  mutableNames : List Text
  registry : Option Text
  remembered : List Record

inductive Clause where
  | name (name : Text)
  | parameters (names : List Text)
  | parameter (name : Text) (options : List ParameterOption)
  | accepts (types : List Given)
  | acceptsNamed (types : List (Text × Given))
  | returns (type : Given)
  | requires (condition : Text)
  | ensures (condition : Text)
  | config (name : Text) (value : Value)
  /-- Arguments must stay unchanged, except those of the named parameters. -/
  | immutable (mutableNames : List Text)
  | store (name : Text)
  | registry (name : Option Text)

structure Declaration where
  name : Text := []
  parameters : Option (List Text) := none
  changes : List (Text × List ParameterOption) := []
  accepts : Option (List Given) := none
  acceptsNamed : Option (List (Text × Given)) := none
  returns : Option Given := none
  requires : List Text := []
  ensures : List Text := []
  config : Bindings := []
  immutable : Bool := false
  mutableNames : List Text := []
  store : Option Text := none
  registry : Option (Option Text) := none

namespace Declaration

def add (declaration : Declaration) : Clause → Except Failure Declaration
  | .name label => .ok { declaration with name := label }
  | .parameters names =>
    if declaration.parameters.isSome then refuseDeclaration ["parameters declared twice"]
    else .ok { declaration with parameters := some names }
  | .parameter label options =>
    .ok { declaration with changes := declaration.changes ++ [(label, options)] }
  | .accepts types =>
    if declaration.accepts.isSome then refuseDeclaration ["cannot set argument types twice"]
    else .ok { declaration with accepts := some types }
  | .acceptsNamed types =>
    if declaration.acceptsNamed.isSome then
      refuseDeclaration ["cannot set argument types twice"]
    else .ok { declaration with acceptsNamed := some types }
  | .returns type =>
    if declaration.returns.isSome then refuseDeclaration ["cannot set return type twice"]
    else .ok { declaration with returns := some type }
  | .requires condition =>
    .ok { declaration with requires := declaration.requires ++ [condition] }
  | .ensures condition => .ok { declaration with ensures := declaration.ensures ++ [condition] }
  | .config label value => .ok { declaration with config := declaration.config ++ [(label, value)] }
  | .immutable names =>
    .ok { declaration with
      immutable := true, mutableNames := declaration.mutableNames ++ names }
  | .store label => .ok { declaration with store := some label }
  | .registry label => .ok { declaration with registry := some label }

def ofClauses (clauses : List Clause) : Except Failure Declaration :=
  clauses.foldlM add {}

end Declaration

namespace Contract

def typeOf : Value → Predicate
  | .predicate _ inner => inner
  | .nil => .nothing
  | value => .constant value

/-- Types for arguments, bound like the arguments of a call: parameters left over take only
their default. -/
def declareArguments (name : Text) (parameters : Parameters) (positional : List Given)
    (named : List (Text × Given)) : Except Failure (List (Text × Predicate)) :=
  let refuse (cause : Failure) : Failure := .argumentType name [] .nil [] (some cause)
  let asValue (given : Given) : Except Failure Value := .predicate 0 <$> Predicate.ofGiven given
  Except.mapError refuse <| do
    let values ← positional.mapM asValue
    let sorted := named.mergeSort (fun left right => Text.le left.1 right.1)
    let namedValues ← sorted.mapM fun (label, given) => return (label, ← asValue given)
    let bound ← parameters.bind 0 0 values namedValues
    return parameters.map fun parameter =>
      (parameter.name, match parameter.kind with
        | .variadic => .positionalArguments
        | .keyword => .keywordArguments
        | .positional => typeOf ((bound.lookup parameter.name).getD .nil))

def compileAll (word : String) (name : Text) (mode : Condition.Mode) (sources : List Text) :
    Except Failure (List Condition) :=
  sources.mapM fun source =>
    (Condition.compile mode source).mapError fun error =>
      .within (Text.ofString word ++ " of " ++ name) (.syntaxError error)

/-- The argument types after a declaration under a name; they can be declared once. -/
def typesAfter (contract : Contract) (name : Text) (declaration : Declaration) :
    Except Failure (Option (List (Text × Predicate))) :=
  if declaration.accepts.isSome || declaration.acceptsNamed.isSome then
    if contract.argumentTypes.isSome then
      refuseDeclaration ["cannot set argument types twice in ", name]
    else
      some <$> declareArguments name contract.parameters (declaration.accepts.getD [])
        (declaration.acceptsNamed.getD [])
  else .ok contract.argumentTypes

def returnTypeAfter (contract : Contract) (name : Text) (declaration : Declaration) :
    Except Failure (Option Predicate) :=
  match declaration.returns with
  | none => .ok contract.returnType
  | some given =>
    if contract.returnType.isSome then
      refuseDeclaration ["cannot set return type twice in ", name]
    else
      some <$> (Predicate.ofGiven given).mapError
        (.within ("return type of " ++ name) ·)

def declare (contract : Contract) (declaration : Declaration) : Except Failure Contract := do
  let name := if declaration.name.isEmpty then contract.name else declaration.name
  let argumentTypes ← contract.typesAfter name declaration
  let returnType ← contract.returnTypeAfter name declaration
  let requires ← compileAll "requires" name .precondition declaration.requires
  let ensures ← compileAll "ensures" name .postcondition declaration.ensures
  let overlay ← declaration.config.foldlM (fun overlay (label, value) =>
    (overlay.set label value).mapError (.within ("config of " ++ name) ·))
    contract.overlay
  let unknown := declaration.mutableNames.find? fun label =>
    !contract.parameters.any (fun parameter => parameter.name == label)
  match unknown with
  | some label => refuseDeclaration [name, " has no parameter ", Text.quoted label]
  | none =>
    return { contract with
      name := name
      argumentTypes := argumentTypes
      returnType := returnType
      requires := contract.requires ++ requires
      ensures := contract.ensures ++ ensures
      overlay := overlay
      store := declaration.store.or contract.store
      immutable := contract.immutable || declaration.immutable
      mutableNames := (contract.mutableNames ++ declaration.mutableNames).eraseDups }

def titleOf (host : Host) : Value → Text
  | .function _ (.host name) => ((host.function? name).map (·.title)).getD name
  | .function _ (.method receiver name) =>
    receiver.typeLabel ++ "." ++ name
  | _ => []

def defaultRegistry : Text := "default"

def wrap (host : Host) (function : Value) (clauses : List Clause) : Except Failure Contract := do
  let declaration ← Declaration.ofClauses clauses
  match function, Condition.signatureOf? host function with
  | .function .., some signature =>
    let parameters ← Parameters.declare signature declaration.parameters declaration.changes
    let contract : Contract :=
      { function := function, signature := signature, parameters := parameters
        name := titleOf host function, argumentTypes := none, returnType := none
        requires := [], ensures := [], overlay := .empty, store := none
        immutable := false, mutableNames := []
        registry := declaration.registry.getD (some defaultRegistry), remembered := [] }
    contract.declare declaration
  | _, _ =>
    refuseDeclaration ["cannot wrap ", function.typeLabel, ", need a function"]

def extend (contract : Contract) (clauses : List Clause) : Except Failure Contract := do
  let declaration ← Declaration.ofClauses clauses
  if declaration.parameters.isSome || !declaration.changes.isEmpty then
    refuseDeclaration ["parameters of ", contract.name, " are already declared"]
  else contract.declare declaration

/-- A copy for one class: the receiver's type becomes the class, and no call is remembered. -/
def bindClass (contract : Contract) (type : HostType) (name : Text) : Contract :=
  let resolve : Predicate → Predicate
    | .self => .generic type
    | other => other
  { contract with
    name := name
    argumentTypes := contract.argumentTypes.map
      (·.map (fun (label, declared) => (label, resolve declared)))
    returnType := contract.returnType.map resolve
    remembered := [] }

def snapshot (contract : Contract) (settings : Settings) : Snapshot :=
  settings.resolve contract.overlay

end Contract

end Covenant
