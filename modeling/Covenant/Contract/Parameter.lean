import Covenant.World

/-!
# Parameters

A parameter takes one argument by position or by name, or it collects: surplus positional arguments
into a list, or unknown named arguments into a dictionary. Binding gives every parameter a value, or
says why it cannot.
-/

set_option autoImplicit false

namespace Covenant

inductive ParameterKind where
  | positional
  | variadic
  | keyword
  deriving DecidableEq, Repr

def ParameterKind.label : ParameterKind → String
  | .positional => "positional"
  | .variadic => "variadic"
  | .keyword => "variadic keyword"

structure Parameter where
  name : Text
  kind : ParameterKind
  default : Option Value

inductive ParameterOption where
  | default (value : Value)
  | variadic
  | keyword

def refuseDeclaration {α : Type} (pieces : List Text) : Except Failure α :=
  .error (.declaration pieces.flatten)

namespace Parameter

/-- Applies an option; collecting parameters and defaults exclude each other. -/
def apply (parameter : Parameter) : ParameterOption → Except Failure Parameter
  | .default value =>
    if parameter.kind != .positional then
      refuseDeclaration [parameter.kind.label, " parameter ", parameter.name,
        " cannot have a default"]
    else .ok { parameter with default := some value }
  | .variadic =>
    if parameter.default.isSome then
      refuseDeclaration ["variadic parameter ", parameter.name, " cannot have a default"]
    else .ok { parameter with kind := .variadic }
  | .keyword =>
    if parameter.default.isSome then
      refuseDeclaration ["keyword parameter ", parameter.name, " cannot have a default"]
    else .ok { parameter with kind := .keyword }

end Parameter

abbrev Parameters := List Parameter

namespace Parameters

/-!
## Declaration
-/

def defaultNames (count : Nat) : List Text :=
  (List.range count).map (fun index => "arg" ++ Text.ofNat index)

/-- Positional parameters of the given names, which must be usable and different. -/
def ofNames (declared : Parameters) : List Text → Except Failure Parameters
  | [] => .ok declared
  | name :: names =>
    if name.isEmpty || Text.contains name [96] then
      refuseDeclaration ["invalid parameter name ", Text.quoted name]
    else if declared.any (fun parameter => parameter.name == name) then
      refuseDeclaration ["duplicate parameter name ", Text.quoted name]
    else ofNames (declared ++ [⟨name, .positional, none⟩]) names

def modify (parameters : Parameters) (name : Text) (options : List ParameterOption) :
    Except Failure Parameters :=
  if parameters.any (fun parameter => parameter.name == name) then
    parameters.mapM fun parameter =>
      if parameter.name == name then options.foldlM Parameter.apply parameter else .ok parameter
  else refuseDeclaration ["no parameter named ", Text.quoted name]

structure Seen where
  variadic : Bool
  keyword : Bool

def checkKinds (seen : Seen) : Parameters → List HostType → Except Failure Unit
  | parameter :: parameters, type :: types =>
    match parameter.kind with
    | .positional => checkKinds seen parameters types
    | .variadic =>
      if seen.variadic then refuseDeclaration ["more than one variadic parameter"]
      else
        match type.underlying with
        | .slice _ => checkKinds { seen with variadic := true } parameters types
        | _ => refuseDeclaration ["variadic parameter ", parameter.name,
            " must be a slice, not ", type.label]
    | .keyword =>
      if seen.keyword then refuseDeclaration ["more than one keyword parameter"]
      else
        match type.underlying with
        | .map key _ =>
          if key.isText then checkKinds { seen with keyword := true } parameters types
          else keywordType parameter type
        | _ => keywordType parameter type
  | _, _ => .ok ()
where
  keywordType (parameter : Parameter) (type : HostType) : Except Failure Unit :=
    refuseDeclaration ["keyword parameter ", parameter.name,
      " must be a map with string keys, not ", type.label]

def restsOf (kind : ParameterKind) : Parameters → List (Parameter × Parameters)
  | [] => []
  | parameter :: parameters =>
    if parameter.kind = kind then (parameter, parameters) :: restsOf kind parameters
    else restsOf kind parameters

def checkPlaces (parameters : Parameters) : Except Failure Unit := do
  match (restsOf .keyword parameters).head? with
  | some (parameter, _ :: _) =>
    refuseDeclaration ["keyword parameter ", parameter.name, " must be last"]
  | _ => pure ()
  match (restsOf .variadic parameters).head? with
  | none | some (_, []) => pure ()
  | some (parameter, [next]) =>
    if next.kind = .keyword then pure ()
    else refuseDeclaration ["variadic parameter ", parameter.name, " must be last"]
  | some (parameter, _) =>
    refuseDeclaration ["variadic parameter ", parameter.name, " must be last"]

def collectLast : Parameters → Parameters
  | [] => []
  | [last] => [{ last with kind := .variadic }]
  | first :: rest => first :: collectLast rest

def declare (signature : Signature) (names : Option (List Text))
    (changes : List (Text × List ParameterOption)) : Except Failure Parameters := do
  let count := signature.parameters.length
  let names := names.getD (defaultNames count)
  if names.length != count then
    refuseDeclaration [Text.ofNat names.length, " parameter names for a function of ",
      Text.ofNat count, " parameters"]
  else
    let named ← ofNames [] names
    let parameters := if signature.variadic then collectLast named else named
    let parameters ← changes.foldlM (fun found (name, options) => found.modify name options)
      parameters
    checkKinds ⟨false, false⟩ parameters signature.parameters
    checkPlaces parameters
    return parameters

/-!
## Binding
-/

def positional (parameters : Parameters) : Parameters :=
  parameters.filter (fun parameter => parameter.kind = .positional)

def hasKind (parameters : Parameters) (kind : ParameterKind) : Bool :=
  parameters.any (fun parameter => parameter.kind = kind)

def refuseBinding {α : Type} (pieces : List Text) : Except Failure α :=
  .error (.binding pieces.flatten)

/-- Gives arguments to the parameters that take one each, in order. What is left of the arguments is
surplus. -/
def bindPositional : Parameters → List Value → Bindings × List Value
  | [], surplus => ([], surplus)
  | _, [] => ([], [])
  | parameter :: parameters, argument :: arguments =>
    if parameter.kind = .positional then
      let (bound, surplus) := bindPositional parameters arguments
      ((parameter.name, argument) :: bound, surplus)
    else bindPositional parameters (argument :: arguments)

def bindKeywords (parameters : Parameters) (bound collected : Bindings) :
    Bindings → Except Failure (Bindings × Bindings)
  | [] => .ok (bound, collected)
  | (name, value) :: rest =>
    if parameters.positional.any (fun parameter => parameter.name == name) then
      if (bound.lookup name).isSome then
        refuseBinding ["got multiple values for argument ", Text.quoted name]
      else bindKeywords parameters (bound ++ [(name, value)]) collected rest
    else if !parameters.hasKind .keyword then
      refuseBinding ["got an unexpected keyword argument ", Text.quoted name]
    else bindKeywords parameters bound (collected ++ [(name, value)]) rest

def dictionary (object : ObjectId) (entries : Bindings) : Value :=
  .dict .namedValues object (entries.map (fun (name, value) => (.ofText name, value)))

def requireAll (missing : List Text) : Except Failure Unit :=
  if missing.isEmpty then .ok ()
  else refuseBinding ["missing required arguments: ", Text.join ", " missing]

def assemble (parameters : Parameters) (value? : Parameter → Option Value) :
    Except Failure Bindings := do
  requireAll ((parameters.filter fun parameter => (value? parameter).isNone).map (·.name))
  return parameters.filterMap fun parameter => (value? parameter).map (parameter.name, ·)

def supply (given : Bindings) (surplus collected : Value) (parameter : Parameter) : Option Value :=
  match parameter.kind with
  | .variadic => some surplus
  | .keyword => some collected
  | .positional => (given.lookup parameter.name).or parameter.default

/-- Binds positional and named arguments; `listId` and `dictId` are the identities of the
collections made for them. -/
def bind (parameters : Parameters) (listId dictId : ObjectId) (arguments : List Value)
    (named : Bindings) : Except Failure Bindings := do
  let (placed, surplus) := parameters.bindPositional arguments
  if !surplus.isEmpty && !parameters.hasKind .variadic then
    refuseBinding ["takes ", Text.ofNat parameters.positional.length,
      " positional arguments but ", Text.ofNat arguments.length, " were given"]
  else
    let (bound, collected) ← parameters.bindKeywords placed [] named.sorted
    parameters.assemble
      (supply bound (.list .anySlice listId surplus) (dictionary dictId collected))

def supplyByName (named : Bindings) (listId dictId : ObjectId) (parameter : Parameter) :
    Option Value :=
  (named.lookup parameter.name).or <| match parameter.kind with
    | .variadic => some (.list .anySlice listId [])
    | .keyword => some (dictionary dictId [])
    | .positional => parameter.default

/-- Completes arguments that have the names of parameters; `listId` and `dictId` are the identities
of the collections made for those left out. -/
def bindNamed (parameters : Parameters) (listId dictId : ObjectId) (named : Bindings) :
    Except Failure Bindings := do
  match named.sorted.find? (fun entry => !parameters.any (fun known => known.name == entry.1)) with
  | some (name, _) => refuseBinding ["unknown parameter ", Text.quoted name]
  | none => parameters.assemble (supplyByName named listId dictId)

end Parameters

end Covenant
