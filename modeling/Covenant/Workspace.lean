import Covenant.Condition.Hook
import Covenant.Testing

/-!
# Workspaces

What contracts share: stores of settings, overlays, the functions under contract by name,
registries, tables of class methods, declared classes, and the memory. Operations may fail; what
they changed before stays.
-/

set_option autoImplicit false

namespace Covenant

structure Workspace where
  host : Host
  stores : List (Text × Settings)
  overlays : List (Text × Overlay)
  contracts : List Contract
  functions : List (Text × Nat)
  registries : List (Text × List Nat)
  tables : List (Text × List (Text × Nat))
  classes : List ClassDeclaration
  memory : Memory

namespace Workspace

def initial (host : Host) : Workspace := ⟨host, [], [], [], [], [], [], [], .empty⟩

abbrev Session := ExceptT Failure (StateM Workspace)

def put {α : Type} (key : Text) (value : α) (entries : List (Text × α)) : List (Text × α) :=
  (key, value) :: entries.filter (fun entry => entry.1 != key)

def world (workspace : Workspace) : World := World.of workspace.host workspace.classes

/-!
## Settings
-/

def globalStore : Text := "global"

def settingsOf (workspace : Workspace) (store : Text) : Settings :=
  (workspace.stores.lookup store).getD .initial

def putSettings (store : Text) (settings : Settings) : Session Unit :=
  modify fun workspace => { workspace with stores := put store settings workspace.stores }

def set (store name : Text) (value : Value) : Session Unit := do
  let workspace ← get
  match (workspace.settingsOf store).set name (workspace.memory.view value) with
  | .ok settings => putSettings store settings
  | .error failure => throw failure

def setAll (store : Text) (values : Bindings) : Session Unit := do
  let workspace ← get
  let present := values.map (fun (name, value) => (name, workspace.memory.view value))
  let (settings, failure) := (workspace.settingsOf store).setAll present
  putSettings store settings
  match failure with
  | some found => throw found
  | none => return ()

def getSetting (store name : Text) : Session Value := do
  let workspace ← get
  ExceptT.mk (pure ((workspace.settingsOf store).get name))

def overlay (id origin name : Text) (value : Value) : Session (Option Failure × Overlay) := do
  let workspace ← get
  let base := (workspace.overlays.lookup origin).getD .empty
  let (failure, result) := match base.set name (workspace.memory.view value) with
    | .ok changed => (none, changed)
    | .error failure => (some failure, base)
  modify fun workspace => { workspace with overlays := put id result workspace.overlays }
  return (failure, result)

def overlayOf (workspace : Workspace) (id : Text) : Overlay :=
  (workspace.overlays.lookup id).getD .empty

/-!
## Contracts
-/

def contractAt? (workspace : Workspace) (number : Nat) : Option Contract :=
  workspace.contracts[number]?

def number (id : Text) : Session Nat := do
  match (← get).functions.lookup id with
  | some found => return found
  | none => throw (.plain ("no function is called " ++ Text.quoted id))

def contract (id : Text) : Session Contract := do
  match (← get).contractAt? (← number id) with
  | some found => return found
  | none => throw (.plain ("no function is called " ++ Text.quoted id))

def nameFunction (id : Text) (number : Nat) : Session Unit :=
  modify fun workspace => { workspace with functions := put id number workspace.functions }

def addContract (contract : Contract) : Session Nat :=
  modifyGet fun workspace =>
    (workspace.contracts.length, { workspace with contracts := workspace.contracts ++ [contract] })

def replaceContract (number : Nat) (contract : Contract) : Session Unit :=
  modify fun workspace => { workspace with contracts := workspace.contracts.set number contract }

def registryOf (workspace : Workspace) (registry : Text) : List Nat :=
  (workspace.registries.lookup registry).getD []

def record (registry : Text) (number : Nat) : Session Unit :=
  modify fun workspace =>
    let recorded := workspace.registryOf registry
    if number ∈ recorded then workspace
    else
      { workspace with registries := put registry (recorded ++ [number]) workspace.registries }

/-- A registry when a copy is bound: the copy takes the place of its source, and where this has none
any more it goes to the end. -/
def replaced (recorded : List Nat) (source copy : Nat) : List Nat :=
  if copy ∈ recorded then recorded
  else if source ∈ recorded then recorded.set (recorded.idxOf source) copy
  else recorded ++ [copy]

def replaceRecorded (registry : Text) (source copy : Nat) : Session Unit :=
  modify fun workspace =>
    let recorded := replaced (workspace.registryOf registry) source copy
    { workspace with registries := put registry recorded workspace.registries }

def wrap (id : Text) (function : Value) (clauses : List Clause) : Session Contract := do
  match Contract.wrap (← get).host function clauses with
  | .error failure => throw failure
  | .ok made =>
    let number ← addContract made
    nameFunction id number
    match made.registry with
    | some registry => record registry number
    | none => pure ()
    return made

def rewrap (id source : Text) (clauses : List Clause) : Session Contract := do
  match (← contract source).extend clauses with
  | .error failure => throw failure
  | .ok changed =>
    let number ← number source
    replaceContract number changed
    nameFunction id number
    return changed

def snapshotOf (workspace : Workspace) (contract : Contract) : Snapshot :=
  contract.snapshot (workspace.settingsOf (contract.store.getD globalStore))

def callWith (id : Text)
    (step : World → Contract → Snapshot → Memory → Contract.Called) : Session Value := do
  let found ← contract id
  let workspace ← get
  let called := step workspace.world found (workspace.snapshotOf found) workspace.memory
  replaceContract (← number id) { found with remembered := called.remembered }
  modify fun workspace => { workspace with memory := called.memory }
  match called.outcome with
  | .ok value => return called.memory.view value
  | .error failure => throw failure

def call (id : Text) (arguments : List Value) (named : Bindings) : Session Value :=
  callWith id fun world found snapshot memory => found.call world snapshot arguments named memory

def callBound (id : Text) (named : Bindings) (cancelled : Bool) : Session Value := do
  if cancelled then throw .cancelled
  else callWith id fun world found snapshot memory => found.callBound world snapshot named memory

def forget (id : Text) : Session Unit := do
  let found ← contract id
  replaceContract (← number id) { found with remembered := [] }

/-!
## Classes
-/

def declareClass (declaration : ClassDeclaration) : Session Unit :=
  modify fun workspace => { workspace with classes := workspace.classes ++ [declaration] }

structure MethodSource where
  name : Text
  number : Nat
  contract : Contract

def methodSource (method : Text × Option Text) : Session MethodSource := do
  let id := method.2.getD []
  return ⟨method.1, ← number id, ← contract id⟩

/-- Adds a copy for a class, which takes the place of its source in the registry. It gets the name
of the table and its own, with a dot between. -/
def bindMethod (id : Text) (type : HostType) (source : MethodSource) : Session (Text × Nat) := do
  let name := type.shortName ++ "." ++ source.name
  let new ← addContract (source.contract.bindClass type name)
  nameFunction (id ++ "." ++ source.name) new
  match source.contract.registry with
  | some registry => replaceRecorded registry source.number new
  | none => pure ()
  return (source.name, new)

def bindClass (id : Text) (type : Option HostType) (methods : List (Text × Option Text)) :
    Session (HostType × List Text) := do
  match type with
  | none => throw (.invalidType "Generic needs a non-nil reflect.Type")
  | some type =>
    let sorted := methods.mergeSort (fun left right => Text.le left.1 right.1)
    match sorted.find? (fun method => method.2.isNone) with
    | some (name, _) =>
      throw (.declaration ("method " ++ name ++ " of " ++ type.label ++ " is nil"))
    | none =>
      let sources ← sorted.mapM methodSource
      let bound ← sources.mapM (bindMethod id type)
      modify fun workspace => { workspace with tables := put id bound workspace.tables }
      return (type, bound.map (·.1))

def method? (workspace : Workspace) (table name : Text) : Option Contract := do
  let methods ← workspace.tables.lookup table
  let number ← methods.lookup name
  workspace.contractAt? number

/-!
## Registries and tests
-/

def recorded (workspace : Workspace) (registry : Text) : List Contract :=
  (workspace.registryOf registry).filterMap workspace.contractAt?

def find? (workspace : Workspace) (registry name : Text) : Option Nat :=
  (workspace.registryOf registry).find? fun number =>
    (workspace.contractAt? number).any (fun contract => contract.name == name)

def testNumber (number : Nat) (cancelled : Bool) :
    Session (Contract × Option Failure × Testing.Tally) := do
  let workspace ← get
  match workspace.contractAt? number with
  | none => throw (.plain "no such function")
  | some found =>
    let (failure, progress) := Testing.test workspace.world found (workspace.snapshotOf found)
      cancelled workspace.memory
    replaceContract number { found with remembered := progress.remembered }
    modify fun workspace => { workspace with memory := progress.memory }
    match failure with
    | some (.crash reason) => throw (.crash reason)
    | _ => return (found, failure, progress.tally)

def test (id : Text) (cancelled : Bool) : Session (Option Failure × Testing.Tally) := do
  let (_, failure, tally) ← testNumber (← number id) cancelled
  return (failure, tally)

def run (numbers : List Nat) (cancelled : Bool) : Session (List TestResult) :=
  if cancelled then return []
  else
    numbers.mapM fun number => do
      let (found, failure, tally) ← testNumber number cancelled
      let location := (← get).world.host.locationOf found.function
      return Testing.resultOf found location failure tally

end Workspace

end Covenant
