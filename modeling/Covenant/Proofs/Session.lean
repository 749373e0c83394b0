import Covenant.Proofs.Declaration
import Covenant.Proofs.Evaluation
import Covenant.Workspace

/-!
# How operations on a workspace run

A name stands for a function or is refused. Functions are never removed, and apart from calls and
resets every operation keeps the calls that they remember.
-/

set_option autoImplicit false

namespace Covenant.Workspace

open Stateful

/-!
## Functions by name
-/

section

variable {α : Type} (key : Text) (value : α) (entries : List (Text × α))

theorem put_put (other : α) : put key value (put key other entries) = put key value entries := by
  simp [put, List.filter_filter]

theorem lookup_put (other : Text) :
    (put key value entries).lookup other =
      if other = key then some value else entries.lookup other := by
  unfold put
  by_cases same : other = key
  · simp [same]
  · have differs : (other == key) = false := by simpa using same
    rw [List.lookup_cons, differs, if_neg same]
    induction entries with
    | nil => rfl
    | cons entry entries ih =>
      by_cases named : entry.1 = key
      · have here : (other == entry.1) = false := named ▸ differs
        rw [List.filter_cons_of_neg (by simpa using named), List.lookup_cons, here]
        exact ih
      · rw [List.filter_cons_of_pos (by simpa using named), List.lookup_cons, List.lookup_cons]
        cases other == entry.1 with
        | true => rfl
        | false => exact ih

end

section

variable {workspace : Workspace} {id : Text} {found : Nat} {contract : Contract}

theorem number_run_of_some (named : workspace.functions.lookup id = some found) :
    (number id).run workspace = (.ok found, workspace) := by
  simp only [number]
  rw [run_bind_of_ok (run_get workspace), named]
  rfl

theorem number_run_of_none (unnamed : workspace.functions.lookup id = none) :
    (number id).run workspace =
      (.error (.plain ("no function is called " ++ Text.quoted id)), workspace) := by
  simp only [number]
  rw [run_bind_of_ok (run_get workspace), unnamed]
  rfl

theorem contract_run_of_some (named : workspace.functions.lookup id = some found)
    (known : workspace.contractAt? found = some contract) :
    (Workspace.contract id).run workspace = (.ok contract, workspace) := by
  simp only [Workspace.contract]
  rw [run_bind_of_ok (run_get workspace), run_bind_of_ok (number_run_of_some named), known]
  rfl

theorem contract_run_cases (workspace : Workspace) (id : Text) :
    (∃ found contract, workspace.functions.lookup id = some found ∧
      workspace.contractAt? found = some contract) ∨
    ∃ failure, (Workspace.contract id).run workspace = (.error failure, workspace) := by
  simp only [Workspace.contract]
  rw [run_bind_of_ok (run_get workspace)]
  cases named : workspace.functions.lookup id with
  | none => exact .inr ⟨_, run_bind_of_error (number_run_of_none named)⟩
  | some found =>
    cases known : workspace.contractAt? found with
    | none =>
      rw [run_bind_of_ok (number_run_of_some named), known]
      exact .inr ⟨_, rfl⟩
    | some contract => exact .inl ⟨found, contract, rfl, known⟩

theorem callWith_run {step : World → Contract → Snapshot → Memory → Contract.Called}
    (named : workspace.functions.lookup id = some found)
    (known : workspace.contractAt? found = some contract) :
    let called := step workspace.world contract (workspace.snapshotOf contract) workspace.memory
    (callWith id step).run workspace =
      (called.outcome.map called.memory.view,
        { workspace with
          contracts := workspace.contracts.set found
            { contract with remembered := called.remembered }
          memory := called.memory }) := by
  intro called
  simp only [callWith]
  rw [run_bind_of_ok (contract_run_of_some named known), run_bind_of_ok (run_get workspace),
    run_bind_of_ok (number_run_of_some named), replaceContract, run_bind_of_ok (run_modify _ _),
    run_bind_of_ok (run_modify _ _)]
  cases called.outcome with
  | error failure => rfl
  | ok returned => rfl

end

/-!
## Operations on settings
-/

/-- The host, the contracts and the registries are the same. -/
def SameContracts (before after : Workspace) : Prop :=
  after.host = before.host ∧ after.contracts = before.contracts ∧
    after.registries = before.registries

instance : IsPreorder Workspace SameContracts where
  refl := fun _ => ⟨rfl, rfl, rfl⟩
  trans := fun _ _ _ first second =>
    ⟨second.1.trans first.1, second.2.1.trans first.2.1, second.2.2.trans first.2.2⟩

theorem set_sameContracts (store name : Text) (value : Value) :
    MovesAlong SameContracts (Workspace.set store name value) := by
  refine .bind .get (fun workspace => ?_)
  split
  · exact .modify fun _ => ⟨rfl, rfl, rfl⟩
  · exact .throw _

theorem setAll_sameContracts (store : Text) (values : Bindings) :
    MovesAlong SameContracts (Workspace.setAll store values) := by
  refine .bind .get (fun workspace => ?_)
  refine .bind (.modify fun _ => ⟨rfl, rfl, rfl⟩) (fun _ => ?_)
  dsimp only
  split
  · exact .throw _
  · exact .pure ()

theorem overlay_sameContracts (id origin name : Text) (value : Value) :
    MovesAlong SameContracts (Workspace.overlay id origin name value) := by
  refine .bind .get (fun workspace => ?_)
  exact .bind (.modify fun _ => ⟨rfl, rfl, rfl⟩) (fun _ => .pure _)

/-!
## Operations that add functions
-/

/-- The workspace after a contract was added, named and recorded in its registry. -/
def withAdded (workspace : Workspace) (id : Text) (made : Contract) : Workspace :=
  let number := workspace.contracts.length
  { workspace with
    contracts := workspace.contracts ++ [made]
    functions := put id number workspace.functions
    registries := match made.registry with
      | none => workspace.registries
      | some registry =>
        if number ∈ workspace.registryOf registry then workspace.registries
        else put registry (workspace.registryOf registry ++ [number]) workspace.registries }

theorem wrap_run (workspace : Workspace) (id : Text) (function : Value) (clauses : List Clause) :
    (wrap id function clauses).run workspace =
      match Contract.wrap workspace.host function clauses with
      | .ok made => (.ok made, workspace.withAdded id made)
      | .error failure => (.error failure, workspace) := by
  unfold wrap
  rw [run_bind_of_ok (run_get workspace)]
  cases Contract.wrap workspace.host function clauses with
  | error failure => rfl
  | ok made =>
    dsimp only
    unfold withAdded
    cases made.registry with
    | none => rfl
    | some registry =>
      have added : (addContract made).run workspace = (.ok workspace.contracts.length,
        { workspace with contracts := workspace.contracts ++ [made] }) := rfl
      rw [run_bind_of_ok added, nameFunction, run_bind_of_ok (run_modify _ _)]
      dsimp only
      rw [record, run_bind_of_ok (run_modify _ _), run_pure]
      -- Adding and naming a function leave its registry as it was.
      by_cases recorded : workspace.contracts.length ∈ workspace.registryOf registry <;>
        simp only [registryOf] at recorded ⊢ <;> simp only [recorded, if_true, if_false]

/-- What a method of a class is made of: its name, and the function that has the given one. -/
def SourceOf (workspace : Workspace) (method : Text × Option Text) (source : MethodSource) : Prop :=
  source.name = method.1 ∧
    workspace.functions.lookup (method.2.getD []) = some source.number ∧
    workspace.contractAt? source.number = some source.contract

theorem methodSource_run_cases (workspace : Workspace) (method : Text × Option Text) :
    (∃ failure, (methodSource method).run workspace = (.error failure, workspace)) ∨
    ∃ source, (methodSource method).run workspace = (.ok source, workspace) ∧
      workspace.SourceOf method source := by
  unfold methodSource
  dsimp only
  cases named : workspace.functions.lookup (method.2.getD []) with
  | none => exact .inl ⟨_, run_bind_of_error (number_run_of_none named)⟩
  | some number =>
    rw [run_bind_of_ok (number_run_of_some named)]
    obtain ⟨found, contract, same, known⟩ | ⟨failure, refused⟩ :=
      contract_run_cases workspace (method.2.getD [])
    · rw [run_bind_of_ok (contract_run_of_some same known)]
      exact .inr ⟨_, rfl, rfl, named, Option.some.inj (same.symm.trans named) ▸ known⟩
    · exact .inl ⟨failure, run_bind_of_error refused⟩

theorem mapM_methodSource_run_cases (workspace : Workspace) (methods : List (Text × Option Text)) :
    (∃ failure, (methods.mapM methodSource).run workspace = (.error failure, workspace)) ∨
    ∃ sources, (methods.mapM methodSource).run workspace = (.ok sources, workspace) ∧
      List.Forall₂ workspace.SourceOf methods sources := by
  induction methods with
  | nil => exact .inr ⟨[], rfl, .nil⟩
  | cons method methods ih =>
    rw [List.mapM_cons]
    obtain ⟨failure, failed⟩ | ⟨source, found, own⟩ := methodSource_run_cases workspace method
    · exact .inl ⟨failure, run_bind_of_error failed⟩
    · rw [run_bind_of_ok found]
      obtain ⟨failure, failed⟩ | ⟨sources, others, all⟩ := ih
      · exact .inl ⟨failure, run_bind_of_error failed⟩
      · rw [run_bind_of_ok others]
        exact .inr ⟨_, rfl, .cons own all⟩

theorem contractAt?_of_sourced {workspace : Workspace} {methods : List (Text × Option Text)}
    {sources : List MethodSource} (sourced : List.Forall₂ workspace.SourceOf methods sources)
    {source : MethodSource} (listed : source ∈ sources) :
    workspace.contractAt? source.number = some source.contract := by
  obtain ⟨_, _, _, _, known⟩ := exists_mem_of_forall₂ sourced.flip listed
  exact known

def MethodSource.copy (type : HostType) (source : MethodSource) : Contract :=
  source.contract.bindClass type (type.shortName ++ "." ++ source.name)

/-- The workspace after a copy was added, named and recorded in the place of its source. -/
def withCopy (id : Text) (type : HostType) (workspace : Workspace) (source : MethodSource) :
    Workspace :=
  let number := workspace.contracts.length
  { workspace with
    contracts := workspace.contracts ++ [source.copy type]
    functions := put (id ++ "." ++ source.name) number workspace.functions
    registries := match source.contract.registry with
      | none => workspace.registries
      | some registry =>
        put registry (replaced (workspace.registryOf registry) source.number number)
          workspace.registries }

/-- The names of methods with the numbers of their copies, which are added in this order. -/
def methodTable (sources : List MethodSource) (first : Nat) : List (Text × Nat) :=
  (sources.zipIdx first).map fun copy => (copy.1.name, copy.2)

theorem bindMethod_run (id : Text) (type : HostType) (workspace : Workspace)
    (source : MethodSource) : (bindMethod id type source).run workspace =
      (.ok (source.name, workspace.contracts.length), workspace.withCopy id type source) := by
  unfold bindMethod withCopy
  cases source.contract.registry <;> rfl

theorem mapM_bindMethod_run (id : Text) (type : HostType) (workspace : Workspace)
    (sources : List MethodSource) : (sources.mapM (bindMethod id type)).run workspace =
      (.ok (methodTable sources workspace.contracts.length),
        sources.foldl (withCopy id type) workspace) := by
  induction sources generalizing workspace with
  | nil => rfl
  | cons source sources ih =>
    rw [List.mapM_cons, run_bind_of_ok (bindMethod_run ..), run_bind_of_ok (ih _)]
    simp [methodTable, withCopy]

/-- The workspace after the methods of a class were bound. -/
def withClass (workspace : Workspace) (id : Text) (type : HostType)
    (sources : List MethodSource) : Workspace :=
  let bound := sources.foldl (withCopy id type) workspace
  { bound with tables := put id (methodTable sources workspace.contracts.length) bound.tables }

theorem bindClass_run_cases (workspace : Workspace) (id : Text) (type : Option HostType)
    (methods : List (Text × Option Text)) :
    (∃ failure, (bindClass id type methods).run workspace = (.error failure, workspace)) ∨
    ∃ own names sources, type = some own ∧ List.Forall₂ workspace.SourceOf
        (methods.mergeSort fun left right => Text.le left.1 right.1) sources ∧
      (bindClass id type methods).run workspace =
        (.ok (own, names), workspace.withClass id own sources) := by
  unfold bindClass
  cases type with
  | none => exact .inl ⟨_, rfl⟩
  | some type =>
    dsimp only
    split
    · exact .inl ⟨_, rfl⟩
    · obtain ⟨failure, failed⟩ | ⟨sources, found, sourced⟩ :=
        mapM_methodSource_run_cases workspace (methods.mergeSort _)
      · exact .inl ⟨failure, run_bind_of_error failed⟩
      · rw [run_bind_of_ok found, run_bind_of_ok (mapM_bindMethod_run ..),
          run_bind_of_ok (run_modify _ _)]
        exact .inr ⟨type, _, sources, rfl, sourced, rfl⟩

theorem contracts_withClass (workspace : Workspace) (id : Text) (type : HostType)
    (sources : List MethodSource) : (workspace.withClass id type sources).contracts =
      workspace.contracts ++ sources.map (MethodSource.copy type) := by
  change (sources.foldl (withCopy id type) workspace).contracts = _
  induction sources generalizing workspace with
  | nil => exact (List.append_nil _).symm
  | cons source sources ih =>
    rw [List.foldl_cons, ih, withCopy, List.append_assoc]
    rfl

/-!
## Operations that keep what is remembered
-/

section

variable {number : Nat}

/-- The function of a number, where there is one, still remembers the same calls. -/
def KeepsRemembered (number : Nat) (before after : Workspace) : Prop :=
  ∀ contract, before.contractAt? number = some contract →
    ∃ changed, after.contractAt? number = some changed ∧
      changed.remembered = contract.remembered

instance : IsPreorder Workspace (KeepsRemembered number) where
  refl := fun _ contract known => ⟨contract, known, rfl⟩
  trans := by
    intro first second third toSecond toThird contract known
    obtain ⟨middle, middleKnown, sameMiddle⟩ := toSecond contract known
    obtain ⟨last, lastKnown, sameLast⟩ := toThird middle middleKnown
    exact ⟨last, lastKnown, sameLast.trans sameMiddle⟩

theorem keepsRemembered_of_append {before after : Workspace} {added : List Contract}
    (all : after.contracts = before.contracts ++ added) : KeepsRemembered number before after := by
  intro contract known
  refine ⟨contract, ?_, rfl⟩
  rw [contractAt?, all, List.getElem?_append_left (List.getElem?_eq_some_iff.mp known).1]
  exact known

theorem keepsRemembered_of_same {before after : Workspace} (same : SameContracts before after) :
    KeepsRemembered number before after :=
  keepsRemembered_of_append (same.2.1.trans (List.append_nil _).symm)

theorem wrap_keepsRemembered (id : Text) (function : Value) (clauses : List Clause) :
    MovesAlong (KeepsRemembered number) (Workspace.wrap id function clauses) := by
  intro workspace
  rw [wrap_run]
  cases Contract.wrap workspace.host function clauses with
  | error failure => exact refl workspace
  | ok made => exact keepsRemembered_of_append rfl

theorem bindClass_keepsRemembered (id : Text) (type : Option HostType)
    (methods : List (Text × Option Text)) :
    MovesAlong (KeepsRemembered number) (Workspace.bindClass id type methods) := by
  intro workspace
  obtain ⟨failure, ran⟩ | ⟨_, _, _, _, _, ran⟩ := bindClass_run_cases workspace id type methods
  · rw [ran]
    exact refl workspace
  · rw [ran]
    exact keepsRemembered_of_append (contracts_withClass ..)

theorem getElem?_set_of_known {contracts : List Contract} {contract : Contract}
    (known : contracts[number]? = some contract) (replaced : Nat) (changed : Contract) :
    (contracts.set replaced changed)[number]? =
      some (if replaced = number then changed else contract) := by
  by_cases same : replaced = number
  · subst same
    simp [(List.getElem?_eq_some_iff.mp known).1]
  · rw [List.getElem?_set_ne same, known, if_neg same]

def withChanged (workspace : Workspace) (id : Text) (number : Nat) (changed : Contract) :
    Workspace :=
  { workspace with
    contracts := workspace.contracts.set number changed
    functions := put id number workspace.functions }

theorem rewrap_run {workspace : Workspace} {source : Text} {contract : Contract}
    (named : workspace.functions.lookup source = some number)
    (known : workspace.contractAt? number = some contract) (id : Text) (clauses : List Clause) :
    (rewrap id source clauses).run workspace =
      match contract.extend clauses with
      | .ok changed => (.ok changed, workspace.withChanged id number changed)
      | .error failure => (.error failure, workspace) := by
  unfold rewrap
  rw [run_bind_of_ok (contract_run_of_some named known)]
  cases contract.extend clauses with
  | error failure => rfl
  | ok changed =>
    dsimp only
    rw [run_bind_of_ok (number_run_of_some named), replaceContract,
      run_bind_of_ok (run_modify _ _), nameFunction, run_bind_of_ok (run_modify _ _)]
    rfl

theorem rewrap_run_cases (workspace : Workspace) (id source : Text) (clauses : List Clause) :
    (∃ failure, (rewrap id source clauses).run workspace = (.error failure, workspace)) ∨
    ∃ number contract changed, workspace.contractAt? number = some contract ∧
      contract.extend clauses = .ok changed ∧ (rewrap id source clauses).run workspace =
        (.ok changed, workspace.withChanged id number changed) := by
  obtain ⟨number, contract, named, known⟩ | ⟨failure, refused⟩ :=
    contract_run_cases workspace source
  · rw [rewrap_run named known]
    cases extended : contract.extend clauses with
    | error failure => exact .inl ⟨failure, rfl⟩
    | ok changed => exact .inr ⟨number, contract, changed, known, extended, rfl⟩
  · exact .inl ⟨failure, run_bind_of_error refused⟩

theorem rewrap_keepsRemembered (id source : Text) (clauses : List Clause) :
    MovesAlong (KeepsRemembered number) (Workspace.rewrap id source clauses) := by
  intro workspace
  obtain ⟨failure, ran⟩ | ⟨found, contract, changed, known, extended, ran⟩ :=
    rewrap_run_cases workspace id source clauses
  · rw [ran]
    exact refl workspace
  · rw [ran]
    intro before beforeKnown
    refine ⟨_, getElem?_set_of_known beforeKnown found changed, ?_⟩
    split
    · next same =>
      subst same
      rw [known] at beforeKnown
      cases beforeKnown
      obtain ⟨_, _, _, _, takes⟩ := Contract.extend_eq_ok_iff.mp extended
      exact takes.remembered
    · rfl

end

/-!
## Operations that change what is remembered
-/

/-- The function of a name, where there is one, remembers other calls. -/
inductive Updates (id : Text) (remembers : Contract → List Record) (before : Workspace) :
    Workspace → Prop where
  | changed {number : Nat} {contract : Contract} {after : Workspace} :
      before.functions.lookup id = some number → before.contractAt? number = some contract →
      after.host = before.host → after.registries = before.registries →
      after.contracts =
        before.contracts.set number { contract with remembered := remembers contract } →
      Updates id remembers before after
  | unknown {failure : Failure} :
      (Workspace.contract id).run before = (.error failure, before) →
      Updates id remembers before before

theorem callWith_updates (workspace : Workspace) (id : Text)
    (step : World → Contract → Snapshot → Memory → Contract.Called) :
    Updates id (fun contract => (step workspace.world contract (workspace.snapshotOf contract)
      workspace.memory).remembered) workspace ((callWith id step).run workspace).2 := by
  obtain ⟨number, contract, named, known⟩ | ⟨failure, unknown⟩ := contract_run_cases workspace id
  · rw [callWith_run named known]
    exact .changed named known rfl rfl rfl
  · rw [callWith, run_bind_of_error unknown]
    exact .unknown unknown

theorem forget_updates (workspace : Workspace) (id : Text) :
    Updates id (fun _ => []) workspace ((forget id).run workspace).2 := by
  obtain ⟨number, contract, named, known⟩ | ⟨failure, unknown⟩ := contract_run_cases workspace id
  · rw [forget, run_bind_of_ok (contract_run_of_some named known),
      run_bind_of_ok (number_run_of_some named), replaceContract, run_modify]
    exact .changed named known rfl rfl rfl
  · rw [forget, run_bind_of_error unknown]
    exact .unknown unknown

theorem Updates.contractAt? {id : Text} {remembers : Contract → List Record}
    {before after : Workspace} {number : Nat} {contract : Contract}
    (updates : Updates id remembers before after)
    (known : before.contractAt? number = some contract) :
    after.contractAt? number =
      some (if before.functions.lookup id = some number then
        { contract with remembered := remembers contract } else contract) := by
  cases updates with
  | @changed found other _ named otherKnown _ _ replaced =>
    rw [Workspace.contractAt?, replaced, getElem?_set_of_known known, named]
    by_cases same : found = number
    · subst same
      rw [otherKnown] at known
      cases known
      simp
    · simp [same]
  | unknown refused =>
    have unnamed : before.functions.lookup id ≠ some number := by
      intro named
      rw [contract_run_of_some named known] at refused
      cases refused
    rw [known, if_neg unnamed]

end Covenant.Workspace
