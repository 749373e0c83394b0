import Covenant.Proofs.Registration

/-!
# Arguments under the names of their types

Declared types, arguments by position and arguments by name are put under names by going through the
parameters one by one. All end up with exactly their names, so the check of argument types never
meets arguments that it has no types for.
-/

set_option autoImplicit false

namespace Covenant

open List

namespace Parameters

theorem requireAll_eq_ok_iff {missing : List Text} :
    requireAll missing = .ok () ↔ missing = [] := by
  unfold requireAll
  cases missing with
  | nil => exact ⟨fun _ => rfl, fun _ => rfl⟩
  | cons name names =>
    constructor
    · intro passed
      cases passed
    · intro none
      cases none

variable {parameters : Parameters} {bound : Bindings}

theorem names_of_assemble {value? : Parameter → Option Value}
    (assembled : parameters.assemble value? = .ok bound) :
    bound.map Prod.fst = parameters.names := by
  obtain ⟨_, given, made⟩ := bind_eq_ok_iff.mp assembled
  cases made
  rw [requireAll_eq_ok_iff, map_eq_nil_iff, filter_eq_nil_iff] at given
  clear assembled
  induction parameters with
  | nil => rfl
  | cons parameter parameters ih =>
    obtain ⟨own, others⟩ := forall_mem_cons.mp given
    cases found : value? parameter with
    | none => exact absurd (Option.isNone_iff_eq_none.mpr found) own
    | some value =>
      rw [filterMap_cons_some (by rw [found]; rfl), map_cons, ih others]
      rfl

variable {dictId listId : ObjectId} {named : Bindings}

theorem names_of_bind {arguments : List Value}
    (succeeded : parameters.bind listId dictId arguments named = .ok bound) :
    bound.map Prod.fst = parameters.names := by
  unfold bind at succeeded
  dsimp only at succeeded
  split at succeeded
  · cases succeeded
  · obtain ⟨_, _, completed⟩ := bind_eq_ok_iff.mp succeeded
    exact names_of_assemble completed

theorem names_of_bindNamed (succeeded : parameters.bindNamed listId dictId named = .ok bound) :
    bound.map Prod.fst = parameters.names := by
  unfold bindNamed at succeeded
  split at succeeded
  · cases succeeded
  · exact names_of_assemble succeeded

end Parameters

/-!
## Calls
-/

namespace Contract

/-- The bindings with which a call goes on to its checks. -/
inductive Binds (contract : Contract) : Bindings → Prop where
  | byPlace {listId dictId : ObjectId} {arguments : List Value} {named bound : Bindings} :
      contract.parameters.bind listId dictId arguments named = .ok bound → Binds contract bound
  | byName {listId dictId : ObjectId} {named bound : Bindings} :
      contract.parameters.bindNamed listId dictId named = .ok bound → Binds contract bound

variable {contract : Contract} {bound : Bindings}

theorem Binds.names (binds : contract.Binds bound) :
    bound.map Prod.fst = contract.parameters.names := by
  cases binds with
  | byPlace succeeded => exact Parameters.names_of_bind succeeded
  | byName succeeded => exact Parameters.names_of_bindNamed succeeded

theorem Binds.complete (binds : contract.Binds bound) : contract.Complete bound :=
  List.Perm.of_eq binds.names

variable {cause : Option Failure} {function name type : Text} {value : Value}

/-- A failed test gives the failure of an argument only where the value violated the type; any other
cause gets a context or stays as it is. -/
theorem name_of_explain {label context : Text} {found : Failure} {shownIn wanted : Text}
    {shown : Value}
    (explained : explain (fun cause => .argumentType function label value type (some cause)) context
      found = .argumentType shownIn name shown wanted cause) : name = label := by
  unfold explain at explained
  split at explained
  · cases explained
  · cases explained
  · split at explained
    · cases explained
      rfl
    · cases explained

theorem Binds.parameter_of_argumentType (binds : contract.Binds bound) (shaped : contract.Shaped)
    {world : World} {memory : Memory} (failed : ((checkAccepts world contract bound).run memory).1 =
      .error (.argumentType function name value type cause)) :
    name ∈ contract.parameters.names := by
  rcases ran : (checkAccepts world contract bound).run memory with ⟨outcome, final⟩
  rw [ran] at failed
  subst failed
  obtain ⟨_, label, refused, _⟩ :=
    (checkAccepts_run_eq_error_iff shaped binds.complete).mp ran
  generalize made : Failure.argumentType function name value type cause = failure at refused
  cases refused with
  | @intro types _ declared given found known typed valued tested =>
    have same := name_of_explain made.symm
    rw [same, ← binds.names]
    exact mem_map_of_mem valued

end Contract

/-!
## Functions of a workspace
-/

namespace Workspace

open Stateful

/-- All functions of a workspace are functions of one host that were put under contract. -/
structure BuiltFor (host : Host) (workspace : Workspace) : Prop where
  sameHost : workspace.host = host
  contracts : ∀ contract ∈ workspace.contracts, Contract.Built host contract

def KeepsBuilt (host : Host) (before after : Workspace) : Prop :=
  before.BuiltFor host → after.BuiltFor host

instance (host : Host) : IsPreorder Workspace (KeepsBuilt host) where
  refl := fun _ built => built
  trans := fun _ _ _ toSecond toThird built => toThird (toSecond built)

variable {host : Host}

variable {after before workspace : Workspace} {number : Nat}

theorem keepsBuilt_of_new (sameHost : after.host = before.host)
    (new : before.BuiltFor host → ∀ contract ∈ after.contracts,
      contract ∈ before.contracts ∨ Contract.Built host contract) :
    KeepsBuilt host before after := by
  intro built
  refine ⟨sameHost.trans built.sameHost, fun contract member => ?_⟩
  exact (new built contract member).elim (built.contracts contract) id

theorem BuiltFor.contractAt? (built : workspace.BuiltFor host) {contract : Contract}
    (known : workspace.contractAt? number = some contract) : Contract.Built host contract :=
  built.contracts contract (mem_of_getElem? known)

theorem KeepsBuilt.of_revises (revises : Revises before after) : KeepsBuilt host before after := by
  refine keepsBuilt_of_new revises.host fun built contract member => ?_
  obtain same | ⟨number, source, changed, known, becomes, replaced⟩ := revises.contracts
  · exact .inl (same ▸ member)
  · rw [replaced] at member
    refine (mem_or_eq_of_mem_set member).imp_right ?_
    rintro rfl
    cases becomes with
    | remember remembered => exact .remember _ (built.contractAt? known)
    | extend extended => exact .extend (built.contractAt? known) extended

theorem wrap_keepsBuilt (id : Text) (function : Value) (clauses : List Clause) :
    MovesAlong (KeepsBuilt host) (wrap id function clauses) := by
  intro workspace
  rw [wrap_run]
  cases wrapped : Contract.wrap workspace.host function clauses with
  | error failure => exact refl workspace
  | ok made =>
    refine keepsBuilt_of_new rfl fun built contract member => ?_
    refine (mem_append.mp member).imp_right fun added => ?_
    rw [mem_singleton.mp added]
    exact .wrap (built.sameHost ▸ wrapped)

theorem host_withClass (workspace : Workspace) (id : Text) (type : HostType)
    (sources : List MethodSource) :
    (workspace.withClass id type sources).host = workspace.host := by
  change (sources.foldl (withCopy id type) workspace).host = _
  induction sources generalizing workspace with
  | nil => rfl
  | cons source sources ih => exact ih (workspace.withCopy id type source)

theorem bindClass_keepsBuilt (id : Text) (type : Option HostType)
    (methods : List (Text × Option Text)) :
    MovesAlong (KeepsBuilt host) (bindClass id type methods) := by
  intro workspace
  obtain ⟨failure, ran⟩ | ⟨own, _, sources, _, sourced, ran⟩ :=
    bindClass_run_cases workspace id type methods
  · rw [ran]
    exact refl workspace
  · rw [ran]
    refine keepsBuilt_of_new (host_withClass ..) fun built contract member => ?_
    rw [contracts_withClass, mem_append] at member
    refine member.imp_right fun copied => ?_
    obtain ⟨source, listed, rfl⟩ := mem_map.mp copied
    exact .bindClass _ _ (built.contractAt? (contractAt?_of_sourced sourced listed))

theorem Operation.perform_keepsBuilt (operation : Operation) :
    MovesAlong (KeepsBuilt host) operation.perform := by
  cases operation with
  | wrap id function clauses => exact .map (wrap_keepsBuilt _ _ _)
  | bindClass id type methods => exact .map (bindClass_keepsBuilt _ _ _)
  | _ => exact (Operation.perform_revises rfl).imp .of_revises

theorem builtFor_initial (host : Host) : (initial host).BuiltFor host :=
  ⟨rfl, fun _ member => absurd member not_mem_nil⟩

theorem BuiltFor.afterAll (built : workspace.BuiltFor host) (operations : List Operation) :
    (workspace.afterAll operations).BuiltFor host := by
  induction operations generalizing workspace with
  | nil => exact built
  | cons operation operations ih => exact ih (operation.perform_keepsBuilt workspace built)

/-- However a function came under contract, its argument types and the arguments of each call stand
under exactly the names of its parameters. The check of argument types therefore finds a type for
each argument, and a failure of an argument always has the name of a parameter. -/
theorem arguments_meet_declared_types (host : Host) (operations : List Operation) {number : Nat}
    {contract : Contract}
    (known : ((initial host).afterAll operations).contractAt? number = some contract) :
    contract.parameters.names.Nodup ∧
    (∀ types, contract.argumentTypes = some types →
      types.map Prod.fst = contract.parameters.names) ∧
    ∀ bound, contract.Binds bound →
      bound.map Prod.fst = contract.parameters.names ∧
      (∀ types, contract.argumentTypes = some types →
        Contract.typesCover types bound = true) ∧
      ∀ world memory function name value type cause,
        ((Contract.checkAccepts world contract bound).run memory).1 =
          .error (.argumentType function name value type cause) →
        name ≠ [] ∧ name ∈ contract.parameters.names := by
  have shaped : contract.Shaped :=
    (((builtFor_initial host).afterAll operations).contractAt? known).shaped
  refine ⟨shaped.different, shaped.covered, fun bound binds => ⟨binds.names, ?_, ?_⟩⟩
  · intro types declared
    exact (Contract.typesCover_of_complete shaped binds.complete declared).1
  · intro world memory function name value type cause failed
    have member := binds.parameter_of_argumentType shaped failed
    exact ⟨shaped.named name member, member⟩

/-- A function with all kinds of parameters gets a precondition and becomes a method of a class. -/
def collectingMethod : List Operation :=
  [.wrap "collect" (.function (Signature.type ⟨[.wordInt, .anySlice, .namedValues], false,
      [.anySlice], false⟩) (.host "VarKw"))
    [.parameters ["first", "rest", "named"], .parameter "first" [.default (.ofWord 7)],
      .parameter "rest" [.variadic], .parameter "named" [.keyword],
      .accepts [.predicate (.number .natural0)]],
    .redeclare "collect" "collect" [.requires "first > 0"],
    .bindClass "table" (some Sample.counter) [("Collect", some "collect")]]

def collectingCopy : Contract :=
  (((initial Sample.host).afterAll collectingMethod).contractAt? 1).get (by decide +kernel)

/-- A named argument that shares the name of a collecting parameter is collected by the other one;
every parameter still has one value and one type. -/
theorem arguments_meet_declared_types_collecting :
    ((initial Sample.host).afterAll collectingMethod).contractAt? 1 = some collectingCopy ∧
      collectingCopy.argumentTypes.isSome = true ∧
      ∃ bound, collectingCopy.parameters.bind 1 2 [.ofWord 5, .ofWord 6] [("rest", .ofWord 8)] =
          .ok bound ∧
        bound.map Prod.fst = ["first", "rest", "named"] ∧
        ∀ types, collectingCopy.argumentTypes = some types →
          Contract.typesCover types bound = true := by
  have known : ((initial Sample.host).afterAll collectingMethod).contractAt? 1 =
      some collectingCopy := (Option.some_get _).symm
  have succeeds : (collectingCopy.parameters.bind 1 2 [.ofWord 5, .ofWord 6]
      [("rest", .ofWord 8)]).toOption.isSome = true := by decide +kernel
  have bound := eq_ok_get_toOption succeeds
  have names : collectingCopy.parameters.names = ["first", "rest", "named"] := by decide +kernel
  obtain ⟨_, _, each⟩ := arguments_meet_declared_types Sample.host collectingMethod known
  obtain ⟨sameNames, covered, _⟩ := each _ (.byPlace bound)
  exact ⟨known, by decide +kernel, _, bound, sameNames.trans names, covered⟩

end Workspace

end Covenant
