import Covenant.Contract.Basic
import Covenant.Proofs.Outcome
import Mathlib.Data.List.Nodup

/-!
# What every declared contract keeps

Whichever way a contract was built, its parameters have different names that are not empty, one for
each parameter of the function, and declared argument types cover exactly these names.
-/

set_option autoImplicit false

namespace Covenant

open List

variable {contract : Contract}

/-!
## Parameters
-/

namespace Parameters

def names (parameters : Parameters) : List Text := parameters.map Parameter.name

variable {parameters : Parameters}

theorem ofNames_eq_ok {labels : List Text} {declared : Parameters}
    (named : ofNames declared labels = .ok parameters) (different : (names declared).Nodup) :
    names parameters = names declared ++ labels ∧ (names parameters).Nodup ∧
      ∀ label ∈ labels, label ≠ [] := by
  induction labels generalizing declared with
  | nil =>
    cases named
    exact ⟨(append_nil _).symm, different, by simp⟩
  | cons label labels ih =>
    rw [ofNames] at named
    split at named
    · cases named
    · next usable =>
      split at named
      · cases named
      · next unknown =>
        have nonempty : label ≠ [] := by
          rintro rfl
          exact usable rfl
        have fresh : label ∉ names declared := by
          intro member
          obtain ⟨parameter, known, same⟩ := mem_map.mp member
          exact unknown (any_eq_true.mpr ⟨parameter, known, by simp [same]⟩)
        have extended : names (declared ++ [⟨label, .positional, none⟩]) =
            names declared ++ [label] := by simp [names]
        have others := ih named (by
          rw [extended]
          exact nodup_append.mpr ⟨different, by simp, by
            intro one member other last
            rw [mem_singleton.mp last]
            rintro rfl
            exact fresh member⟩)
        rw [extended, append_assoc] at others
        exact ⟨others.1, others.2.1, forall_mem_cons.mpr ⟨nonempty, others.2.2⟩⟩

@[simp] theorem names_collectLast (parameters : Parameters) :
    names (collectLast parameters) = names parameters := by
  fun_induction collectLast parameters with
  | case1 => rfl
  | case2 last => rfl
  | case3 first rest _ ih => exact congrArg (first.name :: ·) ih

theorem name_of_apply {parameter changed : Parameter} {option : ParameterOption}
    (applied : parameter.apply option = .ok changed) : changed.name = parameter.name := by
  cases option <;> rw [Parameter.apply] at applied <;> split at applied <;> cases applied <;> rfl

theorem names_of_modify {changed : Parameters} {label : Text} {options : List ParameterOption}
    (modified : parameters.modify label options = .ok changed) :
    names changed = names parameters := by
  unfold modify at modified
  split at modified
  · refine mapM_keeps (fun parameter after applied => ?_) modified
    split at applied
    · exact foldlM_keeps (fun _ _ _ => name_of_apply) applied
    · cases applied
      rfl
  · cases modified

theorem declare_eq_ok {signature : Signature} {labels : Option (List Text)}
    {changes : List (Text × List ParameterOption)}
    (declared : declare signature labels changes = .ok parameters) :
    (names parameters).Nodup ∧ parameters.length = signature.parameters.length ∧
      ∀ name ∈ names parameters, name ≠ [] := by
  unfold declare at declared
  extract_lets count labels at declared
  split at declared
  · cases declared
  · next counted =>
    obtain ⟨named, labelled, declared⟩ := bind_eq_ok_iff.mp declared
    extract_lets collected at declared
    obtain ⟨modified, changed, declared⟩ := bind_eq_ok_iff.mp declared
    obtain ⟨_, _, declared⟩ := bind_eq_ok_iff.mp declared
    obtain ⟨_, _, declared⟩ := bind_eq_ok_iff.mp declared
    cases declared
    obtain ⟨sameNames, different, nonempty⟩ := ofNames_eq_ok labelled (by simp [names])
    have collectedNames : names collected = names named := by
      simp only [collected]
      split
      · exact names_collectLast named
      · rfl
    have finalNames : names parameters = names named :=
      (foldlM_keeps (fun _ _ _ => names_of_modify) changed).trans collectedNames
    refine ⟨finalNames ▸ different, ?_, (finalNames.trans sameNames) ▸ nonempty⟩
    have lengths := congrArg List.length (finalNames.trans sameNames)
    simp only [names, length_map, map_nil, nil_append] at lengths
    rw [lengths]
    simpa using counted

end Parameters

/-!
## The parts of a declaration
-/

namespace Clause

def names : Clause → List Text
  | .name label => [label]
  | _ => []

def parameterLists : Clause → List (List Text)
  | .parameters labels => [labels]
  | _ => []

def parameterChanges : Clause → List (Text × List ParameterOption)
  | .parameter label options => [(label, options)]
  | _ => []

def typeLists : Clause → List (List Given)
  | .accepts types => [types]
  | _ => []

def namedTypeLists : Clause → List (List (Text × Given))
  | .acceptsNamed types => [types]
  | _ => []

def returnTypes : Clause → List Given
  | .returns type => [type]
  | _ => []

def preconditions : Clause → List Text
  | .requires condition => [condition]
  | _ => []

def postconditions : Clause → List Text
  | .ensures condition => [condition]
  | _ => []

def settings : Clause → Bindings
  | .config label value => [(label, value)]
  | _ => []

def protects : Clause → Bool
  | .immutable _ => true
  | _ => false

def exempted : Clause → List Text
  | .immutable labels => labels
  | _ => []

def stores : Clause → List Text
  | .store label => [label]
  | _ => []

def registries : Clause → List (Option Text)
  | .registry label => [label]
  | _ => []

end Clause

namespace Declaration

/-- A declaration holds what another one held and what some clauses add to it. What can be given
once is given at most once. -/
structure Collects (before : Declaration) (clauses : List Clause) (after : Declaration) :
    Prop where
  name : after.name = (clauses.flatMap Clause.names).getLastD before.name
  parameters : after.parameters.toList =
    before.parameters.toList ++ clauses.flatMap Clause.parameterLists
  changes : after.changes = before.changes ++ clauses.flatMap Clause.parameterChanges
  accepts : after.accepts.toList = before.accepts.toList ++ clauses.flatMap Clause.typeLists
  acceptsNamed : after.acceptsNamed.toList =
    before.acceptsNamed.toList ++ clauses.flatMap Clause.namedTypeLists
  returns : after.returns.toList = before.returns.toList ++ clauses.flatMap Clause.returnTypes
  requires : after.requires = before.requires ++ clauses.flatMap Clause.preconditions
  ensures : after.ensures = before.ensures ++ clauses.flatMap Clause.postconditions
  config : after.config = before.config ++ clauses.flatMap Clause.settings
  immutable : after.immutable = (before.immutable || clauses.any Clause.protects)
  mutableNames : after.mutableNames = before.mutableNames ++ clauses.flatMap Clause.exempted
  store : after.store = (clauses.flatMap Clause.stores).getLast?.or before.store
  registry : after.registry = (clauses.flatMap Clause.registries).getLast?.or before.registry

variable {clause : Clause} {after before : Declaration} {clauses : List Clause}

/-- A clause is refused only when it gives once more what can be given once. -/
theorem exists_add_eq_ok (collected : Collects before (clause :: clauses) after) :
    ∃ next, before.add clause = .ok next := by
  have free {α : Type} {given found : Option α} {item : α} {items : List α}
      (same : found.toList = given.toList ++ item :: items) : given.isSome = false := by
    cases given with
    | none => rfl
    | some first => cases found <;> simp at same
  cases clause with
  | parameters labels =>
    exact ⟨_, if_neg (by rw [free collected.parameters]; decide)⟩
  | accepts types => exact ⟨_, if_neg (by rw [free collected.accepts]; decide)⟩
  | acceptsNamed types => exact ⟨_, if_neg (by rw [free collected.acceptsNamed]; decide)⟩
  | returns type => exact ⟨_, if_neg (by rw [free collected.returns]; decide)⟩
  | _ => exact ⟨_, rfl⟩

namespace Collects

variable {before middle after : Declaration} {first second : List Clause}

/-- What clauses add in two steps, they add together. -/
theorem append_iff (toMiddle : Collects before first middle) :
    Collects before (first ++ second) after ↔ Collects middle second after := by
  obtain ⟨_, _, _, _, _, _, _, _, _, _, _, _, _⟩ := toMiddle
  constructor
  · intro ⟨_, _, _, _, _, _, _, _, _, _, _, _, _⟩
    constructor <;> simp_all [Bool.or_assoc, Option.or_assoc]
  · intro ⟨_, _, _, _, _, _, _, _, _, _, _, _, _⟩
    constructor <;> simp_all [Bool.or_assoc, Option.or_assoc]

theorem nil_iff : Collects before [] after ↔ after = before := by
  have same {α : Type} {left right : Option α} (lists : left.toList = right.toList) :
      left = right := by
    cases left <;> cases right <;> simp_all
  constructor
  · intro ⟨_, parameters, _, accepts, acceptsNamed, returns, _, _, _, _, _, _, _⟩
    have := same (parameters.trans (List.append_nil _))
    have := same (accepts.trans (List.append_nil _))
    have := same (acceptsNamed.trans (List.append_nil _))
    have := same (returns.trans (List.append_nil _))
    cases before
    cases after
    simp_all
  · intro same
    rw [same]
    constructor <;> simp

end Collects

/-- A clause adds to one part of a declaration, and the others stay as without it. -/
theorem collects_of_add {declaration next : Declaration}
    (added : declaration.add clause = .ok next) : Collects declaration [clause] next := by
  have unchanged : Collects declaration [] declaration := Collects.nil_iff.mpr rfl
  have once {α : Type} {given : Option α} {texts : List Text} {made : Declaration}
      (added : (if given.isSome then refuseDeclaration texts else .ok made) = .ok next) :
      given = none ∧ made = next := by
    cases given with
    | none => exact ⟨rfl, Except.ok.inj added⟩
    | some first => cases added
  cases clause with
  | name label =>
    cases added
    exact { unchanged with name := rfl }
  | parameters labels =>
    obtain ⟨absent, rfl⟩ := once added
    exact { unchanged with parameters := by rw [absent]; rfl }
  | parameter label options =>
    cases added
    exact { unchanged with changes := rfl }
  | accepts types =>
    obtain ⟨absent, rfl⟩ := once added
    exact { unchanged with accepts := by rw [absent]; rfl }
  | acceptsNamed types =>
    obtain ⟨absent, rfl⟩ := once added
    exact { unchanged with acceptsNamed := by rw [absent]; rfl }
  | returns type =>
    obtain ⟨absent, rfl⟩ := once added
    exact { unchanged with returns := by rw [absent]; rfl }
  | requires condition =>
    cases added
    exact { unchanged with requires := rfl }
  | ensures condition =>
    cases added
    exact { unchanged with ensures := rfl }
  | config label value =>
    cases added
    exact { unchanged with config := rfl }
  | immutable labels =>
    cases added
    exact { unchanged with
      immutable := (Bool.or_true _).symm
      mutableNames := by rw [List.flatMap_singleton]; rfl }
  | store label =>
    cases added
    exact { unchanged with store := rfl }
  | registry label =>
    cases added
    exact { unchanged with registry := rfl }

/-- Clauses make up a declaration exactly when it holds what they add, and nothing twice that can
be given once. -/
theorem foldlM_add_eq_ok_iff :
    clauses.foldlM add before = .ok after ↔ Collects before clauses after := by
  induction clauses generalizing before with
  | nil =>
    rw [Collects.nil_iff]
    constructor
    · intro folded
      cases folded
      rfl
    · intro same
      rw [same]
      rfl
  | cons clause clauses ih =>
    rw [List.foldlM_cons, bind_eq_ok_iff]
    constructor
    · intro ⟨next, added, folded⟩
      exact (collects_of_add added).append_iff.mpr (ih.mp folded)
    · intro collected
      obtain ⟨next, added⟩ := exists_add_eq_ok collected
      exact ⟨next, added, ih.mpr ((collects_of_add added).append_iff.mp collected)⟩

end Declaration

/-!
## What a declaration does to a contract
-/

def Condition.Compiled (mode : Condition.Mode) : List Text → List Condition → Prop :=
  List.Forall₂ fun source condition => Condition.compile mode source = .ok condition

def Overlay.Assigned (before : Overlay) (entries : Bindings) (after : Overlay) : Prop :=
  ∃ settings, after = settings.foldl Overlay.assign before ∧
    List.Forall₂ (fun entry setting => Setting.read entry.1 entry.2 = .ok setting) entries settings

theorem Overlay.foldlM_set_eq_ok_iff {refuse : Failure → Failure} {entries : Bindings}
    {before after : Overlay} :
    entries.foldlM (fun overlay (label, value) => (overlay.set label value).mapError refuse)
      before = .ok after ↔ Assigned before entries after := by
  induction entries generalizing before with
  | nil =>
    constructor
    · intro folded
      cases folded
      exact ⟨[], rfl, .nil⟩
    · intro ⟨settings, last, read⟩
      cases read
      rw [last]
      rfl
  | cons entry entries ih =>
    rw [List.foldlM_cons, bind_eq_ok_iff]
    constructor
    · intro ⟨next, assigned, folded⟩
      rw [mapError_eq_ok_iff] at assigned
      obtain ⟨setting, read, same⟩ := map_eq_ok_iff.mp assigned
      obtain ⟨settings, last, others⟩ := ih.mp folded
      refine ⟨setting :: settings, ?_, .cons read others⟩
      rw [last, ← same, List.foldl_cons]
    · intro ⟨settings, last, read⟩
      cases read with
      | @cons _ setting _ settings read others =>
        refine ⟨before.assign setting, ?_, ih.mpr ⟨settings, last, others⟩⟩
        rw [mapError_eq_ok_iff]
        exact map_eq_ok_iff.mpr ⟨setting, read, rfl⟩

namespace Contract

/-- Every part of a contract after a declaration that is accepted. -/
structure Takes (contract : Contract) (declaration : Declaration) (changed : Contract) :
    Prop where
  function : changed.function = contract.function
  signature : changed.signature = contract.signature
  parameters : changed.parameters = contract.parameters
  name : changed.name = if declaration.name.isEmpty then contract.name else declaration.name
  argumentTypes :
    if declaration.accepts.isSome || declaration.acceptsNamed.isSome then
      contract.argumentTypes = none ∧ ∃ types, changed.argumentTypes = some types ∧
        declareArguments changed.name contract.parameters (declaration.accepts.getD [])
          (declaration.acceptsNamed.getD []) = .ok types
    else changed.argumentTypes = contract.argumentTypes
  returnType :
    match declaration.returns with
    | none => changed.returnType = contract.returnType
    | some given => contract.returnType = none ∧
        ∃ type, changed.returnType = some type ∧ Predicate.ofGiven given = .ok type
  requires : ∃ conditions, changed.requires = contract.requires ++ conditions ∧
    Condition.Compiled .precondition declaration.requires conditions
  ensures : ∃ conditions, changed.ensures = contract.ensures ++ conditions ∧
    Condition.Compiled .postcondition declaration.ensures conditions
  overlay : contract.overlay.Assigned declaration.config changed.overlay
  store : changed.store = declaration.store.or contract.store
  immutable : changed.immutable = (contract.immutable || declaration.immutable)
  known : ∀ label ∈ declaration.mutableNames, label ∈ contract.parameters.names
  mutableNames :
    changed.mutableNames = (contract.mutableNames ++ declaration.mutableNames).eraseDups
  registry : changed.registry = contract.registry
  remembered : changed.remembered = contract.remembered

theorem compileAll_eq_ok_iff {word : String} {name : Text} {mode : Condition.Mode}
    {sources : List Text} {conditions : List Condition} :
    compileAll word name mode sources = .ok conditions ↔
      Condition.Compiled mode sources conditions := by
  rw [compileAll, mapM_eq_ok_iff, Condition.Compiled]
  simp only [mapError_eq_ok_iff]

variable {contract changed : Contract} {name : Text} {declaration : Declaration}

theorem typesAfter_eq_ok_iff {after : Option (List (Text × Predicate))} :
    contract.typesAfter name declaration = .ok after ↔
      if declaration.accepts.isSome || declaration.acceptsNamed.isSome then
        contract.argumentTypes = none ∧ ∃ types, after = some types ∧
          declareArguments name contract.parameters (declaration.accepts.getD [])
            (declaration.acceptsNamed.getD []) = .ok types
      else after = contract.argumentTypes := by
  unfold typesAfter
  split
  · cases contract.argumentTypes with
    | some types => simp [refuseDeclaration]
    | none =>
      simp only [Option.isSome_none, Bool.false_eq_true, if_false, true_and, map_eq_ok_iff]
      exact exists_congr fun types => and_comm.trans (and_congr_left' eq_comm)
  · rw [Except.ok.injEq]
    exact eq_comm

theorem returnTypeAfter_eq_ok_iff {after : Option Predicate} :
    contract.returnTypeAfter name declaration = .ok after ↔
      match declaration.returns with
      | none => after = contract.returnType
      | some given => contract.returnType = none ∧
          ∃ type, after = some type ∧ Predicate.ofGiven given = .ok type := by
  unfold returnTypeAfter
  cases declaration.returns with
  | none =>
    rw [Except.ok.injEq]
    exact eq_comm
  | some given =>
    cases contract.returnType with
    | some type => simp [refuseDeclaration]
    | none =>
      simp only [Option.isSome_none, Bool.false_eq_true, if_false, true_and, map_eq_ok_iff,
        mapError_eq_ok_iff]
      exact exists_congr fun type => and_comm.trans (and_congr_left' eq_comm)

theorem find?_unknown_eq_none_iff {parameters : Parameters} {labels : List Text} :
    labels.find? (fun label => !parameters.any (fun parameter => parameter.name == label)) = none ↔
      ∀ label ∈ labels, label ∈ parameters.names := by
  simp [List.find?_eq_none, Parameters.names]

theorem declare_eq_ok_iff : contract.declare declaration = .ok changed ↔
    contract.Takes declaration changed := by
  unfold declare
  extract_lets name unknown
  simp only [bind_eq_ok_iff, typesAfter_eq_ok_iff, returnTypeAfter_eq_ok_iff, compileAll_eq_ok_iff,
    Overlay.foldlM_set_eq_ok_iff]
  constructor
  · intro ⟨argumentTypes, typesDeclared, returnType, returnDeclared, requires, requiresCompiled,
      ensures, ensuresCompiled, overlay, assigned, declared⟩
    cases found : unknown with
    | some label =>
      rw [found] at declared
      cases declared
    | none =>
      rw [found] at declared
      cases declared
      exact ⟨rfl, rfl, rfl, rfl, typesDeclared, returnDeclared, ⟨requires, rfl, requiresCompiled⟩,
        ⟨ensures, rfl, ensuresCompiled⟩, assigned, rfl, rfl, find?_unknown_eq_none_iff.mp found,
        rfl, rfl, rfl⟩
  · intro takes
    obtain ⟨requires, sameRequires, requiresCompiled⟩ := takes.requires
    obtain ⟨ensures, sameEnsures, ensuresCompiled⟩ := takes.ensures
    have sameName : changed.name = name := takes.name
    refine ⟨changed.argumentTypes, sameName ▸ takes.argumentTypes, changed.returnType,
      takes.returnType, requires, requiresCompiled, ensures, ensuresCompiled, changed.overlay,
      takes.overlay, ?_⟩
    have known : unknown = none := find?_unknown_eq_none_iff.mpr takes.known
    rw [known, ← sameName, ← sameRequires, ← sameEnsures, ← takes.store, ← takes.immutable,
      ← takes.mutableNames, ← takes.function, ← takes.signature, ← takes.parameters,
      ← takes.registry, ← takes.remembered]
    rfl

/-- What clauses make of a contract whose parameters are fixed. -/
def Declares (contract : Contract) (clauses : List Clause) (changed : Contract) : Prop :=
  ∃ declaration, Declaration.Collects {} clauses declaration ∧ declaration.parameters = none ∧
    declaration.changes = [] ∧ contract.Takes declaration changed

variable {clauses : List Clause}

theorem extend_eq_ok_iff :
    contract.extend clauses = .ok changed ↔ contract.Declares clauses changed := by
  unfold extend
  rw [bind_eq_ok_iff]
  constructor
  · intro ⟨declaration, collected, extended⟩
    split at extended
    · cases extended
    · next unchanged =>
      rw [Bool.or_eq_true, not_or] at unchanged
      exact ⟨declaration, Declaration.foldlM_add_eq_ok_iff.mp collected, by simpa using unchanged.1,
        by simpa using unchanged.2, declare_eq_ok_iff.mp extended⟩
  · intro ⟨declaration, collected, unnamed, unchanged, takes⟩
    refine ⟨declaration, Declaration.foldlM_add_eq_ok_iff.mpr collected, ?_⟩
    rw [unnamed, unchanged]
    exact declare_eq_ok_iff.mpr takes

theorem registry_of_extend (extended : contract.extend clauses = .ok changed) :
    changed.registry = contract.registry := by
  obtain ⟨_, _, _, _, takes⟩ := extend_eq_ok_iff.mp extended
  exact takes.registry

def undeclared (host : Host) (function : Value) (signature : Signature) (parameters : Parameters)
    (registry : Option Text) : Contract :=
  { function := function, signature := signature, parameters := parameters
    name := titleOf host function, argumentTypes := none, returnType := none
    requires := [], ensures := [], overlay := .empty, store := none
    immutable := false, mutableNames := [], registry := registry, remembered := [] }

def Wraps (host : Host) (function : Value) (clauses : List Clause) (made : Contract) : Prop :=
  ∃ type target signature declaration parameters, function = .function type target ∧
    Condition.signatureOf? host function = some signature ∧
    Declaration.Collects {} clauses declaration ∧
    Parameters.declare signature declaration.parameters declaration.changes = .ok parameters ∧
    (undeclared host function signature parameters
      (declaration.registry.getD (some defaultRegistry))).Takes declaration made

theorem wrap_eq_ok_iff {host : Host} {function : Value} {made : Contract} :
    wrap host function clauses = .ok made ↔ Wraps host function clauses made := by
  unfold wrap
  rw [bind_eq_ok_iff]
  constructor
  · intro ⟨declaration, collected, wrapped⟩
    split at wrapped
    · next type target signature signed =>
      obtain ⟨parameters, declared, wrapped⟩ := bind_eq_ok_iff.mp wrapped
      exact ⟨type, target, signature, declaration, parameters, rfl, signed,
        Declaration.foldlM_add_eq_ok_iff.mp collected, declared, declare_eq_ok_iff.mp wrapped⟩
    · cases wrapped
  · intro ⟨type, target, signature, declaration, parameters, same, signed, collected, declared,
      takes⟩
    refine ⟨declaration, Declaration.foldlM_add_eq_ok_iff.mpr collected, ?_⟩
    subst same
    rw [signed]
    exact bind_eq_ok_iff.mpr ⟨parameters, declared, declare_eq_ok_iff.mpr takes⟩

end Contract

/-!
## Contracts
-/

namespace Contract

theorem bind_of_declareArguments {name : Text} {parameters : Parameters} {positional : List Given}
    {named : List (Text × Given)} {types : List (Text × Predicate)}
    (declared : declareArguments name parameters positional named = .ok types) :
    ∃ values namedValues bound, values.length = positional.length ∧
      (namedValues.map Prod.fst).Perm (named.map Prod.fst) ∧
      parameters.bind 0 0 values namedValues = .ok bound ∧
      types.map Prod.fst = parameters.names ∧
      ∀ parameter ∈ parameters, parameter.kind = .positional →
        (parameter.name, typeOf ((bound.lookup parameter.name).getD .nil)) ∈ types := by
  unfold declareArguments at declared
  extract_lets refuse asValue sorted at declared
  rw [mapError_eq_ok_iff] at declared
  obtain ⟨values, read, declared⟩ := bind_eq_ok_iff.mp declared
  obtain ⟨namedValues, readNamed, declared⟩ := bind_eq_ok_iff.mp declared
  obtain ⟨bound, succeeded, declared⟩ := bind_eq_ok_iff.mp declared
  cases declared
  refine ⟨values, namedValues, bound, (mapM_eq_ok_iff.mp read).length_eq.symm, ?_, succeeded,
    by simp [Parameters.names], fun parameter member kind => ?_⟩
  · have same : namedValues.map Prod.fst = sorted.map Prod.fst := by
      refine mapM_keeps (fun entry result labelled => ?_) readNamed
      obtain ⟨value, _, made⟩ := bind_eq_ok_iff.mp labelled
      cases made
      rfl
    rw [same]
    exact (List.mergeSort_perm named _).map Prod.fst
  · refine List.mem_map.mpr ⟨parameter, member, ?_⟩
    rw [kind]

/-- The ways in which a contract comes about. -/
inductive Built (host : Host) : Contract → Prop where
  | wrap {function : Value} {clauses : List Clause} {contract : Contract} :
      Contract.wrap host function clauses = .ok contract → Built host contract
  | extend {contract changed : Contract} {clauses : List Clause} :
      Built host contract → contract.extend clauses = .ok changed → Built host changed
  | bindClass {contract : Contract} (type : HostType) (name : Text) :
      Built host contract → Built host (contract.bindClass type name)
  | remember {contract : Contract} (remembered : List Record) :
      Built host contract → Built host { contract with remembered := remembered }

/-- What the parts of a contract have to do with each other. -/
structure Shaped (contract : Contract) : Prop where
  different : contract.parameters.names.Nodup
  counted : contract.parameters.length = contract.signature.parameters.length
  covered : ∀ types, contract.argumentTypes = some types →
    types.map Prod.fst = contract.parameters.names
  named : ∀ name ∈ contract.parameters.names, name ≠ []

theorem Shaped.of_takes {declaration : Declaration} {changed : Contract} (shaped : contract.Shaped)
    (takes : contract.Takes declaration changed) : changed.Shaped := by
  refine ⟨takes.parameters ▸ shaped.different, ?_, ?_, takes.parameters ▸ shaped.named⟩
  · rw [takes.parameters, takes.signature]
    exact shaped.counted
  · intro types found
    rw [takes.parameters]
    have declared := takes.argumentTypes
    split at declared
    · obtain ⟨_, _, same, made⟩ := declared
      cases same.symm.trans found
      obtain ⟨_, _, _, _, _, _, names, _⟩ := bind_of_declareArguments made
      exact names
    · exact shaped.covered types (declared ▸ found)

theorem Built.shaped {host : Host} (built : Built host contract) :
    contract.Shaped := by
  induction built with
  | wrap wrapped =>
    obtain ⟨_, _, _, _, parameters, _, _, _, declared, takes⟩ := wrap_eq_ok_iff.mp wrapped
    obtain ⟨different, counted, named⟩ := Parameters.declare_eq_ok declared
    exact .of_takes ⟨different, counted, fun _ found => (by cases found), named⟩ takes
  | extend _ extended ih =>
    obtain ⟨_, _, _, _, takes⟩ := extend_eq_ok_iff.mp extended
    exact ih.of_takes takes
  | @bindClass contract type name _ ih =>
    refine ⟨ih.different, ih.counted, fun types found => ?_, ih.named⟩
    obtain ⟨before, declared, rfl⟩ := Option.map_eq_some_iff.mp found
    rw [map_map]
    exact ih.covered before declared
  | remember _ _ ih => exact ⟨ih.different, ih.counted, ih.covered, ih.named⟩

end Contract

end Covenant
