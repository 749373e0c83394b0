import Covenant.Proofs.Atomicity
import Mathlib.Data.List.Induction
import Mathlib.Data.List.Perm.Basic
import Mathlib.Data.Option.Defs

/-!
# Declarations add up

A function may be declared in one go or in several, and its clauses may stand in any order in which
those that refer to the same thing keep theirs. Neither changes whether the declaration is accepted
nor what it makes of the contract.
-/

set_option autoImplicit false

namespace Covenant

open List

variable {clauses : List Clause} {contract changed made : Contract} {function : Value}
  {workspace : Workspace}

section Lists

variable {α β : Type}

theorem forall₂_append_left_iff {related : α → β → Prop} {first second : List α} {found : List β} :
    List.Forall₂ related (first ++ second) found ↔
      ∃ left right, found = left ++ right ∧ List.Forall₂ related first left ∧
        List.Forall₂ related second right := by
  constructor
  · intro all
    induction first generalizing found with
    | nil => exact ⟨[], found, rfl, .nil, all⟩
    | cons item first ih =>
      cases all with
      | cons here others =>
        obtain ⟨left, right, same, firsts, seconds⟩ := ih others
        exact ⟨_ :: left, right, congrArg (_ :: ·) same, .cons here firsts, seconds⟩
  · intro ⟨left, right, same, firsts, seconds⟩
    rw [same]
    exact rel_append firsts seconds

theorem exists_forall₂_of_forall {related : α → β → Prop} {items : List α}
    (each : ∀ item ∈ items, ∃ found, related item found) :
    ∃ found, List.Forall₂ related items found := by
  induction items with
  | nil => exact ⟨[], .nil⟩
  | cons item items ih =>
    obtain ⟨here, relatedHere⟩ := each item (.head _)
    obtain ⟨others, relatedOthers⟩ := ih fun other inside => each other (.tail _ inside)
    exact ⟨here :: others, .cons relatedHere relatedOthers⟩

theorem eq_of_perm_of_length_le_one {left right : List α} (permuted : left.Perm right)
    (short : right.length ≤ 1) : left = right := by
  cases right with
  | nil => exact permuted.eq_nil
  | cons item rest =>
    cases rest with
    | nil => exact perm_singleton.mp permuted
    | cons next rest => simp at short

variable [BEq α] [LawfulBEq α]

theorem nodup_eraseDups (items : List α) : items.eraseDups.Nodup := by
  cases items with
  | nil => exact nodup_nil
  | cons item items =>
    rw [eraseDups_cons, nodup_cons, mem_eraseDups]
    refine ⟨?_, nodup_eraseDups _⟩
    simp
termination_by items.length
decreasing_by exact Nat.lt_succ_of_le (length_filter_le _ _)

theorem eraseDups_of_nodup {items : List α} (distinct : items.Nodup) : items.eraseDups = items := by
  induction items with
  | nil => rfl
  | cons item items ih =>
    obtain ⟨fresh, distinct⟩ := nodup_cons.mp distinct
    have kept : items.filter (fun other => !other == item) = items := by
      refine filter_eq_self.mpr fun other inside => ?_
      have : other ≠ item := fun same => fresh (same ▸ inside)
      simpa using this
    rw [eraseDups_cons, kept, ih distinct]

theorem eraseDups_eraseDups_append (first second : List α) :
    (first.eraseDups ++ second).eraseDups = (first ++ second).eraseDups := by
  have others : second.removeAll first.eraseDups = second.removeAll first := by
    refine filter_congr fun item _ => ?_
    rw [Bool.eq_iff_iff]
    simp
  rw [eraseDups_append, eraseDups_append, eraseDups_of_nodup (nodup_eraseDups first),
    others]

theorem eraseDups_perm {left right : List α} (same : ∀ item, item ∈ left ↔ item ∈ right) :
    left.eraseDups.Perm right.eraseDups := by
  refine (perm_ext_iff_of_nodup (nodup_eraseDups left) (nodup_eraseDups right)).mpr ?_
  intro item
  rw [mem_eraseDups, mem_eraseDups]
  exact same item

end Lists

/-!
## The declaration that clauses make up
-/

namespace Declaration

/-- All that clauses say; of what can be given once, what is given first. -/
def gathered (clauses : List Clause) : Declaration where
  name := (clauses.flatMap Clause.names).getLastD []
  parameters := (clauses.flatMap Clause.parameterLists).head?
  changes := clauses.flatMap Clause.parameterChanges
  accepts := (clauses.flatMap Clause.typeLists).head?
  acceptsNamed := (clauses.flatMap Clause.namedTypeLists).head?
  returns := (clauses.flatMap Clause.returnTypes).head?
  requires := clauses.flatMap Clause.preconditions
  ensures := clauses.flatMap Clause.postconditions
  config := clauses.flatMap Clause.settings
  immutable := clauses.any Clause.protects
  mutableNames := clauses.flatMap Clause.exempted
  store := (clauses.flatMap Clause.stores).getLast?
  registry := (clauses.flatMap Clause.registries).getLast?

structure GivenOnce (clauses : List Clause) : Prop where
  parameters : (clauses.flatMap Clause.parameterLists).length ≤ 1
  accepts : (clauses.flatMap Clause.typeLists).length ≤ 1
  acceptsNamed : (clauses.flatMap Clause.namedTypeLists).length ≤ 1
  returns : (clauses.flatMap Clause.returnTypes).length ≤ 1

theorem toList_eq_iff {α : Type} {found : Option α} {items : List α} :
    found.toList = items ↔ items.length ≤ 1 ∧ found = items.head? := by
  cases items with
  | nil => cases found <;> simp
  | cons item items =>
    cases items with
    | nil => cases found <;> simp
    | cons next items => cases found <;> simp

theorem collects_empty_iff {declaration : Declaration} :
    Collects {} clauses declaration ↔ GivenOnce clauses ∧ declaration = gathered clauses := by
  constructor
  · intro ⟨name, parameters, changes, accepts, acceptsNamed, returns, requires, ensures, config,
      immutable, mutableNames, store, registry⟩
    obtain ⟨parametersOnce, parameters⟩ := toList_eq_iff.mp parameters
    obtain ⟨acceptsOnce, accepts⟩ := toList_eq_iff.mp accepts
    obtain ⟨acceptsNamedOnce, acceptsNamed⟩ := toList_eq_iff.mp acceptsNamed
    obtain ⟨returnsOnce, returns⟩ := toList_eq_iff.mp returns
    refine ⟨⟨parametersOnce, acceptsOnce, acceptsNamedOnce, returnsOnce⟩, ?_⟩
    cases declaration
    simp_all [gathered]
  · intro ⟨once, same⟩
    rw [same]
    exact ⟨rfl, toList_eq_iff.mpr ⟨once.parameters, rfl⟩, rfl,
      toList_eq_iff.mpr ⟨once.accepts, rfl⟩, toList_eq_iff.mpr ⟨once.acceptsNamed, rfl⟩,
      toList_eq_iff.mpr ⟨once.returns, rfl⟩, rfl, rfl, rfl, rfl, rfl, Option.or_none.symm,
      Option.or_none.symm⟩

end Declaration

/-!
## One declaration in two parts
-/

theorem Condition.compiled_append_iff {mode : Condition.Mode} {first second : List Text}
    {before after : List Condition} :
    (∃ all, after = before ++ all ∧ Condition.Compiled mode (first ++ second) all) ↔
      ∃ middle, (∃ left, middle = before ++ left ∧ Condition.Compiled mode first left) ∧
        ∃ right, after = middle ++ right ∧ Condition.Compiled mode second right := by
  simp only [Condition.Compiled, forall₂_append_left_iff]
  grind

theorem Overlay.assigned_append_iff {before after : Overlay} {first second : Bindings} :
    before.Assigned (first ++ second) after ↔
      ∃ middle : Overlay, before.Assigned first middle ∧ middle.Assigned second after := by
  constructor
  · intro ⟨settings, last, read⟩
    obtain ⟨left, right, same, firsts, seconds⟩ := forall₂_append_left_iff.mp read
    refine ⟨left.foldl Overlay.assign before, ⟨left, rfl, firsts⟩, right, ?_, seconds⟩
    rw [last, same, foldl_append]
  · intro ⟨middle, ⟨left, toMiddle, firsts⟩, right, toAfter, seconds⟩
    refine ⟨left ++ right, ?_, rel_append firsts seconds⟩
    rw [toAfter, toMiddle, foldl_append]

namespace Clause

def adds : Clause → Bool
  | .accepts _ | .acceptsNamed _ | .returns _ | .requires _ | .ensures _ | .config _ _
  | .immutable _ => true
  | _ => false

def types : Clause → Bool
  | .accepts _ | .acceptsNamed _ => true
  | _ => false

/-- Argument types stand in one of two parts only. -/
def Undivided (first second : List Clause) : Prop :=
  (∀ clause ∈ first, !clause.types) ∨ ∀ clause ∈ second, !clause.types

variable {clauses : List Clause}

theorem fixed_of_adds (all : ∀ clause ∈ clauses, clause.adds) :
    clauses.flatMap names = [] ∧ clauses.flatMap parameterLists = [] ∧
      clauses.flatMap parameterChanges = [] ∧ clauses.flatMap stores = [] ∧
      clauses.flatMap registries = [] := by
  simp only [flatMap_eq_nil_iff]
  refine ⟨?_, ?_, ?_, ?_, ?_⟩ <;> intro clause inside <;> have := all clause inside <;>
    cases clause <;> first | rfl | cases this

theorem typeLists_of_untyped (all : ∀ clause ∈ clauses, !clause.types) :
    clauses.flatMap typeLists = [] ∧ clauses.flatMap namedTypeLists = [] := by
  simp only [flatMap_eq_nil_iff]
  refine ⟨?_, ?_⟩ <;> intro clause inside <;> have := all clause inside <;>
    cases clause <;> first | rfl | cases this

end Clause

namespace Declaration

/-- A declaration says what two others say. The second adds to the first, and argument types stand
in one of them. -/
structure Joins (first second joined : Declaration) : Prop where
  name : joined.name = first.name
  unnamed : second.name = []
  types : (second.accepts = none ∧ second.acceptsNamed = none ∧ joined.accepts = first.accepts ∧
      joined.acceptsNamed = first.acceptsNamed) ∨
    (first.accepts = none ∧ first.acceptsNamed = none ∧ joined.accepts = second.accepts ∧
      joined.acceptsNamed = second.acceptsNamed)
  returns : joined.returns = first.returns.or second.returns
  requires : joined.requires = first.requires ++ second.requires
  ensures : joined.ensures = first.ensures ++ second.ensures
  config : joined.config = first.config ++ second.config
  immutable : joined.immutable = (first.immutable || second.immutable)
  mutableNames : joined.mutableNames = first.mutableNames ++ second.mutableNames
  store : joined.store = first.store
  unstored : second.store = none

end Declaration

namespace Contract

def TakesTypes (name : Text) (parameters : Parameters) (declaration : Declaration)
    (before after : Option (List (Text × Predicate))) : Prop :=
  if declaration.accepts.isSome || declaration.acceptsNamed.isSome then
    before = none ∧ ∃ types, after = some types ∧
      declareArguments name parameters (declaration.accepts.getD [])
        (declaration.acceptsNamed.getD []) = .ok types
  else after = before

def TakesReturn (declaration : Declaration) (before after : Option Predicate) : Prop :=
  match declaration.returns with
  | none => after = before
  | some given => before = none ∧ ∃ type, after = some type ∧ Predicate.ofGiven given = .ok type

section Joined

variable {first second joined : Declaration} (joins : Declaration.Joins first second joined)

include joins

theorem takesTypes_joined_iff {name : Text} {parameters : Parameters}
    {before after : Option (List (Text × Predicate))} :
    TakesTypes name parameters joined before after ↔
      ∃ middle, TakesTypes name parameters first before middle ∧
        TakesTypes name parameters second middle after := by
  unfold TakesTypes
  obtain ⟨noTypes, noNamed, types, named⟩ | ⟨noTypes, noNamed, types, named⟩ := joins.types
  · simp [noTypes, noNamed, types, named]
  · simp [noTypes, noNamed, types, named]

theorem takesReturn_joined_iff {before after : Option Predicate} :
    TakesReturn joined before after ∧ ¬(first.returns.isSome ∧ second.returns.isSome) ↔
      ∃ middle, TakesReturn first before middle ∧ TakesReturn second middle after := by
  unfold TakesReturn
  rw [joins.returns]
  cases firstGiven : first.returns with
  | none => simp
  | some given =>
    cases secondGiven : second.returns with
    | none => simp
    | some other =>
      -- A second return type is refused once the first is there.
      simp only [Option.isSome_some, and_self, not_true_eq_false, and_false, false_iff]
      intro ⟨middle, ⟨_, type, given, _⟩, absent, _⟩
      rw [given] at absent
      cases absent

/-- A declaration has the same effect in two parts, unless both give a return type. -/
theorem takes_joined_iff :
    contract.Takes joined changed ∧ ¬(first.returns.isSome ∧ second.returns.isSome) ↔
      ∃ middle : Contract, contract.Takes first middle ∧ middle.Takes second changed := by
  constructor
  · intro ⟨takes, notBoth⟩
    obtain ⟨types, firstTypes, secondTypes⟩ :=
      (takesTypes_joined_iff joins).mp takes.argumentTypes
    obtain ⟨returnType, firstReturn, secondReturn⟩ :=
      (takesReturn_joined_iff joins).mp ⟨takes.returnType, notBoth⟩
    obtain ⟨requires, firstRequires, secondRequires⟩ :=
      Condition.compiled_append_iff.mp (joins.requires ▸ takes.requires)
    obtain ⟨ensures, firstEnsures, secondEnsures⟩ :=
      Condition.compiled_append_iff.mp (joins.ensures ▸ takes.ensures)
    obtain ⟨overlay, firstAssigned, secondAssigned⟩ :=
      Overlay.assigned_append_iff.mp (joins.config ▸ takes.overlay)
    have known := takes.known
    rw [joins.mutableNames] at known
    refine ⟨
      { contract with
        name := changed.name
        argumentTypes := types
        returnType := returnType
        requires := requires
        ensures := ensures
        overlay := overlay
        store := first.store.or contract.store
        immutable := contract.immutable || first.immutable
        mutableNames := (contract.mutableNames ++ first.mutableNames).eraseDups }, ?_, ?_⟩
    · exact
        { function := rfl, signature := rfl, parameters := rfl
          name := joins.name ▸ takes.name
          argumentTypes := firstTypes, returnType := firstReturn
          requires := firstRequires, ensures := firstEnsures
          overlay := firstAssigned, store := rfl, immutable := rfl
          known := fun label inside => known label (mem_append_left _ inside)
          mutableNames := rfl, registry := rfl, remembered := rfl }
    · exact
        { function := takes.function, signature := takes.signature
          parameters := takes.parameters
          name := by rw [joins.unnamed]; rfl
          argumentTypes := secondTypes, returnType := secondReturn
          requires := secondRequires, ensures := secondEnsures
          overlay := secondAssigned
          store := by rw [takes.store, joins.store, joins.unstored, Option.none_or]
          immutable := by rw [takes.immutable, joins.immutable, Bool.or_assoc]
          known := fun label inside => known label (mem_append_right _ inside)
          mutableNames := by
            rw [takes.mutableNames, joins.mutableNames, ← append_assoc,
              eraseDups_eraseDups_append]
          registry := takes.registry, remembered := takes.remembered }
  · intro ⟨middle, toMiddle, toChanged⟩
    have sameName : changed.name = middle.name := by
      rw [toChanged.name, joins.unnamed]
      rfl
    have firstTypes : TakesTypes changed.name contract.parameters first contract.argumentTypes
        middle.argumentTypes := sameName ▸ toMiddle.argumentTypes
    have secondTypes : TakesTypes changed.name contract.parameters second middle.argumentTypes
        changed.argumentTypes := toMiddle.parameters ▸ toChanged.argumentTypes
    obtain ⟨returnType, notBoth⟩ := (takesReturn_joined_iff joins).mpr
      ⟨middle.returnType, toMiddle.returnType, toChanged.returnType⟩
    refine ⟨?_, notBoth⟩
    exact
      { function := toChanged.function.trans toMiddle.function
        signature := toChanged.signature.trans toMiddle.signature
        parameters := toChanged.parameters.trans toMiddle.parameters
        name := by rw [sameName, toMiddle.name, joins.name]
        argumentTypes := (takesTypes_joined_iff joins).mpr ⟨_, firstTypes, secondTypes⟩
        returnType := returnType
        requires := joins.requires ▸ Condition.compiled_append_iff.mpr
          ⟨_, toMiddle.requires, toChanged.requires⟩
        ensures := joins.ensures ▸ Condition.compiled_append_iff.mpr
          ⟨_, toMiddle.ensures, toChanged.ensures⟩
        overlay := joins.config ▸ Overlay.assigned_append_iff.mpr
          ⟨_, toMiddle.overlay, toChanged.overlay⟩
        store := by
          rw [toChanged.store, toMiddle.store, joins.store, joins.unstored, Option.none_or]
        immutable := by
          rw [toChanged.immutable, toMiddle.immutable, joins.immutable, Bool.or_assoc]
        known := by
          intro label inside
          rw [joins.mutableNames, mem_append] at inside
          cases inside with
          | inl inside => exact toMiddle.known label inside
          | inr inside => exact toMiddle.parameters ▸ toChanged.known label inside
        mutableNames := by
          rw [toChanged.mutableNames, toMiddle.mutableNames, joins.mutableNames,
            ← append_assoc, eraseDups_eraseDups_append]
        registry := toChanged.registry.trans toMiddle.registry
        remembered := toChanged.remembered.trans toMiddle.remembered }

end Joined

end Contract

section Parts

variable {first second : List Clause} (further : ∀ clause ∈ second, clause.adds)
  (undivided : Clause.Undivided first second)

include further undivided

namespace Declaration

theorem joins_gathered : Joins (gathered first) (gathered second) (gathered (first ++ second)) := by
  obtain ⟨names, _, _, stores, _⟩ := Clause.fixed_of_adds further
  refine
    { name := by simp [gathered, names], unnamed := by simp [gathered, names], types := ?_
      returns := by simp [gathered], requires := flatMap_append
      ensures := flatMap_append, config := flatMap_append, immutable := any_append
      mutableNames := flatMap_append, store := by simp [gathered, stores]
      unstored := by simp [gathered, stores] }
  cases undivided with
  | inl untyped =>
    obtain ⟨types, named⟩ := Clause.typeLists_of_untyped untyped
    exact .inr (by simp [gathered, types, named])
  | inr untyped =>
    obtain ⟨types, named⟩ := Clause.typeLists_of_untyped untyped
    exact .inl (by simp [gathered, types, named])

omit further undivided in
theorem length_append_le_one_iff {α : Type} {left right : List α} : (left ++ right).length ≤ 1 ↔
    left.length ≤ 1 ∧ right.length ≤ 1 ∧ ¬(left.head?.isSome ∧ right.head?.isSome) := by
  cases left <;> cases right <;> simp

theorem givenOnce_append_iff : GivenOnce (first ++ second) ↔
    GivenOnce first ∧ GivenOnce second ∧
      ¬((gathered first).returns.isSome ∧ (gathered second).returns.isSome) := by
  obtain ⟨_, parameters, _, _, _⟩ := Clause.fixed_of_adds further
  have types : (first.flatMap Clause.typeLists = [] ∧ first.flatMap Clause.namedTypeLists = []) ∨
      (second.flatMap Clause.typeLists = [] ∧ second.flatMap Clause.namedTypeLists = []) :=
    undivided.imp Clause.typeLists_of_untyped Clause.typeLists_of_untyped
  constructor
  · intro ⟨parametersOnce, acceptsOnce, acceptsNamedOnce, returnsOnce⟩
    rw [flatMap_append, length_append_le_one_iff] at parametersOnce acceptsOnce
    rw [flatMap_append, length_append_le_one_iff] at acceptsNamedOnce returnsOnce
    exact ⟨⟨parametersOnce.1, acceptsOnce.1, acceptsNamedOnce.1, returnsOnce.1⟩,
      ⟨parametersOnce.2.1, acceptsOnce.2.1, acceptsNamedOnce.2.1, returnsOnce.2.1⟩,
      returnsOnce.2.2⟩
  · intro ⟨firstOnce, secondOnce, notBoth⟩
    constructor <;> rw [flatMap_append, length_append_le_one_iff]
    · exact ⟨firstOnce.parameters, secondOnce.parameters, by simp [parameters]⟩
    · refine ⟨firstOnce.accepts, secondOnce.accepts, ?_⟩
      cases types with
      | inl none => simp [none.1]
      | inr none => simp [none.1]
    · refine ⟨firstOnce.acceptsNamed, secondOnce.acceptsNamed, ?_⟩
      cases types with
      | inl none => simp [none.2]
      | inr none => simp [none.2]
    · exact ⟨firstOnce.returns, secondOnce.returns, notBoth⟩

end Declaration

namespace Contract

open Declaration

/-- Clauses that are given together make of a contract what they make in two parts. -/
theorem takes_append_iff :
    GivenOnce (first ++ second) ∧ contract.Takes (gathered (first ++ second)) changed ↔
      ∃ middle : Contract, (GivenOnce first ∧ contract.Takes (gathered first) middle) ∧
        GivenOnce second ∧ middle.Takes (gathered second) changed := by
  have joins := joins_gathered further undivided
  rw [givenOnce_append_iff further undivided]
  constructor
  · intro ⟨⟨firstOnce, secondOnce, notBoth⟩, takes⟩
    obtain ⟨middle, toMiddle, toChanged⟩ := (takes_joined_iff joins).mp ⟨takes, notBoth⟩
    exact ⟨middle, ⟨firstOnce, toMiddle⟩, secondOnce, toChanged⟩
  · intro ⟨middle, ⟨firstOnce, toMiddle⟩, secondOnce, toChanged⟩
    obtain ⟨takes, notBoth⟩ := (takes_joined_iff joins).mpr ⟨middle, toMiddle, toChanged⟩
    exact ⟨⟨firstOnce, secondOnce, notBoth⟩, takes⟩

theorem wrap_append_eq_ok_iff {host : Host} :
    wrap host function (first ++ second) = .ok made ↔
      ∃ begun, wrap host function first = .ok begun ∧ begun.extend second = .ok made := by
  obtain ⟨_, parameters, changes, _, registries⟩ := Clause.fixed_of_adds further
  simp only [wrap_eq_ok_iff, extend_eq_ok_iff, Wraps, Declares, collects_empty_iff]
  have sameParameters : (gathered (first ++ second)).parameters = (gathered first).parameters := by
    simp [gathered, parameters]
  have sameChanges : (gathered (first ++ second)).changes = (gathered first).changes := by
    simp [gathered, changes]
  have sameRegistry : (gathered (first ++ second)).registry = (gathered first).registry := by
    simp [gathered, registries]
  constructor
  · intro ⟨type, target, signature, declaration, fixed, same, signed, ⟨once, collected⟩, declared,
      takes⟩
    subst collected
    rw [sameParameters, sameChanges] at declared
    rw [sameRegistry] at takes
    obtain ⟨begun, ⟨firstOnce, toBegun⟩, secondOnce, toMade⟩ :=
      (takes_append_iff further undivided).mp ⟨once, takes⟩
    exact ⟨begun, ⟨type, target, signature, _, fixed, same, signed, ⟨firstOnce, rfl⟩, declared,
      toBegun⟩, _, ⟨secondOnce, rfl⟩, by simp [gathered, parameters], changes, toMade⟩
  · intro ⟨begun, ⟨type, target, signature, declaration, fixed, same, signed,
      ⟨firstOnce, collected⟩, declared, toBegun⟩, other, ⟨secondOnce, otherCollected⟩, _, _, toMade⟩
    subst collected otherCollected
    obtain ⟨once, takes⟩ := (takes_append_iff further undivided).mpr
      ⟨begun, ⟨firstOnce, toBegun⟩, secondOnce, toMade⟩
    refine ⟨type, target, signature, _, fixed, same, signed, ⟨once, rfl⟩, ?_, ?_⟩
    · rw [sameParameters, sameChanges]
      exact declared
    · rw [sameRegistry]
      exact takes

end Contract

end Parts

/-!
## The order of clauses
-/

/-- The same clauses in another order. Changes of parameters, conditions of one kind and values of
one setting keep their order, and so do clauses of which the last one counts. -/
structure Clause.Reorders (clauses reordered : List Clause) : Prop where
  permuted : clauses.Perm reordered
  names : clauses.flatMap names = reordered.flatMap names
  changes : clauses.flatMap parameterChanges = reordered.flatMap parameterChanges
  preconditions : clauses.flatMap preconditions = reordered.flatMap preconditions
  postconditions : clauses.flatMap postconditions = reordered.flatMap postconditions
  settings : ∀ label : Text, (clauses.flatMap settings).filter (fun entry => entry.1 == label) =
    (reordered.flatMap settings).filter (fun entry => entry.1 == label)
  stores : clauses.flatMap stores = reordered.flatMap stores
  registries : clauses.flatMap registries = reordered.flatMap registries

theorem Clause.Reorders.symm {reordered : List Clause}
    (reorders : Reorders clauses reordered) : Reorders reordered clauses :=
  ⟨reorders.permuted.symm, reorders.names.symm, reorders.changes.symm,
    reorders.preconditions.symm, reorders.postconditions.symm,
    fun label => (reorders.settings label).symm, reorders.stores.symm, reorders.registries.symm⟩

theorem Setting.name_of_read {label : Text} {value : Value} {setting : Setting}
    (accepted : read label value = .ok setting) : setting.name = label := by
  have made {α : Type} {found : Option α} {make : α → Setting} {refused : Failure}
      (checked : (found.map make).elim (.error refused) .ok = Except.ok setting) :
      ∃ value, setting = make value := by
    cases found with
    | none => cases checked
    | some value => exact ⟨value, (Except.ok.inj checked).symm⟩
  unfold read at accepted
  extract_lets checked at accepted
  iterate 4
    split at accepted
    · next same =>
      obtain ⟨value, rfl⟩ := made accepted
      exact (eq_of_beq same).symm
  cases accepted

def Setting.ReadFrom (entry : Text × Value) (setting : Setting) : Prop :=
  read entry.1 entry.2 = .ok setting

theorem Setting.readFrom_unique : Relator.RightUnique Setting.ReadFrom := by
  intro entry setting other accepted acceptedOther
  exact Except.ok.inj (accepted.symm.trans acceptedOther)

theorem Setting.readFrom_filter {entries : Bindings} {settings : List Setting}
    (accepted : List.Forall₂ ReadFrom entries settings) (label : Text) :
    List.Forall₂ ReadFrom (entries.filter (fun entry => entry.1 == label))
      (settings.filter (fun setting => setting.name == label)) := by
  refine rel_filter ?_ accepted
  intro entry setting acceptedHere
  simp only [name_of_read acceptedHere]

namespace Overlay

/-- What is found after assignments is what the last one to that name left. -/
theorem find?_foldl_assign (settings : List Setting) (start : Overlay) (label : Text) :
    (settings.foldl assign start).find? label =
      ((settings.filter (fun setting => setting.name == label)).getLast?.map Setting.value).or
        (start.find? label) := by
  induction settings using List.reverseRecOn with
  | nil => rfl
  | append_singleton settings setting ih =>
    rw [foldl_append, foldl_cons, foldl_nil, filter_append]
    change (if label = setting.name then _ else _) = _
    rw [ih]
    by_cases same : label = setting.name
    · subst same
      simp
    · have different : (setting.name == label) = false := beq_false_of_ne (Ne.symm same)
      simp [different, same]

theorem foldl_assign_congr {settings others : List Setting}
    (kept : ∀ label : Text, settings.filter (fun setting => setting.name == label) =
      others.filter (fun setting => setting.name == label)) (start : Overlay) :
    settings.foldl assign start = others.foldl assign start := by
  ext1
  funext label
  rw [find?_foldl_assign, find?_foldl_assign, kept]

theorem Assigned.reordered {before after : Overlay} {entries others : Bindings}
    (assigned : before.Assigned entries after) (permuted : entries.Perm others)
    (kept : ∀ label : Text, entries.filter (fun entry => entry.1 == label) =
      others.filter (fun entry => entry.1 == label)) : before.Assigned others after := by
  obtain ⟨settings, last, read⟩ := assigned
  have readable : ∀ entry ∈ others, ∃ setting, Setting.ReadFrom entry setting := by
    intro entry inside
    obtain ⟨setting, _, accepted⟩ := exists_mem_of_forall₂ read (permuted.mem_iff.mpr inside)
    exact ⟨setting, accepted⟩
  obtain ⟨found, readOthers⟩ := exists_forall₂_of_forall readable
  refine ⟨found, ?_, readOthers⟩
  rw [last]
  refine foldl_assign_congr (fun label => ?_) before
  have here := Setting.readFrom_filter read label
  rw [kept label] at here
  exact right_unique_forall₂' Setting.readFrom_unique here
    (Setting.readFrom_filter readOthers label)

end Overlay

/-- Declarations that differ in the order of settings and of parameters that may change. -/
structure Declaration.Alike (left right : Declaration) : Prop where
  same : right = { left with config := right.config, mutableNames := right.mutableNames }
  config : left.config.Perm right.config
  values : ∀ label : Text, left.config.filter (fun entry => entry.1 == label) =
    right.config.filter (fun entry => entry.1 == label)
  mutableNames : left.mutableNames.Perm right.mutableNames

/-- Contracts that declare the same; the parameters that may change are a set. -/
structure Contract.Alike (left right : Contract) : Prop where
  same : right = { left with mutableNames := right.mutableNames }
  mutableNames : left.mutableNames.Perm right.mutableNames

section Reordered

variable {clauses reordered : List Clause} (reorders : Clause.Reorders clauses reordered)

include reorders

namespace Declaration

theorem GivenOnce.of_reorders (once : GivenOnce clauses) : GivenOnce reordered := by
  have short {α : Type} {part : Clause → List α} (once : (clauses.flatMap part).length ≤ 1) :
      (reordered.flatMap part).length ≤ 1 :=
    (reorders.permuted.flatMap_right part).length_eq ▸ once
  exact ⟨short once.parameters, short once.accepts, short once.acceptsNamed, short once.returns⟩

theorem GivenOnce.alike (once : GivenOnce clauses) :
    Alike (gathered clauses) (gathered reordered) := by
  have given {α : Type} {part : Clause → List α} (once : (clauses.flatMap part).length ≤ 1) :
      reordered.flatMap part = clauses.flatMap part :=
    eq_of_perm_of_length_le_one (reorders.permuted.flatMap_right part).symm once
  refine ⟨?_, reorders.permuted.flatMap_right _, reorders.settings,
    reorders.permuted.flatMap_right _⟩
  unfold gathered
  rw [given once.parameters, given once.accepts, given once.acceptsNamed, given once.returns,
    reorders.names, reorders.changes, reorders.preconditions, reorders.postconditions,
    reorders.stores, reorders.registries, reorders.permuted.any_eq]

end Declaration

end Reordered

namespace Contract

open Declaration

theorem Takes.alike {declaration other : Declaration}
    (takes : contract.Takes declaration changed) (alike : declaration.Alike other) :
    ∃ found : Contract, contract.Takes other found ∧ changed.Alike found := by
  refine ⟨{ changed with
    mutableNames := (contract.mutableNames ++ other.mutableNames).eraseDups }, ?_, rfl, ?_⟩
  · have overlay := takes.overlay.reordered alike.config alike.values
    have known : ∀ label ∈ other.mutableNames, label ∈ contract.parameters.names :=
      fun label inside => takes.known label (alike.mutableNames.mem_iff.mpr inside)
    rw [alike.same]
    exact { takes with overlay := overlay, known := known, mutableNames := rfl }
  · rw [takes.mutableNames]
    refine eraseDups_perm fun label => ?_
    rw [mem_append, mem_append, alike.mutableNames.mem_iff]

section Reordered

variable {clauses reordered : List Clause} (reorders : Clause.Reorders clauses reordered)

include reorders

theorem extend_reordered (extended : contract.extend clauses = .ok changed) :
    ∃ other, contract.extend reordered = .ok other ∧ changed.Alike other := by
  simp only [extend_eq_ok_iff, Declares, collects_empty_iff] at extended ⊢
  obtain ⟨declaration, ⟨once, rfl⟩, unnamed, unchanged, takes⟩ := extended
  have alike := once.alike reorders
  obtain ⟨other, takesOther, same⟩ := takes.alike alike
  refine ⟨other, ⟨_, ⟨once.of_reorders reorders, rfl⟩, ?_, ?_, takesOther⟩, same⟩
  · rw [alike.same, unnamed]
  · rw [alike.same, unchanged]

theorem wrap_reordered {host : Host} (wrapped : wrap host function clauses = .ok made) :
    ∃ other, wrap host function reordered = .ok other ∧ made.Alike other := by
  simp only [wrap_eq_ok_iff, Wraps, collects_empty_iff] at wrapped ⊢
  obtain ⟨type, target, signature, declaration, parameters, same, signed, ⟨once, rfl⟩, declared,
    takes⟩ := wrapped
  have alike := once.alike reorders
  obtain ⟨other, takesOther, likewise⟩ := takes.alike alike
  refine ⟨other, ⟨type, target, signature, _, parameters, same, signed,
    ⟨once.of_reorders reorders, rfl⟩, ?_, ?_⟩, likewise⟩
  · rw [alike.same]
    exact declared
  · have registry : (gathered reordered).registry = (gathered clauses).registry := by
      rw [alike.same]
    rw [registry]
    exact takesOther

end Reordered

end Contract

theorem rel_toOption {α : Type} {related : α → α → Prop} {left right : Except Failure α}
    (onto : ∀ value, left = .ok value → ∃ other, right = .ok other ∧ related value other)
    (back : ∀ other, right = .ok other → ∃ value, left = .ok value) :
    Option.Rel related left.toOption right.toOption := by
  cases left with
  | ok value =>
    obtain ⟨other, same, relation⟩ := onto value rfl
    rw [same]
    exact .some relation
  | error failure =>
    cases right with
    | error other => exact .none
    | ok other =>
      obtain ⟨value, impossible⟩ := back other rfl
      cases impossible

/-!
## Workspaces
-/

namespace Workspace

open Stateful

theorem withChanged_withAdded (workspace : Workspace) (id : Text) {begun : Contract}
    (registry : made.registry = begun.registry) :
    (workspace.withAdded id begun).withChanged id workspace.contracts.length made =
      workspace.withAdded id made := by
  unfold withChanged withAdded
  rw [registry]
  simp only [put_put]
  rw [set_append_right _ _ (Nat.le_refl _), Nat.sub_self]
  rfl

theorem wrap_run_eq_ok_iff {after : Workspace} {id : Text} :
    (wrap id function clauses).run workspace = (.ok made, after) ↔
      Contract.wrap workspace.host function clauses = .ok made ∧
        after = workspace.withAdded id made := by
  rw [wrap_run]
  constructor
  · intro ran
    cases wrapped : Contract.wrap workspace.host function clauses with
    | error failure =>
      rw [wrapped] at ran
      cases ran
    | ok found =>
      rw [wrapped] at ran
      cases ran
      exact ⟨rfl, rfl⟩
  · intro ⟨wrapped, atEnd⟩
    rw [wrapped, atEnd]

theorem wrap_then_rewrap_run_eq_ok_iff {after : Workspace} {id : Text}
    {first second : List Clause} :
    (wrap id function first >>= fun _ => rewrap id id second).run workspace = (.ok made, after) ↔
      (∃ begun, Contract.wrap workspace.host function first = .ok begun ∧
        begun.extend second = .ok made) ∧ after = workspace.withAdded id made := by
  simp only [run_bind_eq_ok_iff, wrap_run_eq_ok_iff]
  have named (begun : Contract) : (workspace.withAdded id begun).functions.lookup id =
      some workspace.contracts.length := (lookup_put _ _ _ _).trans (if_pos rfl)
  have known (begun : Contract) :
      (workspace.withAdded id begun).contractAt? workspace.contracts.length = some begun :=
    List.getElem?_concat_length
  constructor
  · rintro ⟨begun, middle, ⟨wrapped, atMiddle⟩, ran⟩
    rw [atMiddle, rewrap_run (named begun) (known begun)] at ran
    cases extended : begun.extend second with
    | error failure =>
      rw [extended] at ran
      cases ran
    | ok changed =>
      rw [extended] at ran
      cases ran
      exact ⟨⟨begun, wrapped, extended⟩,
        withChanged_withAdded workspace id (Contract.registry_of_extend extended)⟩
  · rintro ⟨⟨begun, wrapped, extended⟩, atEnd⟩
    refine ⟨begun, _, ⟨wrapped, rfl⟩, ?_⟩
    rw [rewrap_run (named begun) (known begun), extended, atEnd,
      ← withChanged_withAdded workspace id (Contract.registry_of_extend extended)]

theorem wrap_outcome (workspace : Workspace) (id : Text) (function : Value)
    (clauses : List Clause) : ((wrap id function clauses).run workspace).1 =
      Contract.wrap workspace.host function clauses := by
  rw [wrap_run]
  cases Contract.wrap workspace.host function clauses <;> rfl

theorem rewrap_outcome {source : Text} {number : Nat}
    (named : workspace.functions.lookup source = some number)
    (known : workspace.contractAt? number = some contract) (id : Text) (clauses : List Clause) :
    ((rewrap id source clauses).run workspace).1 = contract.extend clauses := by
  rw [rewrap_run named known]
  cases contract.extend clauses <;> rfl

/-- A function declares the same whether it is given all its clauses at once or some of them later,
and whichever order they stand in: the declarations are accepted or refused alike, and they make the
same contract. -/
theorem declarations_accumulate (workspace : Workspace) (id : Text) (function : Value) :
    (∀ first second : List Clause, (∀ clause ∈ second, clause.adds) →
      Clause.Undivided first second → ∀ made after,
        (wrap id function (first ++ second)).run workspace = (.ok made, after) ↔
          (wrap id function first >>= fun _ => rewrap id id second).run workspace =
            (.ok made, after)) ∧
    ∀ clauses reordered : List Clause, Clause.Reorders clauses reordered →
      Option.Rel Contract.Alike ((wrap id function clauses).run workspace).1.toOption
        ((wrap id function reordered).run workspace).1.toOption ∧
      ∀ source, Option.Rel Contract.Alike ((rewrap id source clauses).run workspace).1.toOption
        ((rewrap id source reordered).run workspace).1.toOption := by
  refine ⟨?_, ?_⟩
  · intro first second further undivided made after
    rw [wrap_run_eq_ok_iff, wrap_then_rewrap_run_eq_ok_iff,
      Contract.wrap_append_eq_ok_iff further undivided]
  · intro clauses reordered reorders
    constructor
    · rw [wrap_outcome, wrap_outcome]
      exact rel_toOption (fun made => Contract.wrap_reordered reorders)
        fun other wrapped => (Contract.wrap_reordered reorders.symm wrapped).imp fun _ => And.left
    · intro source
      obtain ⟨number, contract, named, known⟩ | ⟨failure, failed⟩ :=
        contract_run_cases workspace source
      · rw [rewrap_outcome named known, rewrap_outcome named known]
        exact rel_toOption (fun changed => Contract.extend_reordered reorders)
          fun other extended =>
            (Contract.extend_reordered reorders.symm extended).imp fun _ => And.left
      · rw [rewrap, rewrap, run_bind_of_error failed, run_bind_of_error failed]
        exact .none

def doublingBegun : List Clause := [.parameters ["n"], .requires "n > 0"]

def doublingFurther : List Clause :=
  [.returns (.hostType .wordInt), .config "max_cache" (.ofWord 5), .immutable ["n"]]

theorem declarations_accumulate_doubling :
    ∃ made other after,
      (wrap "double" (.function Sample.intFunction (.host "Double"))
        (doublingBegun ++ doublingFurther)).run (initial Sample.host) = (.ok made, after) ∧
      (wrap "double" (.function Sample.intFunction (.host "Double")) doublingBegun >>= fun _ =>
        rewrap "double" "double" doublingFurther).run (initial Sample.host) = (.ok made, after) ∧
      ((wrap "double" (.function Sample.intFunction (.host "Double"))
        (doublingFurther ++ doublingBegun)).run (initial Sample.host)).1 = .ok other ∧
      made.Alike other := by
  have accepted : ((wrap "double" (.function Sample.intFunction (.host "Double"))
      (doublingBegun ++ doublingFurther)).run (initial Sample.host)).1.isOk = true := by
    decide +kernel
  obtain ⟨together, order⟩ := declarations_accumulate (initial Sample.host) "double"
    (.function Sample.intFunction (.host "Double"))
  have reorders : Clause.Reorders (doublingBegun ++ doublingFurther)
      (doublingFurther ++ doublingBegun) :=
    ⟨List.perm_append_comm, rfl, rfl, rfl, rfl, fun _ => rfl, rfl, rfl⟩
  have alike := (order _ _ reorders).1
  cases ran : (wrap "double" (.function Sample.intFunction (.host "Double"))
      (doublingBegun ++ doublingFurther)).run (initial Sample.host) with
  | mk outcome after =>
    rw [ran] at accepted alike
    cases outcome with
    | error failure => cases accepted
    | ok made =>
      generalize ((wrap "double" (.function Sample.intFunction (.host "Double"))
        (doublingFurther ++ doublingBegun)).run (initial Sample.host)).1 = reordered at alike ⊢
      cases reordered with
      | error failure => cases alike
      | ok other =>
        cases alike with
        | some alike =>
          exact ⟨made, other, after, rfl, (together _ _ (by decide) (.inl (by decide))
            made after).mp ran, rfl, alike⟩

end Workspace

end Covenant
