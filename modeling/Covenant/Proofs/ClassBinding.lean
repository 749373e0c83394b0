import Covenant.Proofs.CallOrigins
import Covenant.Proofs.Session

/-!
# Binding methods to a class

Binding puts the class in the place of the receiver's type where that is a declared type as a whole.
The bound contract is the declared one with the class throughout exactly when no declared type has
the receiver's type strictly inside, and then none of its tests asks for a class that is not bound.
-/

set_option autoImplicit false

namespace Covenant

open List

/-!
## Types without the receiver's type
-/

namespace Predicate

/-- The receiver's type stands nowhere in a type. -/
def SelfFree (predicate : Predicate) : Prop := predicate.Throughout (· ≠ .self)

variable {predicate : Predicate}

theorem selfFree_iff :
    predicate.SelfFree ↔ predicate ≠ .self ∧ ∀ part ∈ predicate.parts, part.SelfFree := by
  rw [SelfFree, throughout_iff, forall_iff_forall_mem]
  exact Iff.rfl

/-!
## The class throughout
-/

mutual

/-- The type with a class in place of the receiver's type, wherever it stands. -/
def resolved (type : HostType) : Predicate → Predicate
  | .self => .generic type
  | .unchecked (some samples) => .unchecked (some (samples.resolved type))
  | .unchecked none => .unchecked none
  | .allOf members => .allOf (resolvedAll type members)
  | .anyOf members => .anyOf (resolvedAll type members)
  | .complement member => .complement (member.resolved type)
  | .list element => .list (element.resolved type)
  | .tuple elements => .tuple (resolvedAll type elements)
  | .dict key value => .dict (key.resolved type) (value.resolved type)
  | .parameters entries allMandatory => .parameters (resolvedEntries type entries) allMandatory
  | .array dimensions (some element) => .array dimensions (some (element.resolved type))
  | .array dimensions none => .array dimensions none
  | .number family => .number family
  | .range low high interval => .range low high interval
  | .text family => .text family
  | .boolean => .boolean
  | .nothing => .nothing
  | .function => .function
  | .constant value => .constant value
  | .oneOf members => .oneOf members
  | .positionalArguments => .positionalArguments
  | .keywordArguments => .keywordArguments
  | .generic other => .generic other

def resolvedAll (type : HostType) : List Predicate → List Predicate
  | [] => []
  | predicate :: predicates => predicate.resolved type :: resolvedAll type predicates

def resolvedEntries (type : HostType) : List (Text × Predicate) → List (Text × Predicate)
  | [] => []
  | (name, predicate) :: entries => (name, predicate.resolved type) :: resolvedEntries type entries

end

theorem resolvedAll_eq_map (type : HostType) (predicates : List Predicate) :
    resolvedAll type predicates = predicates.map (resolved type) := by
  induction predicates with
  | nil => rfl
  | cons predicate predicates ih => rw [resolvedAll, map_cons, ih]

theorem resolvedEntries_eq_map (type : HostType) (entries : List (Text × Predicate)) :
    resolvedEntries type entries =
      entries.map (fun entry => (entry.1, entry.2.resolved type)) := by
  induction entries with
  | nil => rfl
  | cons entry entries ih =>
    obtain ⟨name, predicate⟩ := entry
    rw [resolvedEntries, map_cons, ih]

theorem parts_resolved (type : HostType) (predicate : Predicate) :
    (predicate.resolved type).parts = predicate.parts.map (resolved type) := by
  cases predicate with
  | unchecked samples => cases samples <;> simp [resolved, parts]
  | array dimensions element => cases element <;> simp [resolved, parts]
  | parameters entries allMandatory => simp [resolved, parts, resolvedEntries_eq_map]
  | _ => simp [resolved, parts, resolvedAll_eq_map]

theorem resolved_ne_self (type : HostType) (predicate : Predicate) :
    predicate.resolved type ≠ .self := by
  cases predicate with
  | unchecked samples => cases samples <;> simp [resolved]
  | array dimensions element => cases element <;> simp [resolved]
  | _ => simp [resolved]

theorem selfFree_resolved (type : HostType) (predicate : Predicate) :
    (predicate.resolved type).SelfFree := by
  induction predicate using parts_induction with
  | step predicate ih =>
    rw [selfFree_iff, parts_resolved]
    refine ⟨resolved_ne_self type predicate, ?_⟩
    intro part member
    obtain ⟨source, inside, same⟩ := mem_map.mp member
    rw [← same]
    exact ih source inside

theorem resolved_of_selfFree (type : HostType) (free : predicate.SelfFree) :
    predicate.resolved type = predicate := by
  have all (members : List Predicate) (same : ∀ part ∈ members, part.resolved type = part) :
      resolvedAll type members = members := by
    rw [resolvedAll_eq_map, map_congr_left same, map_id']
  induction free with
  | @intro predicate itself within ih =>
  cases predicate with
  | self => exact absurd rfl itself
  | unchecked element | array _ element =>
    cases element with
    | none => rfl
    | some inner => rw [resolved, ih inner mem_cons_self]
  | complement inner | list inner => rw [resolved, ih inner mem_cons_self]
  | dict key value =>
    rw [resolved, ih key mem_cons_self, ih value (mem_pair.mpr (.inr rfl))]
  | allOf members | anyOf members | tuple members => rw [resolved, all members ih]
  | parameters entries allMandatory =>
    rw [resolved, resolvedEntries_eq_map]
    congr 1
    rw [map_congr_left, map_id']
    intro entry listed
    rw [ih entry.2 (mem_map_of_mem listed)]
  | _ => rfl

/-- The type that a class is bound in: only the whole type is looked at. -/
def outermost (type : HostType) : Predicate → Predicate
  | .self => .generic type
  | other => other

/-- The receiver's type stands strictly inside a type. -/
def NestsSelf (predicate : Predicate) : Prop := ∃ part ∈ predicate.parts, ¬part.SelfFree

theorem selfFree_iff_not_nestsSelf (different : predicate ≠ .self) :
    predicate.SelfFree ↔ ¬predicate.NestsSelf := by
  rw [selfFree_iff, NestsSelf, not_exists]
  constructor
  · intro ⟨_, within⟩ part ⟨member, nested⟩
    exact nested (within part member)
  · intro plain
    refine ⟨different, ?_⟩
    intro part member
    exact not_not.mp fun nested => plain part ⟨member, nested⟩

/-- Binding leaves no receiver's type exactly when none stands strictly inside. -/
theorem selfFree_outermost_iff (type : HostType) (predicate : Predicate) :
    (predicate.outermost type).SelfFree ↔ ¬predicate.NestsSelf := by
  by_cases same : predicate = .self
  · have plain : ¬NestsSelf .self := fun ⟨_, member, _⟩ => by cases member
    have free : ((self).outermost type).SelfFree := selfFree_resolved type .self
    rw [same]
    exact ⟨fun _ => plain, fun _ => free⟩
  · have kept : predicate.outermost type = predicate := by
      cases predicate with
      | self => exact absurd rfl same
      | _ => rfl
    rw [kept]
    exact selfFree_iff_not_nestsSelf same

theorem outermost_eq_resolved_iff (type : HostType) (predicate : Predicate) :
    predicate.outermost type = predicate.resolved type ↔ ¬predicate.NestsSelf := by
  rw [← selfFree_outermost_iff type]
  constructor
  · intro same
    rw [same]
    exact selfFree_resolved type predicate
  · intro free
    cases predicate with
    | self => rfl
    | _ => exact (resolved_of_selfFree type free).symm

/-!
## The contents of shared objects
-/

theorem refreshAll_eq_map (present : ObjectId → Option Value) (predicates : List Predicate) :
    refreshAll present predicates = predicates.map (refresh present) := by
  induction predicates with
  | nil => rfl
  | cons predicate predicates ih => rw [refreshAll, map_cons, ih]

theorem refreshEntries_eq_map (present : ObjectId → Option Value)
    (entries : List (Text × Predicate)) :
    refreshEntries present entries =
      entries.map (fun entry => (entry.1, entry.2.refresh present)) := by
  induction entries with
  | nil => rfl
  | cons entry entries ih =>
    obtain ⟨name, predicate⟩ := entry
    rw [refreshEntries, map_cons, ih]

theorem parts_refresh (present : ObjectId → Option Value) (predicate : Predicate) :
    (predicate.refresh present).parts = predicate.parts.map (refresh present) := by
  cases predicate with
  | unchecked samples => cases samples <;> simp [refresh, parts]
  | array dimensions element => cases element <;> simp [refresh, parts]
  | parameters entries allMandatory => simp [refresh, parts, refreshEntries_eq_map]
  | _ => simp [refresh, parts, refreshAll_eq_map]

theorem SelfFree.refresh (free : predicate.SelfFree) (present : ObjectId → Option Value) :
    (predicate.refresh present).SelfFree := by
  induction free with
  | @intro predicate itself within ih =>
    rw [selfFree_iff, parts_refresh]
    constructor
    · cases predicate with
      | self => exact absurd rfl itself
      | unchecked samples => cases samples <;> simp [Predicate.refresh]
      | array dimensions element => cases element <;> simp [Predicate.refresh]
      | _ => simp [Predicate.refresh]
    · intro part member
      obtain ⟨source, inside, same⟩ := mem_map.mp member
      rw [← same]
      exact ih source inside

theorem SelfFree.view (free : predicate.SelfFree) (memory : Memory) :
    (memory.viewPredicate predicate).SelfFree := by
  unfold Memory.viewPredicate
  split
  · exact free
  · exact free.refresh memory.present

end Predicate

/-!
## Failures for want of a class
-/

def wantsClass {α : Type} : Except Failure α → Bool
  | .error failure => failure.isUnboundSelf
  | .ok _ => false

/-- A computation does not fail for want of a class. -/
def HasClass {α : Type} (result : Except Failure α) : Prop := wantsClass result = false

theorem hasClass_iff {α : Type} {result : Except Failure α} :
    HasClass result ↔ Spares .receiver result := by
  cases result with
  | ok value => exact ⟨fun _ => trivial, fun _ => rfl⟩
  | error failure =>
    rw [HasClass, wantsClass, Failure.isUnboundSelf_eq]
    exact Iff.rfl

/-- The tests and samples of the registered classes do not ask for a class that is not bound. -/
def World.HooksHaveClass (world : World) : Prop :=
  ∀ type info, ClassTable.find? world.classes type = some info →
    (∀ test ∈ info.test, ∀ value, HasClass (test value)) ∧
      ∀ samples ∈ info.generate, HasClass samples

theorem World.HooksHaveClass.spare {world : World} (hooks : world.HooksHaveClass) :
    world.HooksSpare .receiver := by
  intro type info known
  obtain ⟨tests, samples⟩ := hooks type info known
  exact ⟨fun test own value => hasClass_iff.mp (tests test own value),
    fun found own => hasClass_iff.mp (samples found own)⟩

theorem Predicate.SelfFree.allows {predicate : Predicate} (free : predicate.SelfFree) :
    predicate.Allows .receiver := by
  induction free with
  | @intro predicate itself within ih => exact .intro (fun _ => itself) ih

/-!
## Contracts of a class
-/

namespace Contract

open Condition (Evaluation)

def types (contract : Contract) : List Predicate :=
  (contract.argumentTypes.getD []).map Prod.snd ++ contract.returnType.toList

/-- A contract for a class: its types are changed, it has another name and remembers no call. -/
def forClass (contract : Contract) (change : Predicate → Predicate) (name : Text) : Contract :=
  { contract with
    name := name
    argumentTypes := contract.argumentTypes.map (·.map fun entry => (entry.1, change entry.2))
    returnType := contract.returnType.map change
    remembered := [] }

theorem bindClass_eq_forClass (contract : Contract) (type : HostType) (name : Text) :
    contract.bindClass type name = contract.forClass (Predicate.outermost type) name := rfl

theorem types_forClass (contract : Contract) (change : Predicate → Predicate) (name : Text) :
    (contract.forClass change name).types = contract.types.map change := by
  unfold types forClass
  cases contract.argumentTypes <;> cases contract.returnType <;> simp

variable {contract : Contract} {type : HostType}

theorem forClass_congr {left right : Predicate → Predicate} {name : Text}
    (same : ∀ declared ∈ contract.types, left declared = right declared) :
    contract.forClass left name = contract.forClass right name := by
  unfold forClass
  congr 1
  · cases types : contract.argumentTypes with
    | none => rfl
    | some entries =>
      rw [Option.map_some, Option.map_some, Option.some_inj]
      refine map_congr_left fun entry member => ?_
      rw [same entry.2]
      simp only [Contract.types, types]
      exact mem_append_left _ (mem_map_of_mem member)
  · cases type : contract.returnType with
    | none => rfl
    | some declared =>
      rw [Option.map_some, Option.map_some, same declared]
      simp only [Contract.types, type]
      exact mem_append_right _ mem_cons_self

/-- Binding puts the class throughout exactly when no type has the receiver's type inside. -/
theorem bindClass_eq_resolved_iff {name : Text} :
    contract.bindClass type name = contract.forClass (Predicate.resolved type) name ↔
      ∀ declared ∈ contract.types, ¬declared.NestsSelf := by
  rw [bindClass_eq_forClass]
  constructor
  · intro same declared member
    have sameTypes := congrArg types same
    rw [types_forClass, types_forClass] at sameTypes
    exact (Predicate.outermost_eq_resolved_iff type declared).mp
      (map_inj_left.mp sameTypes declared member)
  · intro plain
    refine forClass_congr fun declared member => ?_
    exact (Predicate.outermost_eq_resolved_iff type declared).mpr (plain declared member)

theorem selfFree_types_bindClass_iff {name : Text} :
    (∀ declared ∈ (contract.bindClass type name).types, declared.SelfFree) ↔
      ∀ declared ∈ contract.types, ¬declared.NestsSelf := by
  rw [bindClass_eq_forClass, types_forClass, forall_mem_map]
  exact forall₂_congr fun declared _ => Predicate.selfFree_outermost_iff type declared

/-- The checks of a contract's types, and the samples for its arguments, do not ask for a class
that is not bound. -/
structure ChecksHaveClass (world : World) (contract : Contract) : Prop where
  accepts : ∀ bound memory, HasClass ((checkAccepts world contract bound).run memory).1
  returns : ∀ returned memory, HasClass ((checkReturns world contract returned).run memory).1
  samples : ∀ entry ∈ contract.argumentTypes.getD [], ∀ memory : Memory,
    HasClass ((memory.viewPredicate entry.2).generate world)

theorem checksHaveClass_of_selfFree {world : World} (hooks : world.HooksHaveClass)
    (free : ∀ declared ∈ contract.types, declared.SelfFree) : ChecksHaveClass world contract := by
  have arguments : ∀ entry ∈ contract.argumentTypes.getD [], entry.2.SelfFree :=
    fun entry member => free entry.2 (mem_append_left _ (mem_map_of_mem member))
  have returned : ∀ type ∈ contract.returnType, type.SelfFree :=
    fun type declared => free type (mem_append_right _ (Option.mem_toList.mpr declared))
  have spare := hooks.spare
  refine ⟨?_, ?_, ?_⟩
  · intro bound memory
    exact hasClass_iff.mpr (checkAccepts_spares spare
      (fun entry member memory => ((arguments entry member).view memory).allows) bound memory)
  · intro value memory
    exact hasClass_iff.mpr (checkReturns_spares spare
      (fun type declared memory => ((returned type declared).view memory).allows) value memory)
  · intro entry member memory
    exact hasClass_iff.mpr (((arguments entry member).view memory).allows.generate_spares spare)

/-- A contract is what a declared one becomes for a class: the class stands in place of the
receiver's type throughout and everything else that is declared stays, so that no type asks for a
class that is not bound. -/
structure ResolvesSelf (declared : Contract) (type : HostType) (name : Text) (made : Contract) :
    Prop where
  replaced : made = declared.forClass (Predicate.resolved type) name
  free : ∀ within ∈ made.types, within.SelfFree
  checked : ∀ world : World, world.HooksHaveClass → ChecksHaveClass world made

theorem resolvesSelf_bindClass_iff {declared : Contract} {name : Text} :
    declared.ResolvesSelf type name (declared.bindClass type name) ↔
      ∀ within ∈ declared.types, ¬within.NestsSelf := by
  constructor
  · intro resolves
    exact bindClass_eq_resolved_iff.mp resolves.replaced
  · intro plain
    have free : ∀ within ∈ (declared.bindClass type name).types, within.SelfFree :=
      selfFree_types_bindClass_iff.mpr plain
    exact ⟨bindClass_eq_resolved_iff.mpr plain, free,
      fun world hooks => checksHaveClass_of_selfFree hooks free⟩

end Contract

/-!
## Tables of methods
-/

namespace Workspace

/-- Each method of a class is bound to it, and the receiver's type is the class throughout exactly
where no declared type has it strictly inside. -/
theorem bound_methods_resolve_self {workspace after : Workspace} {id : Text} {type : HostType}
    {methods : List (Text × Option Text)} {result : HostType × List Text}
    (bound : (bindClass id (some type) methods).run workspace = (.ok result, after)) :
    ∃ table, after.tables.lookup id = some table ∧
      ∀ label sourceId, (label, sourceId) ∈ methods →
        ∃ number declared place made,
          workspace.functions.lookup (sourceId.getD []) = some number ∧
          workspace.contractAt? number = some declared ∧
          (label, place) ∈ table ∧ after.contractAt? place = some made ∧
          (declared.ResolvesSelf type (type.shortName ++ Text.ofString "." ++ label) made ↔
            ∀ within ∈ declared.types, ¬within.NestsSelf) := by
  obtain ⟨failure, ran⟩ | ⟨_, names, sources, ⟨⟩, sourced, ran⟩ :=
    bindClass_run_cases workspace id (some type) methods
  · cases ran.symm.trans bound
  · cases ran.symm.trans bound
    refine ⟨methodTable sources workspace.contracts.length, by simp [withClass, put], ?_⟩
    intro label sourceId member
    obtain ⟨source, inside, sameName, named, known⟩ :=
      exists_mem_of_forall₂ sourced (List.mem_mergeSort.mpr member)
    obtain ⟨place, found⟩ := List.getElem?_of_mem inside
    have listed : (source.name, workspace.contracts.length + place) ∈
        methodTable sources workspace.contracts.length := by
      refine List.mem_map.mpr ⟨(source, workspace.contracts.length + place), ?_, rfl⟩
      simp [List.mk_mem_zipIdx_iff_le_and_getElem?_sub, found]
    have made : (workspace.withClass id type sources).contractAt?
        (workspace.contracts.length + place) = some (source.copy type) := by
      rw [contractAt?, contracts_withClass, List.getElem?_append_right (Nat.le_add_right _ _),
        Nat.add_sub_cancel_left, List.getElem?_map, found]
      rfl
    rw [MethodSource.copy, sameName] at made
    rw [sameName] at listed
    exact ⟨source.number, source.contract, _, _, named, known, listed, made,
      Contract.resolvesSelf_bindClass_iff⟩

def receiving (function : Text) (signature : Signature) (types : List (Text × Predicate))
    (returnType : Option Predicate) : Workspace :=
  { initial Sample.host with
    contracts := [{
      function := .function signature.type (.host function), signature := signature
      parameters := types.map (fun entry => ⟨entry.1, .positional, none⟩), name := function
      argumentTypes := some types, returnType := returnType, requires := [], ensures := []
      overlay := .empty, store := none, immutable := false, mutableNames := []
      registry := none, remembered := [] }]
    functions := [("method", 0)] }

def counterMethods : Workspace :=
  receiving "CounterAdd" ⟨[Sample.counter, .wordInt], false, [Sample.counter], false⟩
    [("c", .self), ("n", .number .integer)] (some .self)

theorem bound_methods_resolve_self_counter :
    ∃ after declared place made,
      (bindClass "Counter" (some Sample.counter) [("Add", some "method")]).run counterMethods =
        (.ok (Sample.counter, ["Add"]), after) ∧
      counterMethods.contractAt? 0 = some declared ∧
      declared.types = [.self, .number .integer, .self] ∧
      after.contractAt? place = some made ∧
      declared.ResolvesSelf Sample.counter "Counter.Add" made := by
  have succeeded :
      ((bindClass "Counter" (some Sample.counter) [("Add", some "method")]).run counterMethods).1 =
        .ok (Sample.counter, ["Add"]) := by
    simp only [bindClass, List.mergeSort_singleton]
    rfl
  obtain ⟨table, _, all⟩ := bound_methods_resolve_self (Prod.ext succeeded rfl)
  obtain ⟨number, declared, place, made, named, known, _, there, resolves⟩ :=
    all "Add" (some "method") List.mem_cons_self
  cases named
  cases known
  refine ⟨_, _, place, made, Prod.ext succeeded rfl, rfl, rfl, there, resolves.mpr ?_⟩
  intro within member ⟨part, inside, _⟩
  have listed : within ∈ [Predicate.self, .number .integer, .self] := member
  rw [List.mem_cons, List.mem_pair] at listed
  rcases listed with same | same | same <;> rw [same] at inside <;> cases inside

def listMethods : Workspace :=
  receiving "Id" ⟨[.any], false, [.any], false⟩ [("x", .list .self)] none

/-- The receiver's type within a list is not replaced, and a call asks for the class. -/
theorem self_within_list_survives :
    let bound := (bindClass "Counter" (some Sample.counter) [("Id", some "method")]).run listMethods
    bound.1 = .ok (Sample.counter, ["Id"]) ∧
      (bound.2.method? "Counter" "Id").bind Contract.argumentTypes =
        some [(Text.ofString "x", .list .self)] ∧
      wantsClass ((call "Counter.Id" [.ofList [.ofWord 1]] []).run bound.2).1 = true := by
  intro bound
  refine ⟨?_, ?_, by decide +kernel⟩
  · simp only [bound, bindClass, List.mergeSort_singleton]
    rfl
  · simp only [bound, bindClass, List.mergeSort_singleton]
    rfl

end Workspace

end Covenant
