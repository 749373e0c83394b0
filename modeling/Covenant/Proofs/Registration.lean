import Covenant.Proofs.Atomicity
import Covenant.Proofs.ClassBinding
import Covenant.Proofs.Remembering

/-!
# What registries hold

A function is recorded in the registry that it is put under contract with. When it becomes a method
of a class, a copy takes its place there, and further copies go to the end. A registry holds each of
its functions once, except those that became methods.
-/

set_option autoImplicit false

namespace Covenant

open List

open Stateful

variable {number : Nat} {before after : Workspace} {operation : Workspace.Operation}
  {registry : Text} {sources : List Workspace.MethodSource}

namespace Workspace

/-!
## One registry
-/

/-- A registry after copies were bound, given with their sources: each function has been replaced by
its first copy, and the other copies stand at the end. -/
def settled (recorded : List Nat) (copies : List (Nat × Nat)) : List Nat :=
  recorded.map (fun number => (copies.lookup number).getD number) ++
    (copies.filter fun copy =>
      !(copy.1 ∈ recorded && copies.lookup copy.1 == some copy.2)).map (·.2)

variable {recorded : List Nat} {source copy : Nat}

theorem set_idxOf_eq_map (distinct : recorded.Nodup) (listed : source ∈ recorded) (copy : Nat) :
    recorded.set (recorded.idxOf source) copy =
      recorded.map (fun number => if number = source then copy else number) := by
  induction recorded with
  | nil => cases listed
  | cons number recorded ih =>
    obtain ⟨fresh, distinct⟩ := nodup_cons.mp distinct
    by_cases same : number = source
    · subst same
      have others : recorded.map (fun other => if other = number then copy else other) =
          recorded := by
        refine (map_congr_left fun other inside => if_neg ?_).trans (map_id recorded)
        exact fun same => fresh (same ▸ inside)
      simp [others]
    · have later : source ∈ recorded := by
        cases listed with
        | head => exact absurd rfl same
        | tail _ later => exact later
      rw [idxOf_cons_ne _ same, set_cons_succ, ih distinct later, map_cons,
        if_neg same]

theorem replaced_of_fresh (distinct : recorded.Nodup) (fresh : copy ∉ recorded) :
    replaced recorded source copy =
      if source ∈ recorded then
        recorded.map (fun number => if number = source then copy else number)
      else recorded ++ [copy] := by
  unfold replaced
  rw [if_neg fresh]
  split
  · next listed => exact set_idxOf_eq_map distinct listed copy
  · rfl

theorem nodup_replaced (distinct : recorded.Nodup) (source copy : Nat) :
    (replaced recorded source copy).Nodup := by
  unfold replaced
  split
  · exact distinct
  · next fresh =>
    split
    · exact distinct.set fresh
    · exact concat_eq_append ▸ distinct.concat fresh

theorem mem_replaced_iff (distinct : recorded.Nodup) (fresh : copy ∉ recorded) :
    number ∈ replaced recorded source copy ↔
      number ∈ recorded ∧ number ≠ source ∨ number = copy := by
  rw [replaced_of_fresh distinct fresh]
  split
  · next listed =>
    rw [mem_map]
    constructor
    · intro ⟨other, inside, same⟩
      split at same
      · exact .inr same.symm
      · next differs => exact .inl ⟨same ▸ inside, same ▸ differs⟩
    · rintro (⟨inside, differs⟩ | same)
      · exact ⟨number, inside, if_neg differs⟩
      · exact ⟨source, listed, (if_pos rfl).trans same.symm⟩
  · next unlisted =>
    rw [mem_append, mem_singleton]
    refine or_congr_left ⟨fun inside => ⟨inside, ?_⟩, And.left⟩
    exact fun same => unlisted (same ▸ inside)

/-- Copies that are new to a registry and different from each other and from all sources. -/
structure FreshCopies (recorded : List Nat) (copies : List (Nat × Nat)) : Prop where
  unlisted : ∀ copy ∈ copies, copy.2 ∉ recorded
  distinct : (copies.map (·.2)).Nodup
  apart : ∀ copy ∈ copies, ∀ other ∈ copies, copy.1 ≠ other.2

theorem FreshCopies.tail (distinct : recorded.Nodup) {copy : Nat × Nat} {copies : List (Nat × Nat)}
    (fresh : FreshCopies recorded (copy :: copies)) :
    FreshCopies (replaced recorded copy.1 copy.2) copies := by
  have unlisted := fresh.unlisted copy mem_cons_self
  have separate := nodup_cons.mp fresh.distinct
  refine ⟨?_, separate.2, ?_⟩
  · intro other inside listed
    rw [mem_replaced_iff distinct unlisted] at listed
    rcases listed with ⟨listed, _⟩ | same
    · exact fresh.unlisted other (mem_cons_of_mem _ inside) listed
    · exact separate.1 (mem_map.mpr ⟨other, inside, same⟩)
  · intro first firstInside second secondInside
    exact fresh.apart first (mem_cons_of_mem _ firstInside) second
      (mem_cons_of_mem _ secondInside)

section

variable {copies : List (Nat × Nat)}

variable {recorded : List Nat} {number : Nat}

theorem nodup_foldl_replaced (distinct : recorded.Nodup) :
    (copies.foldl (fun now copy => replaced now copy.1 copy.2) recorded).Nodup := by
  induction copies generalizing recorded with
  | nil => exact distinct
  | cons copy copies ih => exact ih (nodup_replaced distinct copy.1 copy.2)

theorem mem_foldl_replaced_iff (distinct : recorded.Nodup) (fresh : FreshCopies recorded copies) :
    number ∈ copies.foldl (fun now copy => replaced now copy.1 copy.2) recorded ↔
      number ∈ recorded ∧ number ∉ copies.map (·.1) ∨ number ∈ copies.map (·.2) := by
  induction copies generalizing recorded with
  | nil => simp
  | cons copy copies ih =>
    have unlisted := fresh.unlisted copy mem_cons_self
    rw [foldl_cons, ih (nodup_replaced distinct copy.1 copy.2) (fresh.tail distinct),
      mem_replaced_iff distinct unlisted, map_cons, map_cons, mem_cons,
      mem_cons]
    have kept : number = copy.2 → number ∉ copies.map (·.1) := by
      intro same inside
      obtain ⟨other, otherInside, otherSame⟩ := mem_map.mp inside
      exact fresh.apart other (mem_cons_of_mem _ otherInside) copy mem_cons_self
        (otherSame.trans same)
    tauto

theorem lookup_eq_none_of_apart (apart : ∀ copy ∈ copies, copy.1 ≠ number) :
    copies.lookup number = none := by
  rw [lookup_eq_none_iff]
  intro copy inside
  simpa using (apart copy inside).symm

/-- Binding copies one after the other gives each function's place to its first copy. -/
theorem foldl_replaced_eq_settled (distinct : recorded.Nodup)
    (fresh : FreshCopies recorded copies) :
    copies.foldl (fun now copy => replaced now copy.1 copy.2) recorded =
      settled recorded copies := by
  induction copies generalizing recorded with
  | nil => simp [settled]
  | cons copy copies ih =>
    obtain ⟨source, number⟩ := copy
    rw [foldl_cons, ih (nodup_replaced distinct source number) (fresh.tail distinct)]
    have unlisted : number ∉ recorded := fresh.unlisted (source, number) mem_cons_self
    have others (other : Nat × Nat) (inside : other ∈ copies) :
        other.1 ≠ number ∧ number ≠ other.2 := by
      refine ⟨fresh.apart other (mem_cons_of_mem _ inside) _ mem_cons_self, ?_⟩
      exact fun same => (nodup_cons.mp fresh.distinct).1
        (mem_map.mpr ⟨other, inside, same.symm⟩)
    have own : source ≠ number := fresh.apart _ mem_cons_self _ mem_cons_self
    have unbound : copies.lookup number = none :=
      lookup_eq_none_of_apart fun other inside => (others other inside).1
    -- Which of the other copies go to the end does not depend on whether this one is bound yet.
    have later : copies.filter (fun copy => !(copy.1 ∈ replaced recorded source number &&
          copies.lookup copy.1 == some copy.2)) =
        copies.filter (fun copy => !(copy.1 ∈ recorded &&
          ((source, number) :: copies).lookup copy.1 == some copy.2)) := by
      refine filter_congr fun other inside => ?_
      obtain ⟨notCopy, notSame⟩ := others other inside
      simp only [mem_replaced_iff distinct unlisted, notCopy, or_false, lookup_cons]
      by_cases same : other.1 = source
      · simp [same, notSame]
      · have differs : (other.1 == source) = false := by simpa using same
        simp [same, differs]
    unfold settled
    rw [later, filter_cons]
    by_cases listed : source ∈ recorded
    · rw [replaced_of_fresh distinct unlisted, if_pos listed, map_map,
        if_neg (by simp [listed])]
      refine congrArg (· ++ _) (map_congr_left fun found _ => ?_)
      by_cases same : found = source
      · simp [same, unbound]
      · have differs : (found == source) = false := by simpa using same
        simp [same, lookup_cons, differs]
    · have kept : recorded.map (fun found => (copies.lookup found).getD found) =
          recorded.map
            (fun found => (((source, number) :: copies).lookup found).getD found) := by
        refine map_congr_left fun found inside => ?_
        have differs : (found == source) = false := by
          simpa using fun same : found = source => listed (same ▸ inside)
        rw [lookup_cons, differs]
      rw [replaced_of_fresh distinct unlisted, if_neg listed, if_pos (by simp [listed]),
        map_append, map_singleton, unbound, kept, append_assoc]
      rfl

example : settled [3, 5, 7] [(5, 8), (5, 9), (3, 10)] = [10, 8, 7, 9] := by decide

end

end Workspace

/-!
## One operation
-/

/-- The registry that clauses choose; the last choice counts. -/
def Clause.home (clauses : List Clause) : Option Text :=
  (clauses.flatMap Clause.registries).getLast?.getD (some Contract.defaultRegistry)

theorem Contract.registry_of_wrap {host : Host} {function : Value} {clauses : List Clause}
    {made : Contract} (wrapped : Contract.wrap host function clauses = .ok made) :
    made.registry = Clause.home clauses := by
  obtain ⟨_, _, _, declaration, _, _, _, collected, _, takes⟩ := wrap_eq_ok_iff.mp wrapped
  rw [takes.registry, undeclared, collected.registry, Option.or_none]
  rfl

namespace Workspace

def homes (workspace : Workspace) : List (Option Text) := workspace.contracts.map Contract.registry

@[simp] theorem length_homes (workspace : Workspace) :
    workspace.homes.length = workspace.contracts.length := length_map _

theorem registryOf_put (workspace : Workspace) (registry other : Text) (recorded : List Nat) :
    registryOf { workspace with registries := put registry recorded workspace.registries } other =
      if other = registry then recorded else workspace.registryOf other := by
  unfold registryOf
  rw [lookup_put]
  split <;> rfl

/-!
### Operations that leave registries alone
-/

/-- The same functions belong to the same registries, which hold the same. -/
structure SameRegistries (before after : Workspace) : Prop where
  registries : after.registries = before.registries
  homes : after.homes = before.homes

instance : IsPreorder Workspace SameRegistries where
  refl := fun _ => ⟨rfl, rfl⟩
  trans := fun _ _ _ toSecond toThird =>
    ⟨toThird.registries.trans toSecond.registries, toThird.homes.trans toSecond.homes⟩

theorem SameRegistries.registryOf (same : SameRegistries before after)
    (registry : Text) : after.registryOf registry = before.registryOf registry := by
  unfold Workspace.registryOf
  rw [same.registries]

theorem homes_set {contracts : List Contract} {contract changed : Contract}
    (known : contracts[number]? = some contract) (same : changed.registry = contract.registry) :
    (contracts.set number changed).map Contract.registry = contracts.map Contract.registry := by
  obtain ⟨inside, found⟩ := List.getElem?_eq_some_iff.mp known
  have insideHomes : number < (contracts.map Contract.registry).length := by simpa using inside
  have here : changed.registry = (contracts.map Contract.registry)[number] := by
    rw [getElem_map, found, same]
  rw [map_set, here, set_getElem_self]

/-- What a call or further clauses make of a contract. -/
inductive Becomes (contract : Contract) : Contract → Prop where
  | remember (remembered : List Record) : Becomes contract { contract with remembered := remembered }
  | extend {clauses : List Clause} {changed : Contract} :
      contract.extend clauses = .ok changed → Becomes contract changed

/-- At most one contract is another one, and it came from the one in its place. -/
structure Revises (before after : Workspace) : Prop where
  host : after.host = before.host
  registries : after.registries = before.registries
  contracts : after.contracts = before.contracts ∨ ∃ number contract changed,
    before.contractAt? number = some contract ∧ Becomes contract changed ∧
      after.contracts = before.contracts.set number changed

theorem Revises.of_same (same : SameContracts before after) :
    Revises before after := ⟨same.1, same.2.2, .inl same.2.1⟩

theorem Revises.sameRegistries (revises : Revises before after) :
    SameRegistries before after := by
  refine ⟨revises.registries, ?_⟩
  unfold homes
  obtain same | ⟨number, contract, changed, known, becomes, replaced⟩ := revises.contracts
  · rw [same]
  · rw [replaced]
    cases becomes with
    | remember remembered => exact homes_set known rfl
    | extend extended => exact homes_set known (Contract.registry_of_extend extended)

theorem Revises.of_updates {id : Text} {remembers : Contract → List Record}
    (updates : Updates id remembers before after) : Revises before after := by
  cases updates with
  | @changed number contract _ _ known host registries replaced =>
    exact ⟨host, registries, .inr ⟨number, contract, _, known, .remember _, replaced⟩⟩
  | unknown => exact .of_same (refl before)

theorem rewrap_revises (id source : Text) (clauses : List Clause) :
    MovesAlong Revises (rewrap id source clauses) := by
  intro workspace
  obtain ⟨failure, ran⟩ | ⟨number, contract, changed, known, extended, ran⟩ :=
    rewrap_run_cases workspace id source clauses
  · rw [ran]
    exact .of_same (refl workspace)
  · rw [ran]
    exact ⟨rfl, rfl, .inr ⟨number, contract, changed, known, .extend extended, rfl⟩⟩

def Operation.adds : Operation → Bool
  | .wrap .. | .bindClass .. => true
  | _ => false

theorem Operation.perform_revises (adds : operation.adds = false) :
    MovesAlong Revises operation.perform := by
  cases operation with
  | wrap | bindClass => cases adds
  | call id arguments named =>
    exact .map fun workspace => .of_updates (callWith_updates workspace id _)
  | callBound id named cancelled =>
    refine .map ?_
    unfold Workspace.callBound
    split
    · exact fun workspace => .of_same (refl workspace)
    · exact fun workspace => .of_updates (callWith_updates workspace id _)
  | forget id => exact fun workspace => .of_updates (forget_updates workspace id)
  | redeclare id source clauses => exact .map (rewrap_revises _ _ _)
  | declareClass declaration => exact .modify fun _ => .of_same ⟨rfl, rfl, rfl⟩
  | assign store name value => exact (set_sameContracts _ _ _).imp .of_same
  | assignAll store values => exact (setAll_sameContracts _ _).imp .of_same
  | overlay id origin name value => exact .map ((overlay_sameContracts _ _ _ _).imp .of_same)

/-!
### Operations that record functions
-/

/-- The copies that methods add to a registry, with their sources. Copies are numbered in the order
of the methods. -/
def copiesIn (registry : Text) (sources : List MethodSource) (first : Nat) : List (Nat × Nat) :=
  ((sources.zipIdx first).filter fun source => source.1.contract.registry == some registry).map
    fun source => (source.1.number, source.2)

def Operation.Registers (before after : Workspace) : Operation → Prop
  | .wrap _ _ clauses =>
    after.homes = before.homes ++ [Clause.home clauses] ∧
      ∀ registry, after.registryOf registry = before.registryOf registry ++
        if Clause.home clauses = some registry then [before.contracts.length] else []
  | .bindClass _ _ methods =>
    ∃ sources, List.Forall₂ before.SourceOf
        (methods.mergeSort fun left right => Text.le left.1 right.1) sources ∧
      after.homes = before.homes ++ sources.map (·.contract.registry) ∧
      ∀ registry, after.registryOf registry = settled (before.registryOf registry)
        (copiesIn registry sources before.contracts.length)
  | _ => SameRegistries before after

theorem copiesIn_cons (registry : Text) (source : MethodSource) (sources : List MethodSource)
    (first : Nat) : copiesIn registry (source :: sources) first =
      (if source.contract.registry = some registry then [(source.number, first)] else []) ++
        copiesIn registry sources (first + 1) := by
  unfold copiesIn
  rw [zipIdx_cons, filter_cons]
  by_cases here : source.contract.registry = some registry
  · simp [here]
  · simp [here]

theorem homes_withAdded (workspace : Workspace) (id : Text) (made : Contract) :
    (workspace.withAdded id made).homes = workspace.homes ++ [made.registry] := map_append

theorem registryOf_withAdded {workspace : Workspace}
    (fresh : workspace.contracts.length ∉ workspace.registryOf registry) (id : Text)
    (made : Contract) : (workspace.withAdded id made).registryOf registry =
      workspace.registryOf registry ++
        if made.registry = some registry then [workspace.contracts.length] else [] := by
  unfold withAdded
  cases home : made.registry with
  | none => simp [registryOf]
  | some own =>
    by_cases same : registry = own
    · subst same
      simp only [fresh, if_false, if_true]
      exact (registryOf_put _ _ _ _).trans (if_pos rfl)
    · have other : some own ≠ some registry := fun found => same (Option.some.inj found).symm
      rw [if_neg other, append_nil]
      by_cases recorded : workspace.contracts.length ∈ workspace.registryOf own
      · simp only [recorded, if_true]
        rfl
      · simp only [recorded, if_false]
        exact (registryOf_put _ _ _ _).trans (if_neg same)

theorem registryOf_withCopy (id : Text) (type : HostType) (workspace : Workspace)
    (source : MethodSource) (registry : Text) :
    (workspace.withCopy id type source).registryOf registry =
      if source.contract.registry = some registry then
        replaced (workspace.registryOf registry) source.number workspace.contracts.length
      else workspace.registryOf registry := by
  unfold withCopy
  cases home : source.contract.registry with
  | none => rfl
  | some own =>
    refine (registryOf_put _ own registry _).trans ?_
    by_cases same : registry = own
    · subst same
      simp only [if_true]
    · have other : some own ≠ some registry := fun found => same (Option.some.inj found).symm
      rw [if_neg same, if_neg other]

theorem registryOf_withClass (workspace : Workspace) (id : Text) (type : HostType)
    (sources : List MethodSource) (registry : Text) :
    (workspace.withClass id type sources).registryOf registry =
      (copiesIn registry sources workspace.contracts.length).foldl
        (fun now copy => replaced now copy.1 copy.2) (workspace.registryOf registry) := by
  change (sources.foldl (withCopy id type) workspace).registryOf registry = _
  induction sources generalizing workspace with
  | nil => rfl
  | cons source sources ih =>
    have added : (workspace.withCopy id type source).contracts.length =
        workspace.contracts.length + 1 := length_append
    rw [foldl_cons, ih, registryOf_withCopy, copiesIn_cons, foldl_append, added]
    by_cases here : source.contract.registry = some registry
    · simp [here]
    · simp [here]

theorem homes_withClass (workspace : Workspace) (id : Text) (type : HostType)
    (sources : List MethodSource) : (workspace.withClass id type sources).homes =
      workspace.homes ++ sources.map (·.contract.registry) := by
  rw [homes, contracts_withClass, map_append, map_map]
  rfl

/-!
## Any operations
-/

namespace Operation

def declares : Operation → Bool
  | .wrap .. | .redeclare .. | .bindClass .. => true
  | _ => false

def bound (workspace : Workspace) : Operation → List Nat
  | .bindClass id type methods =>
    if (outcome workspace (.bindClass id type methods)).isOk then
      methods.filterMap fun method => workspace.functions.lookup (method.2.getD [])
    else []
  | _ => []

end Operation

def boundIn (workspace : Workspace) : List Operation → List Nat
  | [] => []
  | operation :: operations =>
    operation.bound workspace ++ boundIn (operation.after workspace) operations

/-- Registries hold their functions once, except those that became methods. -/
structure Orderly (workspace : Workspace) (bound : List Nat) : Prop where
  distinct : ∀ registry, (workspace.registryOf registry).Nodup
  members : ∀ registry number, number ∈ workspace.registryOf registry ↔
    workspace.homes[number]? = some (some registry) ∧ number ∉ bound
  bound : ∀ number ∈ bound, number < workspace.contracts.length

structure RegistryStep (before : Workspace) (operation : Operation) : Prop where
  failed : ∀ failure, operation.outcome before = .error failure →
    SameRegistries before (operation.after before) ∧
      (operation.declares → operation.after before = before)
  succeeded : operation.outcome before = .ok () →
    operation.Registers before (operation.after before)

theorem orderly_initial (host : Host) : Orderly (initial host) [] := by
  refine ⟨fun _ => nodup_nil, fun registry number => ?_,
    fun _ inside => absurd inside not_mem_nil⟩
  simp [registryOf, initial, homes]

section

variable {workspace after : Workspace} {bound : List Nat}

theorem mem_copiesIn_iff {first : Nat} {copy : Nat × Nat} :
    copy ∈ copiesIn registry sources first ↔
      ∃ place source, sources[place]? = some source ∧ source.contract.registry = some registry ∧
        copy = (source.number, first + place) := by
  unfold copiesIn
  simp only [mem_map, mem_filter, beq_iff_eq]
  constructor
  · intro ⟨⟨source, number⟩, ⟨inside, home⟩, same⟩
    obtain ⟨later, found⟩ := mk_mem_zipIdx_iff_le_and_getElem?_sub.mp inside
    refine ⟨number - first, source, found, home, ?_⟩
    rw [← same, Nat.add_sub_cancel' later]
  · intro ⟨place, source, found, home, same⟩
    refine ⟨(source, first + place), ⟨?_, home⟩, same.symm⟩
    rw [mk_mem_zipIdx_iff_le_and_getElem?_sub, Nat.add_sub_cancel_left]
    exact ⟨Nat.le_add_right first place, found⟩

theorem nodup_copiesIn (registry : Text) (sources : List MethodSource) (first : Nat) :
    ((copiesIn registry sources first).map (·.2)).Nodup := by
  have numbers : ((sources.zipIdx first).map Prod.snd).Nodup := by
    rw [zipIdx_map_snd]
    exact nodup_range'
  unfold copiesIn
  rw [map_map]
  exact numbers.sublist (filter_sublist.map Prod.snd)

theorem lt_length_of_sourced {methods : List (Text × Option Text)}
    (sourced : List.Forall₂ workspace.SourceOf methods sources) {source : MethodSource}
    (listed : source ∈ sources) : source.number < workspace.contracts.length :=
  (List.getElem?_eq_some_iff.mp (contractAt?_of_sourced sourced listed)).1

theorem mem_sources_iff {methods : List (Text × Option Text)} {sources : List MethodSource}
    (sourced : List.Forall₂ workspace.SourceOf
      (methods.mergeSort fun left right => Text.le left.1 right.1) sources) :
    number ∈ methods.filterMap (fun method => workspace.functions.lookup (method.2.getD [])) ↔
      ∃ source ∈ sources, source.number = number := by
  rw [mem_filterMap]
  constructor
  · intro ⟨method, inside, named⟩
    obtain ⟨source, listed, _, sourceNamed, _⟩ :=
      exists_mem_of_forall₂ sourced (mem_mergeSort.mpr inside)
    rw [named] at sourceNamed
    exact ⟨source, listed, (Option.some.inj sourceNamed).symm⟩
  · intro ⟨source, listed, same⟩
    obtain ⟨method, inside, _, named, _⟩ := exists_mem_of_forall₂ sourced.flip listed
    exact ⟨method, mem_mergeSort.mp inside, same ▸ named⟩

theorem Operation.of_run {α : Type} (operation : Operation) {body : Session α}
    {outcome : Except Failure α}
    (performed : operation.perform = (fun _ => ()) <$> body)
    (ran : body.run workspace = (outcome, after)) :
    operation.outcome workspace = outcome.map (fun _ => ()) ∧
      operation.after workspace = after := by
  rw [Operation.outcome, Operation.after, performed, run_map, ran]
  exact ⟨rfl, rfl⟩

theorem RegistryStep.of_succeeded (succeeded : operation.outcome workspace = .ok ())
    (registers : operation.Registers workspace (operation.after workspace)) :
    RegistryStep workspace operation := by
  refine ⟨fun failure failed => ?_, fun _ => registers⟩
  rw [succeeded] at failed
  cases failed

namespace Orderly

variable (orderly : Orderly workspace bound)

include orderly

theorem lt_length
    (recorded : number ∈ workspace.registryOf registry) : number < workspace.contracts.length := by
  have known := ((orderly.members registry number).mp recorded).1
  rw [← length_homes]
  exact (List.getElem?_eq_some_iff.mp known).1

theorem fresh (registry : Text) :
    workspace.contracts.length ∉ workspace.registryOf registry :=
  fun recorded => Nat.lt_irrefl _ (orderly.lt_length recorded)

theorem of_same (same : SameRegistries workspace after) : Orderly after bound := by
  have lengths : after.contracts.length = workspace.contracts.length := by
    rw [← length_homes, same.homes, length_homes]
  refine ⟨fun registry => ?_, fun registry number => ?_, fun number inside => ?_⟩
  · rw [same.registryOf]
    exact orderly.distinct registry
  · rw [same.registryOf, same.homes]
    exact orderly.members registry number
  · rw [lengths]
    exact orderly.bound number inside

theorem of_grown {added : List (Option Text)}
    {gone : List Nat} (homes : after.homes = workspace.homes ++ added)
    (known : ∀ number ∈ gone, number < workspace.contracts.length)
    (distinct : ∀ registry, (after.registryOf registry).Nodup)
    (members : ∀ registry number, number ∈ after.registryOf registry ↔
      number ∈ workspace.registryOf registry ∧ number ∉ gone ∨
        ∃ place, number = workspace.contracts.length + place ∧
          added[place]? = some (some registry)) :
    Orderly after (bound ++ gone) := by
  have lengths : after.contracts.length = workspace.contracts.length + added.length := by
    rw [← length_homes, homes, length_append, length_homes]
  refine ⟨distinct, fun registry number => ?_, fun number inside => ?_⟩
  · rw [members, orderly.members, homes, mem_append, not_or, and_assoc]
    obtain old | new := Nat.lt_or_ge number workspace.contracts.length
    · rw [List.getElem?_append_left (by simpa using old)]
      refine or_iff_left ?_
      intro ⟨place, same, _⟩
      omega
    · have unbound : number ∉ bound ∧ number ∉ gone :=
        ⟨fun inside => absurd (orderly.bound number inside) (Nat.not_lt.mpr new),
          fun inside => absurd (known number inside) (Nat.not_lt.mpr new)⟩
      have unknown : workspace.homes[number]? = none :=
        List.getElem?_eq_none (by simpa using new)
      rw [List.getElem?_append_right (by simpa using new), length_homes, unknown]
      constructor
      · rintro (⟨impossible, _⟩ | ⟨place, same, found⟩)
        · cases impossible
        · rw [same, Nat.add_sub_cancel_left]
          exact ⟨found, same ▸ unbound⟩
      · intro ⟨found, _⟩
        exact .inr ⟨_, (Nat.add_sub_cancel' new).symm, found⟩
  · rw [lengths]
    rw [mem_append] at inside
    cases inside with
    | inl inside => exact Nat.lt_add_right _ (orderly.bound number inside)
    | inr inside => exact Nat.lt_add_right _ (known number inside)

theorem of_wrap (id : Text) (made : Contract) :
    Orderly (workspace.withAdded id made) bound := by
  have recorded (registry : Text) := registryOf_withAdded (orderly.fresh registry) id made
  refine append_nil bound ▸ orderly.of_grown (homes_withAdded workspace id made) (by simp)
    (fun registry => ?_) (fun registry number => ?_)
  · rw [recorded]
    split
    · exact concat_eq_append ▸ (orderly.distinct registry).concat (orderly.fresh registry)
    · rw [append_nil]
      exact orderly.distinct registry
  · rw [recorded, mem_append]
    by_cases here : made.registry = some registry
    · simp [here, List.getElem?_singleton]
    · simp [here, List.getElem?_singleton]

theorem freshCopies {methods : List (Text × Option Text)}
    (sourced : List.Forall₂ workspace.SourceOf methods sources) (registry : Text) :
    FreshCopies (workspace.registryOf registry)
      (copiesIn registry sources workspace.contracts.length) := by
  refine ⟨fun copy inside recorded => ?_, nodup_copiesIn _ _ _,
    fun copy inside other otherInside same => ?_⟩
  · obtain ⟨place, _, _, _, same⟩ := mem_copiesIn_iff.mp inside
    have lt := orderly.lt_length recorded
    simp only [same] at lt
    omega
  · obtain ⟨_, source, found, _, sameCopy⟩ := mem_copiesIn_iff.mp inside
    obtain ⟨place, _, _, _, sameOther⟩ := mem_copiesIn_iff.mp otherInside
    have lt := lt_length_of_sourced sourced (mem_of_getElem? found)
    simp only [sameCopy, sameOther] at same
    omega

theorem of_bindClass {methods : List (Text × Option Text)}
    (sourced : List.Forall₂ workspace.SourceOf
      (methods.mergeSort fun left right => Text.le left.1 right.1) sources)
    (id : Text) (type : HostType) :
    Orderly (workspace.withClass id type sources)
      (bound ++ methods.filterMap fun method => workspace.functions.lookup (method.2.getD [])) := by
  refine orderly.of_grown (homes_withClass ..) ?_ (fun registry => ?_) (fun registry number => ?_)
  · intro number leaves
    obtain ⟨source, listed, same⟩ := (mem_sources_iff sourced).mp leaves
    exact same ▸ lt_length_of_sourced sourced listed
  · rw [registryOf_withClass]
    exact nodup_foldl_replaced (orderly.distinct registry)
  · rw [registryOf_withClass, mem_foldl_replaced_iff (orderly.distinct registry)
      (orderly.freshCopies sourced registry)]
    refine or_congr (and_congr_right fun listed => not_congr ?_) ?_
    · -- A function of this registry that becomes a method has a copy in it.
      rw [mem_sources_iff sourced, mem_map]
      constructor
      · intro ⟨copy, copied, same⟩
        obtain ⟨place, source, found, _, sameCopy⟩ := mem_copiesIn_iff.mp copied
        exact ⟨source, mem_of_getElem? found, by rw [← same, sameCopy]⟩
      · intro ⟨source, member, same⟩
        obtain ⟨place, found⟩ := List.getElem?_of_mem member
        have home := ((orderly.members registry number).mp listed).1
        rw [Workspace.homes, List.getElem?_map, ← same] at home
        have there : workspace.contracts[source.number]? = some source.contract :=
          contractAt?_of_sourced sourced member
        rw [there] at home
        exact ⟨_, mem_copiesIn_iff.mpr ⟨place, source, found, Option.some.inj home, rfl⟩, same⟩
    · rw [mem_map]
      constructor
      · intro ⟨copy, copied, same⟩
        obtain ⟨place, source, found, home, sameCopy⟩ := mem_copiesIn_iff.mp copied
        refine ⟨place, by rw [← same, sameCopy], ?_⟩
        rw [List.getElem?_map, found, ← home]
        rfl
      · intro ⟨place, same, found⟩
        rw [List.getElem?_map, Option.map_eq_some_iff] at found
        obtain ⟨source, found, home⟩ := found
        exact ⟨_, mem_copiesIn_iff.mpr ⟨place, source, found, home, rfl⟩, same.symm⟩

theorem step_of_revises {operation : Operation}
    (adds : operation.adds = false)
    (refused : ∀ failure, operation.outcome workspace = .error failure → operation.declares →
      operation.after workspace = workspace) :
    RegistryStep workspace operation ∧
      Orderly (operation.after workspace) (bound ++ operation.bound workspace) := by
  have same : SameRegistries workspace (operation.after workspace) :=
    (operation.perform_revises adds workspace).sameRegistries
  refine ⟨⟨fun failure failed => ⟨same, refused failure failed⟩, fun _ => ?_⟩, ?_⟩
  · cases operation with
    | wrap | bindClass => cases adds
    | _ => exact same
  · have unbound : operation.bound workspace = [] := by
      cases operation with
      | bindClass => cases adds
      | _ => rfl
    rw [unbound, append_nil]
    exact orderly.of_same same

theorem step_of_failed {failure : Failure} (failed : operation.outcome workspace = .error failure)
    (unchanged : operation.after workspace = workspace) (unbound : operation.bound workspace = []) :
    RegistryStep workspace operation ∧
      Orderly (operation.after workspace) (bound ++ operation.bound workspace) := by
  rw [unbound, append_nil, unchanged]
  refine ⟨⟨fun _ _ => ⟨?_, fun _ => unchanged⟩, fun succeeded => ?_⟩, orderly⟩
  · rw [unchanged]
    exact refl workspace
  · rw [failed] at succeeded
    cases succeeded

theorem step_wrap (id : Text) (function : Value) (clauses : List Clause) :
    RegistryStep workspace (.wrap id function clauses) ∧
      Orderly (Operation.after workspace (.wrap id function clauses)) (bound ++ []) := by
  have ran := wrap_run workspace id function clauses
  cases wrapped : Contract.wrap workspace.host function clauses with
  | error failure =>
    rw [wrapped] at ran
    obtain ⟨failed, unchanged⟩ := Operation.of_run (.wrap id function clauses) rfl ran
    exact orderly.step_of_failed failed unchanged rfl
  | ok made =>
    rw [wrapped] at ran
    obtain ⟨succeeded, grown⟩ := Operation.of_run (.wrap id function clauses) rfl ran
    rw [append_nil, grown]
    refine ⟨.of_succeeded succeeded ?_, orderly.of_wrap id made⟩
    rw [grown, Operation.Registers, ← Contract.registry_of_wrap wrapped]
    exact ⟨homes_withAdded workspace id made,
      fun registry => registryOf_withAdded (orderly.fresh registry) id made⟩

theorem step_bindClass (id : Text) (type : Option HostType) (methods : List (Text × Option Text)) :
    RegistryStep workspace (.bindClass id type methods) ∧
      Orderly (Operation.after workspace (.bindClass id type methods))
        (bound ++ Operation.bound workspace (.bindClass id type methods)) := by
  obtain ⟨failure, ran⟩ | ⟨own, _, sources, _, sourced, ran⟩ :=
    bindClass_run_cases workspace id type methods
  · obtain ⟨failed, unchanged⟩ := Operation.of_run (.bindClass id type methods) rfl ran
    refine orderly.step_of_failed failed unchanged ?_
    rw [Operation.bound, failed]
    rfl
  · obtain ⟨succeeded, atEnd⟩ := Operation.of_run (.bindClass id type methods) rfl ran
    refine ⟨.of_succeeded succeeded ?_, ?_⟩
    · rw [atEnd]
      refine ⟨sources, sourced, homes_withClass .., fun registry => ?_⟩
      rw [registryOf_withClass, foldl_replaced_eq_settled (orderly.distinct registry)
        (orderly.freshCopies sourced registry)]
    · rw [atEnd, Operation.bound, succeeded]
      exact orderly.of_bindClass sourced id own

theorem step (operation : Operation) :
    RegistryStep workspace operation ∧
      Orderly (operation.after workspace) (bound ++ operation.bound workspace) := by
  cases operation with
  | redeclare id source clauses =>
    refine orderly.step_of_revises rfl ?_
    intro failure failed _
    obtain ⟨_, ran⟩ | ⟨_, _, _, _, _, ran⟩ := rewrap_run_cases workspace id source clauses
    · exact (Operation.of_run (.redeclare id source clauses) rfl ran).2
    · cases (Operation.of_run (.redeclare id source clauses) rfl ran).1.symm.trans failed
  | wrap id function clauses => exact orderly.step_wrap id function clauses
  | bindClass id type methods => exact orderly.step_bindClass id type methods
  | _ =>
    refine orderly.step_of_revises rfl ?_
    intro _ _ declares
    cases declares

theorem afterAll (operations : List Operation) :
    Orderly (workspace.afterAll operations) (bound ++ boundIn workspace operations) := by
  induction operations generalizing workspace bound with
  | nil =>
    rw [boundIn, append_nil]
    exact orderly
  | cons operation operations ih =>
    have next := ih (orderly.step operation).2
    rw [append_assoc] at next
    exact next

end Orderly

end

/-- After any operations each registry holds once every function that belongs to it and never became
a method of a class, copies included, and it holds no other function. A function that is put under
contract goes to the end of its registry. The first copy of a function takes its place, the others
go to the end, and all other functions keep their order. An operation that fails leaves everything
as it was. -/
theorem registries_hold_unbound_functions (host : Host) (operations : List Operation)
    (operation : Operation) :
    let workspace := (initial host).afterAll operations
    (∀ registry, (workspace.registryOf registry).Nodup ∧
      ∀ number, number ∈ workspace.registryOf registry ↔
        workspace.homes[number]? = some (some registry) ∧
          number ∉ boundIn (initial host) operations) ∧
    RegistryStep workspace operation := by
  intro workspace
  have orderly := (orderly_initial host).afterAll operations
  rw [List.nil_append] at orderly
  refine ⟨fun registry => ⟨orderly.distinct registry, orderly.members registry⟩, ?_⟩
  exact (orderly.step operation).1

end Workspace

end Covenant
