import Covenant.Proofs.Arguments
import Covenant.Proofs.Keys

/-!
# Defaults and their types

A parameter that a declaration of argument types leaves out takes only its default. The type that is
made of the default need not accept it: not-a-number and functions are not equal to themselves, and
a default that is itself a type stands for the values of that type.
-/

set_option autoImplicit false

namespace Covenant

open List

variable {world : World} {memory : Memory} {value default : Value} {parameters : Parameters}

/-- Whether the type made of a default accepts the default, as both are in the memory. -/
def Value.FitsItself (world : World) (memory : Memory) (value : Value) : Prop :=
  match value with
  | .nil => True
  | .predicate _ inner => (memory.viewPredicate inner).test world (memory.view value) = .ok ()
  | _ => (memory.view value).isNil = false ∧
      (memory.view value).contractEqual (memory.view value) = true

namespace Contract

theorem test_typeOf_iff :
    (memory.viewPredicate (typeOf value)).test world (memory.view value) = .ok () ↔
      value.FitsItself world memory := by
  have constant (only : Value) :
      memory.viewPredicate (.constant only) = .constant (memory.view only) := by
    unfold Memory.viewPredicate Memory.view
    split <;> rfl
  cases value with
  | nil =>
    unfold Memory.viewPredicate Memory.view
    split <;> exact iff_of_true rfl trivial
  | predicate object inner => exact Iff.rfl
  | _ =>
    rw [typeOf, constant, Predicate.test]
    · cases nil : (memory.view _).isNil <;>
        cases same : (memory.view _).contractEqual (memory.view _) <;>
        simp [Value.FitsItself, nil, same]
    all_goals nofun

theorem fitsItself_number {number : Float} (counted : value.asFloat? = some number) :
    value.FitsItself world memory ↔ number ≠ .nan := by
  have present : memory.view value = value := by
    unfold Memory.view
    cases value <;> cases counted <;> split <;> rfl
  have same : value.contractEqual value = true ↔ number ≠ .nan := by
    rw [Value.contractEqual, counted]
    simp
  rw [← same]
  cases value with
  | int | float =>
    change _ ∧ _ ↔ _
    rw [present]
    exact and_iff_right rfl
  | _ => cases counted

/-- Every call that leaves the parameter out gives it the default. -/
theorem lookup_of_unfilled {signature : Signature} {labels : Option (List Text)}
    {changes : List (Text × List ParameterOption)}
    (made : Parameters.declare signature labels changes = .ok parameters)
    {listId dictId : ObjectId} {arguments : List Value} {named bound : Bindings}
    (different : (named.map Prod.fst).Nodup)
    (succeeded : parameters.bind listId dictId arguments named = .ok bound) {parameter : Parameter}
    (missing : parameter ∈ parameters.unfilled arguments named) :
    bound.map Prod.fst = parameters.names ∧ bound.lookup parameter.name = parameter.default := by
  have placed := Parameters.placed_of_bind (Parameters.declare_eq_ok made).1
    (Parameters.single_of_declare made) different succeeded
  exact ⟨placed.names, placed.byDefault parameter missing⟩

/-- The type of a parameter that a declaration leaves out is made of its default. A call that leaves
it out as well is refused because of it exactly where the default does not fit itself: numbers fit
themselves unless they are not-a-number, and functions never do. -/
theorem omitted_default_accepted_iff {signature : Signature} {labels : Option (List Text)}
    {changes : List (Text × List ParameterOption)}
    (made : Parameters.declare signature labels changes = .ok parameters) {name : Text}
    {positional : List Given} {named : List (Text × Given)} {types : List (Text × Predicate)}
    (different : (named.map Prod.fst).Nodup)
    (declared : declareArguments name parameters positional named = .ok types)
    {parameter : Parameter} (later : parameter ∈ parameters.positional.drop positional.length)
    (unnamed : parameter.name ∉ named.map Prod.fst) (filled : parameter.default = some default) :
    types.lookup parameter.name = some (typeOf default) ∧
    (∀ contract world memory listId dictId arguments given bound,
      contract.argumentTypes = some types → (given.map Prod.fst).Nodup →
      parameters.bind listId dictId arguments given = .ok bound →
      parameter ∈ parameters.unfilled arguments given →
      ((∃ failure, ArgumentRefused world contract bound memory parameter.name failure) ↔
        ¬ default.FitsItself world memory)) ∧
    ∀ world memory,
      (default = .nil → default.FitsItself world memory) ∧
      (∀ number, default.asFloat? = some number →
        (default.FitsItself world memory ↔ number ≠ .nan)) ∧
      ∀ type ref, default = .function type ref → ¬ default.FitsItself world memory := by
  have apart := (Parameters.declare_eq_ok made).1
  obtain ⟨values, namedValues, bound, counted, sameNames, succeeded, names, typed⟩ :=
    bind_of_declareArguments declared
  have missing : parameter ∈ parameters.unfilled values namedValues := by
    rw [Parameters.mem_unfilled, counted, sameNames.mem_iff]
    exact ⟨later, unnamed⟩
  have member := Parameters.mem_positional.mp (mem_of_mem_drop later)
  have found : types.lookup parameter.name = some (typeOf default) := by
    have listed := typed parameter member.1 member.2
    rw [(lookup_of_unfilled made (sameNames.nodup_iff.mpr different) succeeded missing).2,
      filled] at listed
    exact Bindings.lookup_of_mem (names ▸ apart) listed
  refine ⟨found, ?_, fun world memory => ⟨?_, fun _ => fitsItself_number, ?_⟩⟩
  · intro contract world memory listId dictId arguments given bound typesKnown once binds omitted
    obtain ⟨boundNames, value⟩ := lookup_of_unfilled made once binds omitted
    rw [filled] at value
    rw [← test_typeOf_iff]
    constructor
    · rintro ⟨_, @⟨_, _, type, argument, cause, known, typeMember, argumentMember, refused⟩⟩
      cases typesKnown.symm.trans known
      cases (Bindings.lookup_of_mem (names ▸ apart) typeMember).symm.trans found
      cases (Bindings.lookup_of_mem (boundNames ▸ apart) argumentMember).symm.trans value
      rw [refused]
      exact nofun
    · intro refused
      cases tested : (memory.viewPredicate (typeOf default)).test world (memory.view default) with
      | ok => exact absurd tested refused
      | error cause =>
        exact ⟨_, .intro typesKnown (Bindings.mem_of_lookup found) (Bindings.mem_of_lookup value)
          tested⟩
  · rintro rfl
    trivial
  · rintro type ref rfl ⟨_, same⟩
    unfold Memory.view at same
    split at same <;> cases same

def scaled (scale : Value) : Parameters :=
  (Parameters.declare ⟨[.double, .double], false, [.double], false⟩ (some ["x", "scale"])
    [("scale", [.default scale])]).toOption.get rfl

theorem declareArguments_scaled (scale : Value) :
    declareArguments "f" (scaled scale) [.predicate .boolean] [] =
      .ok [("x", .boolean), ("scale", typeOf scale)] := by
  simp only [declareArguments, Parameters.bind, Bindings.sorted, mapM_nil, pure_bind, mergeSort_nil]
  rfl

theorem omitted_default_accepted_iff_scaled :
    ∃ types, declareArguments "f" (scaled (.ofWord 2)) [.predicate .boolean] [] = .ok types ∧
      types.lookup (Text.ofString "scale") = some (.constant (.ofWord 2)) ∧
      ∀ world memory, (Value.ofWord 2).FitsItself world memory := by
  have made : Parameters.declare ⟨[.double, .double], false, [.double], false⟩
      (some ["x", "scale"]) [("scale", [.default (.ofWord 2)])] = .ok (scaled (.ofWord 2)) := rfl
  obtain ⟨found, _, fits⟩ := @omitted_default_accepted_iff (.ofWord 2) _ _ _ _ made "f"
    [.predicate .boolean] [] _ nodup_nil (declareArguments_scaled _)
    ⟨"scale", .positional, some (.ofWord 2)⟩ (mem_singleton_self _) not_mem_nil rfl
  refine ⟨_, declareArguments_scaled _, found, fun world memory => ?_⟩
  exact ((fits world memory).2.1 _ rfl).mpr (by decide +kernel)

/-- A default that is not a number is not accepted by the type that is made of it. -/
theorem nan_default_refused :
    ∃ types, declareArguments "f" (scaled (.ofFloat .nan)) [.predicate .boolean] [] = .ok types ∧
      types.lookup (Text.ofString "scale") = some (.constant (.ofFloat .nan)) ∧
      ∀ world, (Predicate.constant (.ofFloat .nan)).test world (.ofFloat .nan) ≠ .ok () := by
  refine ⟨_, declareArguments_scaled _, rfl, fun world accepted => ?_⟩
  have fits := (@test_typeOf_iff world .empty (.ofFloat .nan)).mp accepted
  exact (fitsItself_number rfl).mp fits rfl

end Contract

end Covenant
