import Covenant.Proofs.Declaration
import Covenant.Proofs.Order
import Covenant.Proofs.Postcondition

/-!
# What the checks of a call decide

When each check of a call passes, and the failure that it gives otherwise, without regard to how the
check goes about it: arguments and digests fail at the least name, preconditions and conversions at
the first one that fails.
-/

set_option autoImplicit false

namespace Covenant.Contract

open List

open Stateful
open Condition (Evaluation)
open Condition.Evaluation

/-- A value is given under the name of each parameter, once. -/
def Complete (contract : Contract) (bound : Bindings) : Prop :=
  (bound.map Prod.fst).Perm contract.parameters.names

variable {world : World} {contract : Contract} {bound : Bindings} {returned : Value}
  {failure : Failure} {label : Text}

theorem Complete.different (shaped : contract.Shaped)
    (complete : contract.Complete bound) : (bound.map Prod.fst).Nodup :=
  complete.nodup_iff.mpr shaped.different

/-- Going through different names in sorted order fails at the least name that fails. -/
theorem forM_sorted_run_eq_error_iff {step : Text × Value → Evaluation Unit}
    (leaves : ∀ entry, LeavesMemory (step entry)) (different : (bound.map Prod.fst).Nodup)
    {memory final : Memory} :
    (bound.sorted.forM step).run memory = (.error failure, final) ↔
      final = memory ∧ ∃ entry ∈ bound, (step entry).run memory = (.error failure, memory) ∧
        ∀ other ∈ bound, ∀ otherFailure,
          (step other).run memory = (.error otherFailure, memory) →
          Text.le entry.1 other.1 = true := by
  rw [forM_run_eq_error_iff_of_leavesMemory (fun entry _ => leaves entry)]
  refine and_congr_right fun _ => ?_
  constructor
  · rintro ⟨done, entry, rest, split, passed, failed⟩
    obtain ⟨member, _, least⟩ := (Bindings.first_in_sorted_iff different
      (fun other => ¬ (step other).run memory = (.ok (), memory))).mp
      ⟨done, rest, split, fun other before refused => refused (passed other before),
        (leaves entry).not_ok_iff.mpr ⟨failure, failed⟩⟩
    exact ⟨entry, member, failed, fun other otherMember otherFailure otherFailed =>
      least other otherMember ((leaves other).not_ok_iff.mpr ⟨otherFailure, otherFailed⟩)⟩
  · rintro ⟨entry, member, failed, least⟩
    obtain ⟨done, rest, split, passed, _⟩ := (Bindings.first_in_sorted_iff different
      (fun other => ¬ (step other).run memory = (.ok (), memory))).mpr
      ⟨member, (leaves entry).not_ok_iff.mpr ⟨failure, failed⟩,
        fun other otherMember refused => by
          obtain ⟨otherFailure, otherFailed⟩ := (leaves other).not_ok_iff.mp refused
          exact least other otherMember otherFailure otherFailed⟩
    exact ⟨done, entry, rest, split, fun other before => not_not.mp (passed other before), failed⟩

/-!
## Argument types
-/

section

variable (world contract bound) (memory : Memory)

def ArgumentsAccepted : Prop :=
  ∀ types, contract.argumentTypes = some types →
    ∀ label type value, (label, type) ∈ types → (label, value) ∈ bound →
      (memory.viewPredicate type).test world (memory.view value) = .ok ()

/-- The declared type under a name does not accept the value, which is the failure of an
argument of that name. -/
inductive ArgumentRefused : Text → Failure → Prop where
  | intro {types : List (Text × Predicate)} {label : Text} {type : Predicate} {value : Value}
      {cause : Failure} :
      contract.argumentTypes = some types → (label, type) ∈ types → (label, value) ∈ bound →
      (memory.viewPredicate type).test world (memory.view value) = .error cause →
      ArgumentRefused label
        (explain (fun cause => .argumentType contract.name label (memory.view value)
            (memory.viewPredicate type).declaration (some cause))
          (contract.name ++ ": argument " ++ label) cause)

/-- The failure of the alphabetically first argument that is refused. -/
def ArgumentsFail (failure : Failure) : Prop :=
  ∃ label, ArgumentRefused world contract bound memory label failure ∧
    ∀ other otherFailure, ArgumentRefused world contract bound memory other otherFailure →
      Text.le label other = true

end

theorem checkArgument_run (name label : Text) (type : Predicate) (value : Value)
    (memory : Memory) :
    (checkArgument world name label type value).run memory =
      (((memory.viewPredicate type).test world (memory.view value)).mapError (explain
        (fun cause => .argumentType name label (memory.view value)
          (memory.viewPredicate type).declaration (some cause))
        (name ++ ": argument " ++ label)), memory) := rfl

theorem checkEntry_leavesMemory (types : List (Text × Predicate)) (entry : Text × Value) :
    LeavesMemory (checkEntry world contract types entry) := by
  obtain ⟨label, value⟩ := entry
  simp only [checkEntry]
  cases types.lookup label with
  | none => exact .throw _
  | some type => exact fun _ => rfl

theorem checkAccepts_leavesMemory : LeavesMemory (checkAccepts world contract bound) := by
  unfold checkAccepts
  split
  · exact .pure ()
  · next types _ =>
    split
    · exact .forM fun entry _ => checkEntry_leavesMemory types entry
    · exact .throw _

variable {type : Predicate} {types : List (Text × Predicate)}

theorem checkEntry_eq (declared : types.lookup label = some type) (value : Value) :
    checkEntry world contract types (label, value) =
      checkArgument world contract.name label type value := by
  simp only [checkEntry, declared]

theorem checkEntry_run_eq_ok_iff (declared : types.lookup label = some type) (value : Value)
    (memory : Memory) :
    (checkEntry world contract types (label, value)).run memory = (.ok (), memory) ↔
      (memory.viewPredicate type).test world (memory.view value) = .ok () := by
  rw [checkEntry_eq declared, checkArgument_run, settled_eq_iff, mapError_eq_ok_iff]
  exact and_iff_right rfl

section

variable {memory final : Memory} (shaped : contract.Shaped) (complete : contract.Complete bound)

include shaped complete

theorem typesCover_of_complete (declared : contract.argumentTypes = some types) :
    typesCover types bound = true ∧ (types.map Prod.fst).Nodup ∧
      ∀ label value, (label, value) ∈ bound →
        ∃ type, (label, type) ∈ types ∧ types.lookup label = some type := by
  have sameNames := shaped.covered types declared
  have different : (types.map Prod.fst).Nodup := sameNames ▸ shaped.different
  have each (label : Text) (value : Value) (member : (label, value) ∈ bound) :
      ∃ type, (label, type) ∈ types ∧ types.lookup label = some type := by
    have named : label ∈ types.map Prod.fst := by
      rw [sameNames, ← complete.mem_iff]
      exact mem_map.mpr ⟨_, member, rfl⟩
    obtain ⟨⟨_, type⟩, known, rfl⟩ := mem_map.mp named
    exact ⟨type, known, Bindings.lookup_of_mem different known⟩
  refine ⟨?_, different, each⟩
  have sameLength : types.length = bound.length := by
    have lengths := complete.length_eq
    rw [← sameNames, length_map, length_map] at lengths
    exact lengths.symm
  simp only [typesCover, sameLength, beq_self_eq_true, Bool.true_and, all_eq_true]
  intro ⟨label, value⟩ member
  obtain ⟨type, _, found⟩ := each label value member
  simp [found]

theorem argumentRefused_iff (declared : contract.argumentTypes = some types) :
    ArgumentRefused world contract bound memory label failure ↔
      ∃ value, (label, value) ∈ bound ∧
        (checkEntry world contract types (label, value)).run memory =
          (.error failure, memory) := by
  obtain ⟨_, different, each⟩ := typesCover_of_complete shaped complete declared
  constructor
  · rintro @⟨otherTypes, _, type, value, cause, known, typeMember, valueMember, refused⟩
    rw [declared] at known
    cases known
    refine ⟨value, valueMember, ?_⟩
    rw [checkEntry_eq (Bindings.lookup_of_mem different typeMember), checkArgument_run, refused]
    rfl
  · rintro ⟨value, member, refused⟩
    obtain ⟨type, typeMember, found⟩ := each label value member
    rw [checkEntry_eq found, checkArgument_run, settled_eq_iff, mapError_eq_error_iff] at refused
    obtain ⟨_, cause, tested, rfl⟩ := refused
    exact .intro declared typeMember member tested

theorem checkAccepts_run_eq_ok_iff :
    (checkAccepts world contract bound).run memory = (.ok (), final) ↔
      final = memory ∧ ArgumentsAccepted world contract bound memory := by
  cases declared : contract.argumentTypes with
  | none =>
    simp only [checkAccepts, declared]
    exact settled_eq_iff.trans (by simp [ArgumentsAccepted, declared])
  | some types =>
    obtain ⟨covers, different, each⟩ := typesCover_of_complete shaped complete declared
    simp only [checkAccepts, declared, covers, ↓reduceIte]
    rw [forM_run_eq_ok_iff,
      allSucceed_iff_of_leavesMemory (fun entry _ => checkEntry_leavesMemory types entry)]
    refine and_congr_right fun _ => ?_
    constructor
    · intro passed otherTypes known label type value typeMember valueMember
      rw [declared] at known
      cases known
      exact (checkEntry_run_eq_ok_iff (Bindings.lookup_of_mem different typeMember) value
        memory).mp (passed (label, value) (Bindings.mem_sorted.mpr valueMember))
    · rintro accepted ⟨label, value⟩ member
      have valueMember := Bindings.mem_sorted.mp member
      obtain ⟨type, typeMember, found⟩ := each label value valueMember
      exact (checkEntry_run_eq_ok_iff found value memory).mpr
        (accepted types declared label type value typeMember valueMember)

theorem checkAccepts_run_eq_error_iff :
    (checkAccepts world contract bound).run memory = (.error failure, final) ↔
      final = memory ∧ ArgumentsFail world contract bound memory failure := by
  cases declared : contract.argumentTypes with
  | none =>
    constructor
    · intro failed
      simp only [checkAccepts, declared] at failed
      cases failed
    · rintro ⟨_, label, ⟨known, _⟩, _⟩
      rw [declared] at known
      cases known
  | some types =>
    obtain ⟨covers, _, _⟩ := typesCover_of_complete shaped complete declared
    simp only [checkAccepts, declared, covers, ↓reduceIte]
    rw [forM_sorted_run_eq_error_iff (checkEntry_leavesMemory types)
      (complete.different shaped)]
    refine and_congr_right fun _ => ?_
    constructor
    · rintro ⟨⟨label, value⟩, member, refused, least⟩
      refine ⟨label, (argumentRefused_iff shaped complete declared).mpr
        ⟨value, member, refused⟩, fun other otherFailure otherRefused => ?_⟩
      obtain ⟨otherValue, otherMember, otherFailed⟩ :=
        (argumentRefused_iff shaped complete declared).mp otherRefused
      exact least (other, otherValue) otherMember otherFailure otherFailed
    · rintro ⟨label, labelRefused, least⟩
      obtain ⟨value, member, refused⟩ :=
        (argumentRefused_iff shaped complete declared).mp labelRefused
      refine ⟨(label, value), member, refused, ?_⟩
      rintro ⟨other, otherValue⟩ otherMember otherFailure otherFailed
      exact least other otherFailure ((argumentRefused_iff shaped complete declared).mpr
        ⟨otherValue, otherMember, otherFailed⟩)

end

/-!
## Preconditions
-/

/-- Clauses are truthy one after the other, each in the memory that the one before it leaves. -/
inductive Satisfied (world : World) (scope : Condition.Scope) :
    List Condition → Memory → Memory → Prop where
  | nil {memory} : Satisfied world scope [] memory memory
  | cons {clause clauses memory middle final} :
      (clause.holds world scope).run memory = (.ok true, middle) →
      Satisfied world scope clauses middle final →
      Satisfied world scope (clause :: clauses) memory final

/-- A clause that is false or cannot be evaluated is a failed precondition; one that never ends
keeps the call from ending. -/
def entryFailure? (contract : Contract) (bound : Bindings) (clause : Condition)
    (memory : Memory) : Except Failure Bool → Option Failure
  | .ok true => none
  | .ok false => some (.entryConditions contract.name clause.source
      (bound.map (fun (name, value) => (name, memory.view value))) none)
  | .error .unending => some .unending
  | .error cause => some (.entryConditions contract.name clause.source
      (bound.map (fun (name, value) => (name, memory.view value))) (some cause))

def RequirementFails (world : World) (contract : Contract) (scope : Condition.Scope)
    (bound : Bindings) (memory : Memory) (failure : Failure) : Prop :=
  ∃ done clause rest middle outcome final,
    contract.requires = done ++ clause :: rest ∧ Satisfied world scope done memory middle ∧
      (clause.holds world scope).run middle = (outcome, final) ∧
      contract.entryFailure? bound clause final outcome = some failure

variable {scope : Condition.Scope} {clause : Condition} {memory final : Memory}

theorem checkRequired_run (clause : Condition) (memory : Memory) :
    (checkRequired world contract scope bound clause).run memory =
      let ended := (clause.holds world scope).run memory
      ((contract.entryFailure? bound clause ended.2 ended.1).elim (.ok ()) .error, ended.2) := by
  unfold checkRequired
  rw [run_bind, run_tryCatch, run_map]
  rcases (clause.holds world scope).run memory with ⟨failure | truth, final⟩
  · cases failure <;> rfl
  · cases truth <;> rfl

theorem entryFailure?_eq_none_iff {outcome : Except Failure Bool} :
    contract.entryFailure? bound clause memory outcome = none ↔ outcome = .ok true := by
  rcases outcome with failure | truth
  · cases failure <;> simp [entryFailure?]
  · cases truth <;> simp [entryFailure?]

theorem checkRequired_run_eq_ok_iff :
    (checkRequired world contract scope bound clause).run memory = (.ok (), final) ↔
      (clause.holds world scope).run memory = (.ok true, final) := by
  rw [checkRequired_run, Prod.ext_iff, Prod.ext_iff]
  exact and_congr_left' (elim_eq_ok_iff.trans entryFailure?_eq_none_iff)

theorem checkRequired_run_eq_error_iff :
    (checkRequired world contract scope bound clause).run memory = (.error failure, final) ↔
      ∃ outcome, (clause.holds world scope).run memory = (outcome, final) ∧
        contract.entryFailure? bound clause final outcome = some failure := by
  rw [checkRequired_run, Prod.ext_iff]
  constructor
  · rintro ⟨failed, rfl⟩
    obtain ⟨_, refused, rfl⟩ := elim_eq_error_iff.mp failed
    exact ⟨_, rfl, refused⟩
  · rintro ⟨outcome, ran, refused⟩
    rw [ran]
    exact ⟨elim_eq_error_iff.mpr ⟨_, refused, rfl⟩, rfl⟩

theorem allSucceed_checkRequired_iff {clauses : List Condition} :
    AllSucceed (checkRequired world contract scope bound) clauses memory final ↔
      Satisfied world scope clauses memory final := by
  constructor
  · intro succeeded
    induction succeeded with
    | nil => exact .nil
    | cons ran _ ih => exact .cons (checkRequired_run_eq_ok_iff.mp ran) ih
  · intro satisfied
    induction satisfied with
    | nil => exact .nil
    | cons truthy _ ih => exact .cons (checkRequired_run_eq_ok_iff.mpr truthy) ih

theorem checkRequires_run_eq_ok_iff :
    (checkRequires world contract scope bound).run memory = (.ok (), final) ↔
      Satisfied world (scope.push bound) contract.requires memory final := by
  rw [checkRequires, forM_run_eq_ok_iff, allSucceed_checkRequired_iff]

theorem checkRequires_run_eq_error_iff :
    (∃ final, (checkRequires world contract scope bound).run memory = (.error failure, final)) ↔
      RequirementFails world contract (scope.push bound) bound memory failure := by
  simp only [checkRequires, forM_run_eq_error_iff, allSucceed_checkRequired_iff,
    checkRequired_run_eq_error_iff, RequirementFails]
  constructor
  · rintro ⟨final, done, clause, rest, middle, split, satisfied, outcome, ran, refused⟩
    exact ⟨done, clause, rest, middle, outcome, final, split, satisfied, ran, refused⟩
  · rintro ⟨done, clause, rest, middle, outcome, final, split, satisfied, ran, refused⟩
    exact ⟨final, done, clause, rest, middle, split, satisfied, outcome, ran, refused⟩

/-!
## Conversion
-/

section

variable (world contract bound memory)

def ConvertsTo (place : Parameter × HostType) (argument : Value) : Prop :=
  ∃ value converted, (place.1.name, value) ∈ bound ∧
    (memory.view value).convert world.host place.2 = .ok converted ∧
    argument = converted.retype place.2

/-- Every value converts to its parameter's type, which gives the arguments of the function. -/
def Converts (arguments : List Value) : Prop :=
  List.Forall₂ (ConvertsTo world bound memory)
    (contract.parameters.zip contract.signature.parameters) arguments

def conversionFailure (contract : Contract) (place : Parameter × HostType) (present : Value) :
    Failure → Failure
  | .crash reason => .crash reason
  | cause =>
    .argumentType contract.name place.1.name present place.2.label (some cause)

def ConversionFails (failure : Failure) : Prop :=
  ∃ done place rest value cause,
    contract.parameters.zip contract.signature.parameters = done ++ place :: rest ∧
      (∀ other ∈ done, ∃ argument, ConvertsTo world bound memory other argument) ∧
      (place.1.name, value) ∈ bound ∧
      (memory.view value).convert world.host place.2 = .error cause ∧
      failure = conversionFailure contract place (memory.view value) cause

end

theorem convertArgument_run (place : Parameter × HostType) (memory : Memory) :
    (convertArgument world contract bound place).run memory =
      let present := memory.view ((bound.lookup place.1.name).getD .nil)
      (((·.retype place.2) <$> present.convert world.host place.2).mapError
        (conversionFailure contract place present), memory) := by
  simp only [convertArgument]
  rw [run_bind_of_ok (run_get memory)]
  rcases (memory.view ((bound.lookup place.1.name).getD .nil)).convert world.host place.2 with
    cause | converted
  · cases cause <;> rfl
  · rfl

theorem convertArgument_leavesMemory (place : Parameter × HostType) :
    LeavesMemory (convertArgument world contract bound place) :=
  fun memory => by rw [convertArgument_run]

variable {place : Parameter × HostType} {value : Value}

theorem exists_mem_of_place (complete : contract.Complete bound)
    (member : place ∈ contract.parameters.zip contract.signature.parameters) :
    ∃ value, (place.1.name, value) ∈ bound := by
  have named : place.1.name ∈ bound.map Prod.fst := by
    rw [complete.mem_iff]
    exact mem_map.mpr ⟨place.1, (of_mem_zip member).1, rfl⟩
  obtain ⟨⟨_, value⟩, known, same⟩ := mem_map.mp named
  exact ⟨value, same ▸ known⟩

theorem convertArgument_run_eq_ok_iff (different : (bound.map Prod.fst).Nodup)
    (member : (place.1.name, value) ∈ bound) {argument : Value} :
    (convertArgument world contract bound place).run memory = (.ok argument, memory) ↔
      ConvertsTo world bound memory place argument := by
  have found := Bindings.lookup_of_mem different member
  rw [convertArgument_run, settled_eq_iff, mapError_eq_ok_iff, map_eq_ok_iff, found]
  constructor
  · rintro ⟨_, result, converted, same⟩
    exact ⟨value, result, member, converted, same.symm⟩
  · rintro ⟨other, result, otherMember, converted, same⟩
    cases found.symm.trans (Bindings.lookup_of_mem different otherMember)
    exact ⟨rfl, result, converted, same.symm⟩

theorem convertArgument_run_eq_error_iff (different : (bound.map Prod.fst).Nodup)
    (member : (place.1.name, value) ∈ bound) :
    (convertArgument world contract bound place).run memory = (.error failure, memory) ↔
      ∃ cause, (memory.view value).convert world.host place.2 = .error cause ∧
        failure = conversionFailure contract place (memory.view value) cause := by
  rw [convertArgument_run, settled_eq_iff, mapError_eq_error_iff,
    Bindings.lookup_of_mem different member]
  simp only [map_eq_error_iff, Option.getD_some, true_and, eq_comm (a := failure)]

theorem convertBound_run_eq_ok_iff (shaped : contract.Shaped) (complete : contract.Complete bound)
    {arguments : List Value} :
    (convertBound world contract bound).run memory = (.ok arguments, final) ↔
      final = memory ∧ Converts world contract bound memory arguments := by
  rw [convertBound, mapM_run_eq_ok_iff_of_leavesMemory convertArgument_leavesMemory]
  refine and_congr_right fun _ => ?_
  have each (place : Parameter × HostType) (argument : Value)
      (member : place ∈ contract.parameters.zip contract.signature.parameters) :
      (convertArgument world contract bound place).run memory = (.ok argument, memory) ↔
        ConvertsTo world bound memory place argument := by
    obtain ⟨value, known⟩ := exists_mem_of_place complete member
    exact convertArgument_run_eq_ok_iff (complete.different shaped) known
  rw [Converts, forall₂_iff_zip, forall₂_iff_zip]
  refine and_congr_right fun _ => ?_
  constructor
  · intro passed place argument paired
    exact (each place argument (of_mem_zip paired).1).mp (passed paired)
  · intro converted place argument paired
    exact (each place argument (of_mem_zip paired).1).mpr (converted paired)

theorem convertBound_run_eq_error_iff (shaped : contract.Shaped)
    (complete : contract.Complete bound) :
    (convertBound world contract bound).run memory = (.error failure, final) ↔
      final = memory ∧ ConversionFails world contract bound memory failure := by
  rw [convertBound, mapM_run_eq_error_iff_of_leavesMemory convertArgument_leavesMemory]
  refine and_congr_right fun _ => ?_
  have different := complete.different shaped
  constructor
  · rintro ⟨done, place, rest, split, passed, failed⟩
    have inside : ∀ other ∈ done ++ place :: rest, ∃ value, (other.1.name, value) ∈ bound :=
      fun other member => exists_mem_of_place complete (split ▸ member)
    obtain ⟨value, member⟩ := inside place (by simp)
    obtain ⟨cause, refused, rfl⟩ := (convertArgument_run_eq_error_iff different member).mp failed
    refine ⟨done, place, rest, value, cause, split, fun other before => ?_, member, refused, rfl⟩
    obtain ⟨otherValue, otherMember⟩ := inside other (mem_append_left _ before)
    obtain ⟨argument, converted⟩ := passed other before
    exact ⟨argument, (convertArgument_run_eq_ok_iff different otherMember).mp converted⟩
  · rintro ⟨done, place, rest, value, cause, split, passed, member, refused, rfl⟩
    refine ⟨done, place, rest, split, fun other before => ?_,
      (convertArgument_run_eq_error_iff different member).mpr ⟨cause, refused, rfl⟩⟩
    obtain ⟨argument, otherValue, converted, otherMember, succeeded, same⟩ := passed other before
    exact ⟨argument, (convertArgument_run_eq_ok_iff different otherMember).mpr
      ⟨otherValue, converted, otherMember, succeeded, same⟩⟩

/-!
## Unchanged arguments
-/

section

variable (world contract bound)

/-- The argument of a name must stay unchanged, and its digest after the function is not the one
before. -/
def Modified (before after : Memory) (label : Text) : Prop :=
  contract.immutable = true ∧ label ∉ contract.mutableNames ∧
    ∃ value digest, (label, value) ∈ bound ∧ world.host.digest? (before.view value) = some digest ∧
      world.host.digest? (after.view value) ≠ some digest

/-- The failure of the alphabetically first argument that was modified though it must not be. -/
def ImmutabilityFails (before after : Memory) (failure : Failure) : Prop :=
  ∃ label, failure = .objectModified contract.name label ∧
    Modified world contract bound before after label ∧
    ∀ other, Modified world contract bound before after other → Text.le label other = true

end

variable {after before : Memory}

theorem mem_digestsOf_iff {digest : UInt64} :
    (label, digest) ∈ digestsOf world contract bound memory ↔
      contract.immutable = true ∧ label ∉ contract.mutableNames ∧
        ∃ value, (label, value) ∈ bound ∧
          world.host.digest? (memory.view value) = some digest := by
  cases immutable : contract.immutable with
  | false => simp [digestsOf, immutable]
  | true =>
    simp only [digestsOf, immutable, ↓reduceIte, mem_filterMap, true_and]
    constructor
    · rintro ⟨⟨name, value⟩, member, taken⟩
      dsimp only at taken
      split at taken
      · cases taken
      · next required =>
        obtain ⟨found, digested, same⟩ := Option.map_eq_some_iff.mp taken
        cases same
        exact ⟨required, value, member, digested⟩
    · rintro ⟨required, value, member, digested⟩
      exact ⟨(label, value), member, by simp [required, digested]⟩

theorem digestsOf_names_sublist (memory : Memory) :
    ((digestsOf world contract bound memory).map Prod.fst).Sublist (bound.map Prod.fst) := by
  unfold digestsOf
  split
  · induction bound with
    | nil => exact .slnil
    | cons entry bound ih =>
      obtain ⟨label, value⟩ := entry
      rw [filterMap_cons]
      split
      · exact ih.cons label
      · next taken =>
        dsimp only at taken
        split at taken
        · cases taken
        · obtain ⟨digest, _, rfl⟩ := Option.map_eq_some_iff.mp taken
          exact ih.cons_cons label
  · exact nil_sublist _

theorem differs_iff (different : (bound.map Prod.fst).Nodup)
    (member : (label, value) ∈ bound) :
    differs world (digestsOf world contract bound before) after (label, value) = true ↔
      Modified world contract bound before after label := by
  have digestsDifferent : ((digestsOf world contract bound before).map Prod.fst).Nodup :=
    (digestsOf_names_sublist before).nodup different
  simp only [differs]
  cases taken : (digestsOf world contract bound before).lookup label with
  | none =>
    constructor
    · intro differing
      cases differing
    · rintro ⟨immutable, required, other, digest, otherMember, digested, _⟩
      have known := mem_digestsOf_iff.mpr
        ⟨immutable, required, other, otherMember, digested⟩
      rw [Bindings.lookup_of_mem digestsDifferent known] at taken
      cases taken
  | some digest =>
    obtain ⟨immutable, required, other, otherMember, digested⟩ :=
      mem_digestsOf_iff.mp (Bindings.mem_of_lookup taken)
    have same := Bindings.lookup_of_mem different otherMember
    rw [Bindings.lookup_of_mem different member] at same
    cases same
    constructor
    · intro differing
      exact ⟨immutable, required, value, digest, member, digested, bne_iff_ne.mp differing⟩
    · rintro ⟨_, _, again, first, againMember, againDigested, disagrees⟩
      have sameValue := Bindings.lookup_of_mem different againMember
      rw [Bindings.lookup_of_mem different member] at sameValue
      cases sameValue
      rw [digested] at againDigested
      cases againDigested
      exact bne_iff_ne.mpr disagrees

theorem checkDigests_run (before : List (Text × UInt64)) (memory : Memory) :
    (checkDigests world contract bound before).run memory =
      ((bound.sorted.find? (differs world before memory)).elim (.ok ())
        (fun entry => .error (.objectModified contract.name entry.1)), memory) := by
  unfold checkDigests
  rw [run_bind_of_ok (run_get memory)]
  cases bound.sorted.find? (differs world before memory) <;> rfl

theorem checkDigests_run_eq_ok_iff (different : (bound.map Prod.fst).Nodup) :
    (checkDigests world contract bound (digestsOf world contract bound before)).run after =
        (.ok (), final) ↔
      final = after ∧ ∀ label, ¬ Modified world contract bound before after label := by
  rw [checkDigests_run, settled_eq_iff, elim_eq_ok_iff, List.find?_eq_none]
  refine and_congr_right fun _ => ?_
  constructor
  · intro passed label modified
    have ⟨_, _, value, _, member, _⟩ := modified
    exact passed (label, value) (Bindings.mem_sorted.mpr member)
      ((differs_iff different member).mpr modified)
  · rintro unmodified ⟨label, value⟩ member differing
    exact unmodified label ((differs_iff different (Bindings.mem_sorted.mp member)).mp differing)

theorem checkDigests_run_eq_error_iff (different : (bound.map Prod.fst).Nodup) :
    (checkDigests world contract bound (digestsOf world contract bound before)).run after =
        (.error failure, final) ↔
      final = after ∧ ImmutabilityFails world contract bound before after failure := by
  rw [checkDigests_run, settled_eq_iff, elim_eq_error_iff]
  refine and_congr_right fun _ => ?_
  constructor
  · rintro ⟨entry, stopped, rfl⟩
    obtain ⟨member, differing, least⟩ := (Bindings.find?_sorted_eq_some_iff different).mp stopped
    refine ⟨entry.1, rfl, (differs_iff different member).mp differing, ?_⟩
    intro other modified
    have ⟨_, _, value, _, otherMember, _⟩ := modified
    exact least (other, value) otherMember ((differs_iff different otherMember).mpr modified)
  · rintro ⟨label, rfl, modified, least⟩
    have ⟨_, _, value, _, member, _⟩ := modified
    refine ⟨(label, value), (Bindings.find?_sorted_eq_some_iff different).mpr
      ⟨member, (differs_iff different member).mpr modified, ?_⟩, rfl⟩
    rintro ⟨other, otherValue⟩ otherMember differing
    exact least other ((differs_iff different otherMember).mp differing)

/-!
## Return type
-/

section

variable (world contract returned memory)

def ReturnAccepted : Prop :=
  ∀ type, contract.returnType = some type →
    (memory.viewPredicate type).test world (memory.view returned) = .ok ()

def ReturnFails (failure : Failure) : Prop :=
  ∃ type cause, contract.returnType = some type ∧
    (memory.viewPredicate type).test world (memory.view returned) = .error cause ∧
    failure = explain (fun cause => .returnType contract.name (memory.view returned)
        (memory.viewPredicate type).declaration (some cause))
      (contract.name ++ ": return value") cause

end

theorem checkReturns_run_of_some (declared : contract.returnType = some type)
    (memory : Memory) :
    (checkReturns world contract returned).run memory =
      (((memory.viewPredicate type).test world (memory.view returned)).mapError (explain
        (fun cause => .returnType contract.name (memory.view returned)
          (memory.viewPredicate type).declaration (some cause))
        (contract.name ++ ": return value")), memory) := by
  simp only [checkReturns, declared]
  rfl

theorem checkReturns_run_of_none (undeclared : contract.returnType = none) (memory : Memory) :
    (checkReturns world contract returned).run memory = (.ok (), memory) := by
  simp only [checkReturns, undeclared]
  rfl

theorem checkReturns_run_eq_ok_iff :
    (checkReturns world contract returned).run memory = (.ok (), final) ↔
      final = memory ∧ ReturnAccepted world contract returned memory := by
  cases declared : contract.returnType with
  | none =>
    rw [checkReturns_run_of_none declared]
    exact settled_eq_iff.trans (by simp [ReturnAccepted, declared])
  | some type =>
    rw [checkReturns_run_of_some declared, settled_eq_iff, mapError_eq_ok_iff]
    simp [ReturnAccepted, declared]

theorem checkReturns_run_eq_error_iff :
    (checkReturns world contract returned).run memory = (.error failure, final) ↔
      final = memory ∧ ReturnFails world contract returned memory failure := by
  cases declared : contract.returnType with
  | none =>
    rw [checkReturns_run_of_none declared]
    exact settled_eq_iff.trans (by simp [ReturnFails, declared])
  | some type =>
    rw [checkReturns_run_of_some declared, settled_eq_iff, mapError_eq_error_iff]
    simp [ReturnFails, declared, eq_comm (a := failure)]

end Covenant.Contract
