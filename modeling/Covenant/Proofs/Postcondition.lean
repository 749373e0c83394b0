import Covenant.Proofs.Evaluation
import Mathlib.Data.List.DropRight

/-!
# What accepted postconditions say

A call whose postconditions hold has seen every clause truthy in every arrangement of the clause's
depth, and these are exactly the placements of the current call and different remembered calls into
the roles.
-/

set_option autoImplicit false

namespace Covenant

variable {world : World} {scope : Condition.Scope}

def Condition.Truthy (world : World) (scope : Condition.Scope) (clause : Condition)
    (memory : Memory) (names : Bindings) : Prop :=
  (clause.holds world (scope.push names)).run memory = (.ok true, memory)

def Record.marked (suffix : Text) (call : Record) : Bindings :=
  call.map (fun (name, value) => (name ++ suffix, value))

def Record.backticked : Record → Bindings := Record.marked Condition.backtickSuffix

def Record.doubleBackticked : Record → Bindings := Record.marked Condition.doubleBacktickSuffix

namespace Contract

open Stateful
open Condition (Evaluation)
open Condition.Evaluation

@[simp] theorem bindings_pair (plain other : Record) (current : Nat) :
    (Arrangement.mk [plain, other] current).bindings = Record.backticked other ++ plain := by
  simp [Arrangement.bindings, roleSuffixes, Record.backticked, Record.marked]

@[simp] theorem bindings_triple (plain other third : Record) (current : Nat) :
    (Arrangement.mk [plain, other, third] current).bindings =
      Record.doubleBackticked third ++ (Record.backticked other ++ plain) := by
  simp [Arrangement.bindings, roleSuffixes, Record.backticked, Record.doubleBackticked,
    Record.marked]

/-!
## One arrangement
-/

theorem ensureArrangement_run_eq_ok_iff {name : Text} {clause : Condition}
    {arrangement : Arrangement} {memory final : Memory} :
    (ensureArrangement world name scope clause arrangement).run memory = (.ok (), final) ↔
      (clause.holds world (scope.push arrangement.bindings)).run memory = (.ok true, final) := by
  unfold ensureArrangement
  rw [run_bind_eq_ok_iff]
  constructor
  · rintro ⟨truth, middle, evaluated, passed⟩
    cases truth with
    | true =>
      cases passed
      exact evaluated
    | false =>
      -- The failing branch only looks values up before it throws.
      obtain ⟨_, _, _, passed⟩ := run_bind_eq_ok_iff.mp passed
      obtain ⟨_, _, _, thrown⟩ := run_bind_eq_ok_iff.mp passed
      cases thrown
  · intro evaluated
    exact ⟨true, final, evaluated, rfl⟩

theorem lookBindings_leavesMemory (bindings : Bindings) :
    LeavesMemory (lookBindings bindings) :=
  .bind .get (fun _ => .pure _)

theorem ensureArrangement_leavesMemory {name : Text} {clause : Condition}
    (arrangement : Arrangement) (free : clause.SideEffectFree world) :
    LeavesMemory (ensureArrangement world name scope clause arrangement) := by
  refine .bind (free _) (fun truth => ?_)
  cases truth with
  | true => exact .pure ()
  | false =>
    refine .bind (lookBindings_leavesMemory _) (fun _ => .bind ?_ (fun _ => .throw _))
    exact .mapM (fun call _ => lookBindings_leavesMemory _)

/-!
## All arrangements
-/

theorem mem_orderedPairs_iff {α : Type} {elements : List α} {left right : α} :
    (left, right) ∈ orderedPairs elements ↔
      ∃ i j : Nat, i ≠ j ∧ elements[i]? = some left ∧ elements[j]? = some right := by
  simp only [orderedPairs, List.mem_flatMap, List.mem_filterMap]
  constructor
  · rintro ⟨⟨first, i⟩, firstMember, ⟨second, j⟩, secondMember, chosen⟩
    have firstAt := List.mk_mem_zipIdx_iff_getElem?.mp firstMember
    have secondAt := List.mk_mem_zipIdx_iff_getElem?.mp secondMember
    by_cases same : i = j
    · simp [same] at chosen
    · simp only [same, ↓reduceIte, Option.some.injEq, Prod.mk.injEq] at chosen
      obtain ⟨rfl, rfl⟩ := chosen
      exact ⟨i, j, same, firstAt, secondAt⟩
  · rintro ⟨i, j, different, leftAt, rightAt⟩
    refine ⟨(left, i), List.mk_mem_zipIdx_iff_getElem?.mpr leftAt, (right, j),
      List.mk_mem_zipIdx_iff_getElem?.mpr rightAt, ?_⟩
    simp [different]

theorem checkEnsures_run_eq_ok_iff {contract : Contract} {current : Record} {memory final : Memory}
    (free : ∀ clause ∈ contract.ensures, clause.SideEffectFree world) :
    (checkEnsures world contract scope current).run memory = (.ok (), final) ↔
      final = memory ∧ ∀ clause ∈ contract.ensures,
        ∀ arrangement ∈ arrangements clause.depth current contract.remembered,
          clause.Truthy world scope memory arrangement.bindings := by
  have each (clause : Condition) (member : clause ∈ contract.ensures) (middle last : Memory) :
      ((arrangements clause.depth current contract.remembered).forM
          (ensureArrangement world contract.name scope clause)).run middle = (.ok (), last) ↔
        last = middle ∧ ∀ arrangement ∈ arrangements clause.depth current contract.remembered,
          clause.Truthy world scope middle arrangement.bindings := by
    rw [forM_run_eq_ok_iff, allSucceed_iff_of_leavesMemory
      (fun arrangement _ => ensureArrangement_leavesMemory arrangement (free clause member))]
    simp only [ensureArrangement_run_eq_ok_iff, Condition.Truthy]
  have leaves (clause : Condition) (member : clause ∈ contract.ensures) :
      LeavesMemory ((arrangements clause.depth current contract.remembered).forM
        (ensureArrangement world contract.name scope clause)) :=
    .forM (fun arrangement _ => ensureArrangement_leavesMemory arrangement (free clause member))
  unfold checkEnsures
  rw [forM_run_eq_ok_iff, allSucceed_iff_of_leavesMemory leaves]
  constructor
  · rintro ⟨same, passed⟩
    exact ⟨same, fun clause member => ((each clause member _ _).mp (passed clause member)).2⟩
  · rintro ⟨same, truthy⟩
    exact ⟨same, fun clause member =>
      (each clause member _ _).mpr ⟨rfl, truthy clause member⟩⟩

/-!
## The guarded end of a call
-/

theorem remember_of_nonneg {limit : Int} (nonnegative : 0 ≤ limit) (remembered : List Record)
    (call : Record) :
    remember limit remembered call =
      (.ok ((remembered ++ [call]).rtake limit.toNat), remembered ++ [call]) := by
  have withinCalls : ¬ (((remembered ++ [call]).length : Int) <
      ((remembered ++ [call]).length : Int) - limit) := by omega
  have surplus : (((remembered ++ [call]).length : Int) - limit).toNat =
      (remembered ++ [call]).length - limit.toNat := by omega
  simp only [remember, withinCalls, ↓reduceIte, surplus, List.rtake.eq_def]

/-- Under a negative limit the call is added. Forgetting then crashes where the surplus fits a
word, and does nothing where it does not. -/
theorem remember_of_neg {limit : Int} (negative : limit < 0) (remembered : List Record)
    (call : Record) :
    ((remembered.length : Int) + 1 - limit < 0x8000000000000000 ∧
      ∃ reason, remember limit remembered call =
        (.error (.crash reason), remembered ++ [call])) ∨
    (0x8000000000000000 ≤ (remembered.length : Int) + 1 - limit ∧
      remember limit remembered call = (.ok (remembered ++ [call]), remembered ++ [call])) := by
  have length : ((remembered ++ [call]).length : Int) = (remembered.length : Int) + 1 := by simp
  have beyondCalls : (remembered.length : Int) + 1 < (remembered.length : Int) + 1 - limit := by
    omega
  simp only [remember, length, beyondCalls, ↓reduceIte]
  split
  · next fits => exact .inl ⟨fits, _, rfl⟩
  · next tooLarge => exact .inr ⟨by omega, rfl⟩

theorem conclude_cases (world : World) (contract : Contract) (snapshot : Snapshot)
    (current : Record) (memory : Memory) :
    (∃ failure final,
      (checkEnsures world contract (outerScope snapshot) current).run memory =
        (.error failure, final) ∧
      conclude world contract snapshot current memory =
        ⟨.error failure, final, contract.remembered⟩) ∨
    (∃ final,
      (checkEnsures world contract (outerScope snapshot) current).run memory = (.ok (), final) ∧
      ((contract.isTemporal = false ∧
        conclude world contract snapshot current memory =
          ⟨.ok (), final, contract.remembered⟩) ∨
      (contract.isTemporal = true ∧ 0 ≤ snapshot.maxCache ∧
        conclude world contract snapshot current memory =
          ⟨.ok (), final, (contract.remembered ++ [current]).rtake snapshot.maxCache.toNat⟩) ∨
      (contract.isTemporal = true ∧ snapshot.maxCache < 0 ∧
        conclude world contract snapshot current memory =
          ⟨(remember snapshot.maxCache contract.remembered current).1.map (fun _ => ()), final,
            contract.remembered ++ [current]⟩))) := by
  cases ran : (checkEnsures world contract (outerScope snapshot) current).run memory with
  | mk outcome final =>
    cases outcome with
    | error failure => exact .inl ⟨failure, final, rfl, by simp only [conclude, ran]⟩
    | ok _ =>
      refine .inr ⟨final, rfl, ?_⟩
      cases temporal : contract.isTemporal with
      | false => exact .inl ⟨rfl, by simp [conclude, ran, temporal]⟩
      | true =>
        by_cases nonnegative : 0 ≤ snapshot.maxCache
        · refine .inr (.inl ⟨rfl, nonnegative, ?_⟩)
          simp only [conclude, ran, temporal, ↓reduceIte, remember_of_nonneg nonnegative]
        · have negative : snapshot.maxCache < 0 := by omega
          refine .inr (.inr ⟨rfl, negative, ?_⟩)
          rcases remember_of_neg negative contract.remembered current with
            ⟨_, reason, crashed⟩ | ⟨_, kept⟩
          · simp only [conclude, ran, temporal, ↓reduceIte, crashed]
            rfl
          · simp only [conclude, ran, temporal, ↓reduceIte, kept]
            rfl

/-- Under a limit that is not negative, a call ends as its postconditions do. -/
theorem conclude_outcome {world : World} {contract : Contract} {snapshot : Snapshot}
    (limit : 0 ≤ snapshot.maxCache) (current : Record) (memory : Memory) :
    (conclude world contract snapshot current memory).outcome =
      ((checkEnsures world contract (outerScope snapshot) current).run memory).1 := by
  rcases conclude_cases world contract snapshot current memory with
    ⟨failure, final, ran, ended⟩ | ⟨final, ran, plain | evicting | crashing⟩
  · rw [ran, ended]
  · rw [ran, plain.2]
  · rw [ran, evicting.2.2]
  · exact absurd limit (by omega)

end Contract

end Covenant
