import Covenant.Proofs.Desugaring
import Covenant.Proofs.Window
import Mathlib.Data.Fin.Tuple.Embedding
import Mathlib.Data.Finset.Sort
import Mathlib.Data.List.FinRange
import Mathlib.Data.List.Lex
import Mathlib.Data.Prod.Lex

/-!
# Every placement of calls is tried

A postcondition is tried with the current call in any of its roles and remembered calls of different
places in all others: by clause, then by the places of the remembered calls, then by the role of the
current call. The first trial in this order that does not hold is reported.
-/

set_option autoImplicit false

namespace Covenant.Contract

open List

open Stateful
open Condition.Evaluation

/-- The current call and remembered calls of different places in the roles of a condition. -/
structure Placement (depth count : Nat) where
  current : Fin (depth + 1)
  /-- The remembered calls in the other roles, from the first of these roles to the last. -/
  others : Fin depth ↪ Fin count

namespace Placement

variable {depth count : Nat}

def places (placement : Placement depth count) : List (Fin count) := List.ofFn placement.others

/-- The places of the remembered calls weigh more than the role of the current one. -/
def key (placement : Placement depth count) : List (Fin count) ×ₗ Nat :=
  toLex (placement.places, placement.current)

theorem key_injective :
    Function.Injective (key : Placement depth count → List (Fin count) ×ₗ Nat) := by
  rintro ⟨role, others⟩ ⟨otherRole, otherOthers⟩ same
  obtain ⟨sameOthers, sameRole⟩ := Prod.mk.inj (toLex.injective same)
  simp only [mk.injEq]
  exact ⟨Fin.ext sameRole, DFunLike.coe_injective (ofFn_injective sameOthers)⟩

instance : LinearOrder (Placement depth count) := LinearOrder.lift' key key_injective

theorem lt_iff {one other : Placement depth count} :
    one < other ↔
      one.places < other.places ∨ one.places = other.places ∧ one.current < other.current :=
  Prod.Lex.toLex_lt_toLex

theorem isEmpty_of_lt (few : count < depth) : IsEmpty (Placement depth count) := by
  refine ⟨fun placement => ?_⟩
  have enough := Fintype.card_le_of_embedding placement.others
  rw [Fintype.card_fin, Fintype.card_fin] at enough
  omega

def choices : (depth count : Nat) → List (Fin depth ↪ Fin count)
  | 0, _ => [.ofIsEmpty]
  | depth + 1, count =>
    (List.finRange count).flatMap fun first =>
      (choices depth count).filterMap fun rest : Fin depth ↪ Fin count =>
        if taken : ∃ role, rest role = first then none
        else some (Fin.Embedding.cons rest taken)

theorem mem_choices (others : Fin depth ↪ Fin count) : others ∈ choices depth count := by
  induction depth with
  | zero => exact mem_singleton.mpr (Subsingleton.elim _ _)
  | succ depth ih =>
    simp only [choices, mem_flatMap, mem_filterMap]
    have free : ¬∃ role, Fin.Embedding.tail others role = others 0 := by
      rintro ⟨role, same⟩
      exact Fin.succ_ne_zero role (others.injective same)
    refine ⟨others 0, mem_finRange _, Fin.Embedding.tail others, ih _, ?_⟩
    rw [dif_neg free, Option.some_inj]
    exact DFunLike.coe_injective (Fin.cons_self_tail _)

def tuples (depth count : Nat) : List (List (Fin count)) :=
  (choices depth count).map fun others : Fin depth ↪ Fin count => List.ofFn others

theorem tuples_succ (depth count : Nat) :
    tuples (depth + 1) count = (List.finRange count).flatMap fun first =>
      ((tuples depth count).filter (first ∉ ·)).map (first :: ·) := by
  simp only [tuples, choices, map_flatMap, map_filterMap]
  refine flatMap_congr fun first _ => ?_
  rw [filter_map, map_map, ← filterMap_eq_map, filterMap_filter]
  refine filterMap_congr fun rest _ => ?_
  by_cases taken : ∃ role, rest role = first
  · simp [taken, mem_ofFn]
  · have longer : List.ofFn (Fin.Embedding.cons rest taken) = first :: List.ofFn rest :=
      ofFn_cons _ _
    simp only [dif_neg taken, Option.map_some, longer]
    simp [taken, mem_ofFn]

theorem tuples_ordered (depth count : Nat) : (tuples depth count).Pairwise (· < ·) := by
  induction depth with
  | zero => exact pairwise_singleton _ _
  | succ depth ih =>
    rw [tuples_succ, pairwise_flatMap]
    constructor
    · intro first _
      rw [pairwise_map]
      exact (ih.filter _).imp fun less => cons_lt_cons_iff.mpr (.inr ⟨rfl, less⟩)
    · refine (pairwise_lt_finRange count).imp fun {first second} less one member => ?_
      intro other otherMember
      obtain ⟨_, _, rfl⟩ := mem_map.mp member
      obtain ⟨_, _, rfl⟩ := mem_map.mp otherMember
      exact cons_lt_cons_iff.mpr (.inl less)

theorem tuples_one (count : Nat) :
    tuples 1 count = (List.finRange count).map fun first => [first] := by
  have none : tuples 0 count = [[]] := rfl
  rw [tuples_succ, none, map_eq_flatMap]
  refine flatMap_congr fun first _ => ?_
  simp

theorem tuples_two (count : Nat) :
    tuples 2 count = (List.finRange count).flatMap fun first =>
      ((List.finRange count).filter (first ≠ ·)).map fun second => [first, second] := by
  rw [tuples_succ, tuples_one]
  refine flatMap_congr fun first _ => ?_
  rw [filter_map, map_map]
  simp [Function.comp_def]

def all (depth count : Nat) : List (Placement depth count) :=
  (choices depth count).flatMap fun others =>
    (List.finRange (depth + 1)).map fun current => ⟨current, others⟩

theorem mem_all (placement : Placement depth count) : placement ∈ all depth count :=
  mem_flatMap.mpr ⟨placement.others, mem_choices _,
    mem_map_of_mem (mem_finRange placement.current)⟩

theorem all_ordered (depth count : Nat) : (all depth count).Pairwise (· < ·) := by
  rw [all, pairwise_flatMap]
  constructor
  · intro others _
    rw [pairwise_map]
    refine (pairwise_lt_finRange _).imp fun less => ?_
    exact lt_iff.mpr (.inr ⟨rfl, less⟩)
  · refine (pairwise_map.mp (tuples_ordered depth count)).imp fun less placement member => ?_
    intro otherPlacement otherMember
    obtain ⟨_, _, rfl⟩ := mem_map.mp member
    obtain ⟨_, _, rfl⟩ := mem_map.mp otherMember
    exact lt_iff.mpr (.inl less)

section

variable {remembered : List Record}

def calls (placement : Placement depth remembered.length) : List Record :=
  placement.places.map remembered.get

def arrangement (placement : Placement depth remembered.length) (current : Record) : Arrangement :=
  ⟨placement.calls.insertIdx placement.current current, placement.current⟩

theorem getD_roles_arrangement (placement : Placement depth remembered.length) (current : Record) :
    (placement.arrangement current).roles.getD (placement.arrangement current).current [] =
      current := by
  have inside : (placement.current : Nat) ≤ placement.calls.length := by
    rw [calls, places, length_map, length_ofFn]
    omega
  simp only [arrangement, getD_eq_getElem?_getD, List.getElem?_insertIdx_self, inside, if_pos,
    Option.getD_some]

theorem others_arrangement (placement : Placement depth remembered.length) (current : Record) :
    (placement.arrangement current).others = placement.calls :=
  eraseIdx_insertIdx_self ..

end

theorem map_arrangement_all (depth : Nat) (current : Record) (remembered : List Record) :
    ((all depth remembered.length).map fun placement => placement.arrangement current) =
      (tuples depth remembered.length).flatMap fun places =>
        (List.finRange (depth + 1)).map fun role =>
          ⟨(places.map remembered.get).insertIdx role current, role⟩ := by
  simp only [all, tuples, map_flatMap, map_map, flatMap_map]
  rfl

theorem orderedPairs_eq {α : Type} (elements : List α) :
    orderedPairs elements = (List.finRange elements.length).flatMap fun first =>
      ((List.finRange elements.length).filter (first ≠ ·)).map fun second =>
        (elements.get first, elements.get second) := by
  have numbered : elements.zipIdx =
      (List.finRange elements.length).map fun place => (elements.get place, (place : Nat)) := by
    refine ext_getElem (by simp) fun place _ _ => ?_
    simp
  simp only [orderedPairs, numbered, flatMap_map, filterMap_map]
  refine flatMap_congr fun first _ => ?_
  rw [← filterMap_eq_map, filterMap_filter]
  refine filterMap_congr fun second _ => ?_
  simp [Fin.ext_iff]

theorem arrangements_eq (shallow : depth ≤ 2) (current : Record)
    (remembered : List Record) :
    arrangements depth current remembered =
      (all depth remembered.length).map fun placement => placement.arrangement current := by
  rw [map_arrangement_all]
  obtain rfl | rfl | rfl : depth = 0 ∨ depth = 1 ∨ depth = 2 := by omega
  · rfl
  · rw [tuples_one, flatMap_map, arrangements]
    conv_lhs => rw [← map_get_finRange remembered, flatMap_map]
    rfl
  · simp only [tuples_two, arrangements, orderedPairs_eq, flatMap_assoc, flatMap_map]
    rfl

end Placement

/-!
## Reports
-/

def shown (memory : Memory) (call : Record) : Bindings :=
  (publicRecord call).map fun (name, value) => (name, memory.view value)

theorem ensureArrangement_run_of_falsy {world : World} (name : Text) {scope : Condition.Scope}
    {clause : Condition} {arrangement : Arrangement} {memory final : Memory}
    (falsy : (clause.holds world (scope.push arrangement.bindings)).run memory =
      (.ok false, final)) :
    (ensureArrangement world name scope clause arrangement).run memory =
      (.error (.exitConditions name clause.source
        (shown final (arrangement.roles.getD arrangement.current []))
        (arrangement.others.map (shown final))), final) := by
  have looked (call : Record) :
      (lookBindings (publicRecord call)).run final = (.ok (shown final call), final) := rfl
  have lookedOthers :
      (arrangement.others.mapM fun call => lookBindings (publicRecord call)).run final =
        (.ok (arrangement.others.map (shown final)), final) := by
    apply (mapM_run_eq_ok_iff_of_leavesMemory fun _ => lookBindings_leavesMemory _).mpr
    rw [forall₂_map_right_iff, forall₂_same]
    exact ⟨rfl, fun call _ => looked call⟩
  rw [ensureArrangement, run_bind_of_ok falsy, if_neg Bool.false_ne_true]
  dsimp only
  rw [run_bind_of_ok (looked _), run_bind_of_ok lookedOthers]
  rfl

/-!
## Trials
-/

/-- A clause of a contract with calls in its roles. -/
structure Trial (contract : Contract) where
  number : Fin contract.ensures.length
  placement : Placement (contract.ensures.get number).depth contract.remembered.length

namespace Trial

variable {contract : Contract}

def clause (trial : contract.Trial) : Condition := contract.ensures.get trial.number

def key (trial : contract.Trial) : Nat ×ₗ (List (Fin contract.remembered.length) ×ₗ Nat) :=
  toLex (trial.number, trial.placement.key)

theorem key_injective : Function.Injective
    (key : contract.Trial → Nat ×ₗ (List (Fin contract.remembered.length) ×ₗ Nat)) := by
  rintro ⟨number, placement⟩ ⟨otherNumber, otherPlacement⟩ same
  obtain ⟨sameNumber, samePlacement⟩ := Prod.mk.inj (toLex.injective same)
  obtain rfl : number = otherNumber := Fin.ext sameNumber
  exact congrArg (mk number) (Placement.key_injective samePlacement)

/-- An earlier clause comes first, and of one clause the earlier placement. -/
instance : LinearOrder contract.Trial := LinearOrder.lift' key key_injective

def all (contract : Contract) : List contract.Trial :=
  (List.finRange contract.ensures.length).flatMap fun number =>
    (Placement.all _ _).map (Trial.mk number)

theorem mem_all (trial : contract.Trial) : trial ∈ all contract :=
  mem_flatMap.mpr ⟨trial.number, mem_finRange _,
    mem_map_of_mem (Placement.mem_all trial.placement)⟩

theorem all_ordered (contract : Contract) : (all contract).Pairwise (· < ·) := by
  rw [all, pairwise_flatMap]
  constructor
  · intro number _
    rw [pairwise_map]
    refine (Placement.all_ordered _ _).imp fun less => ?_
    exact Prod.Lex.toLex_lt_toLex.mpr (.inr ⟨rfl, less⟩)
  · refine (pairwise_lt_finRange _).imp fun less one member other otherMember => ?_
    obtain ⟨_, _, rfl⟩ := mem_map.mp member
    obtain ⟨_, _, rfl⟩ := mem_map.mp otherMember
    exact Prod.Lex.toLex_lt_toLex.mpr (.inl less)

instance : Fintype contract.Trial := ⟨(all contract).toFinset, by simp [mem_all]⟩

def earlier (trial : contract.Trial) : List contract.Trial :=
  (Finset.univ.filter (· < trial)).sort (· ≤ ·)

theorem earlier_of_split {done rest : List contract.Trial} {trial : contract.Trial}
    (split : all contract = done ++ trial :: rest) : trial.earlier = done := by
  have ordered := all_ordered contract
  rw [split, pairwise_append, pairwise_cons] at ordered
  obtain ⟨doneOrdered, ⟨restLater, _⟩, doneEarlier⟩ := ordered
  have same : done.toFinset = Finset.univ.filter (· < trial) := by
    ext other
    simp only [mem_toFinset, Finset.mem_filter, Finset.mem_univ, true_and]
    constructor
    · intro member
      exact doneEarlier other member trial mem_cons_self
    · intro less
      have listed := mem_all other
      rw [split, mem_append, mem_cons] at listed
      rcases listed with member | rfl | member
      · exact member
      · exact absurd less (lt_irrefl _)
      · exact absurd less (restLater other member).asymm
  rw [earlier, ← same]
  exact (toFinset_sort _ doneOrdered.nodup).mpr (doneOrdered.imp le_of_lt)

theorem mem_earlier {one trial : contract.Trial} : one ∈ trial.earlier ↔ one < trial := by
  simp [earlier]

section

variable (world : World) (scope : Condition.Scope) (current : Record)

def evaluate (trial : contract.Trial) : Condition.Evaluation Bool :=
  trial.clause.holds world (scope.push (trial.placement.arrangement current).bindings)

def before (memory : Memory) (trial : contract.Trial) : Memory :=
  Stateful.stateAfter (evaluate world scope current) trial.earlier memory

/-- What a trial comes to after the earlier ones, and the memory it leaves. -/
def outcome (memory : Memory) (trial : contract.Trial) : Except Failure Bool × Memory :=
  (trial.evaluate world scope current).run (trial.before world scope current memory)

def Holds (memory : Memory) (trial : contract.Trial) : Prop :=
  (trial.outcome world scope current memory).1 = .ok true

/-- What is reported of a trial: a failed evaluation as it is, and a clause that is not truthy with
all of its calls. -/
inductive FailsWith (memory : Memory) (trial : contract.Trial) : Failure → Prop where
  | evaluation {failure} (failed : (trial.outcome world scope current memory).1 = .error failure) :
      FailsWith memory trial failure
  | violation (falsy : (trial.outcome world scope current memory).1 = .ok false) :
      FailsWith memory trial (.exitConditions contract.name trial.clause.source
        (shown (trial.outcome world scope current memory).2 current)
        (trial.placement.calls.map (shown (trial.outcome world scope current memory).2)))

theorem failsWith_iff {memory : Memory} {trial : contract.Trial} {failure : Failure} :
    trial.FailsWith world scope current memory failure ↔
      (trial.outcome world scope current memory).1 = .error failure ∨
      (trial.outcome world scope current memory).1 = .ok false ∧
        failure = .exitConditions contract.name trial.clause.source
          (shown (trial.outcome world scope current memory).2 current)
          (trial.placement.calls.map (shown (trial.outcome world scope current memory).2)) := by
  constructor
  · intro fails
    cases fails with
    | evaluation failed => exact .inl failed
    | violation falsy => exact .inr ⟨falsy, rfl⟩
  · rintro (failed | ⟨falsy, rfl⟩)
    · exact .evaluation failed
    · exact .violation falsy

def check (trial : contract.Trial) : Condition.Evaluation Unit :=
  ensureArrangement world contract.name scope trial.clause (trial.placement.arrangement current)

theorem check_cases (trial : contract.Trial) (memory : Memory) :
    (∃ final, (trial.evaluate world scope current).run memory = (.ok true, final) ∧
      (trial.check world scope current).run memory = (.ok (), final)) ∨
    (∃ final, (trial.evaluate world scope current).run memory = (.ok false, final) ∧
      (trial.check world scope current).run memory =
        (.error (.exitConditions contract.name trial.clause.source (shown final current)
          (trial.placement.calls.map (shown final))), final)) ∨
    ∃ failure final, (trial.evaluate world scope current).run memory = (.error failure, final) ∧
      (trial.check world scope current).run memory = (.error failure, final) := by
  rcases ran : (trial.evaluate world scope current).run memory with ⟨failure | truth, final⟩
  · exact .inr (.inr ⟨failure, final, rfl, run_bind_of_error ran⟩)
  cases truth with
  | true => exact .inl ⟨final, rfl, ensureArrangement_run_eq_ok_iff.mpr ran⟩
  | false =>
    have failed := ensureArrangement_run_of_falsy contract.name ran
    rw [Placement.getD_roles_arrangement, Placement.others_arrangement] at failed
    exact .inr (.inl ⟨final, rfl, failed⟩)

theorem stateAfter_check (items : List contract.Trial) (memory : Memory) :
    stateAfter (check world scope current) items memory =
      stateAfter (evaluate world scope current) items memory := by
  have each (memory : Memory) (trial : contract.Trial) :
      ((trial.check world scope current).run memory).2 =
        ((trial.evaluate world scope current).run memory).2 := by
    rcases check_cases world scope current trial memory with
      ⟨_, ran, checked⟩ | ⟨_, ran, checked⟩ | ⟨_, _, ran, checked⟩ <;> rw [ran, checked]
  simp only [stateAfter, each]

variable {world scope current}

section

variable {memory : Memory} {done rest : List contract.Trial} {trial : contract.Trial}
  (split : all contract = done ++ trial :: rest)

include split

theorem before_of_split :
    stateAfter (check world scope current) done memory =
      trial.before world scope current memory := by
  rw [stateAfter_check, before, earlier_of_split split]

theorem check_eq_ok_iff_holds :
    ((trial.check world scope current).run
      (stateAfter (check world scope current) done memory)).1 = .ok () ↔
      trial.Holds world scope current memory := by
  rw [before_of_split split, Holds, outcome]
  rcases check_cases world scope current trial (trial.before world scope current memory) with
    ⟨_, ran, checked⟩ | ⟨_, ran, checked⟩ | ⟨_, _, ran, checked⟩ <;> simp [ran, checked]

theorem check_eq_error_iff_failsWith {failure : Failure} :
    ((trial.check world scope current).run
      (stateAfter (check world scope current) done memory)).1 = .error failure ↔
      trial.FailsWith world scope current memory failure := by
  rw [before_of_split split, failsWith_iff, outcome]
  rcases check_cases world scope current trial (trial.before world scope current memory) with
    ⟨_, ran, checked⟩ | ⟨_, ran, checked⟩ | ⟨_, _, ran, checked⟩ <;>
    simp [ran, checked, eq_comm]

end

end

end Trial

/-!
## The check of all postconditions
-/

theorem depth_le_of_compile {mode : Condition.Mode} {source : Text} {clause : Condition}
    (compiled : Condition.compile mode source = .ok clause) : clause.depth ≤ 2 := by
  obtain ⟨plain, _, plainly, _, rfl⟩ := Condition.compile_eq_ok_iff.mp compiled
  obtain ⟨_, spelled, _, _, short, rfl⟩ := Condition.desugar_eq_ok_iff.mp plainly
  apply List.foldlRecOn _ max (motive := (· ≤ 2)) (Nat.zero_le 2)
  intro longest within length member
  exact max_le within (short length member)

theorem forM_flatMap {α β : Type} (parts : α → List β) (step : β → Condition.Evaluation Unit)
    (items : List α) :
    (items.flatMap parts).forM step = items.forM fun item => (parts item).forM step := by
  induction items with
  | nil => rfl
  | cons item items ih =>
    simp only [forM_eq_forM] at ih ⊢
    rw [flatMap_cons, forM_append, forM_cons, ih]

theorem forM_filter_of_idle {α : Type} {keep : α → Bool} {step : α → Condition.Evaluation Unit}
    {items : List α} (idle : ∀ item ∈ items, keep item = false → step item = pure ()) :
    (items.filter keep).forM step = items.forM step := by
  induction items with
  | nil => rfl
  | cons item items ih =>
    obtain ⟨first, others⟩ := forall_mem_cons.mp idle
    have rest := ih others
    simp only [forM_eq_forM] at rest ⊢
    cases kept : keep item with
    | true => rw [filter_cons_of_pos kept, forM_cons, forM_cons, rest]
    | false =>
      rw [filter_cons_of_neg (by simp [kept]), forM_cons, first kept, rest, pure_bind]

section

variable {contract : Contract} (world : World) (scope : Condition.Scope) (current : Record)
  (shallow : ∀ clause ∈ contract.ensures, clause.depth ≤ 2)

include shallow

theorem checkEnsures_eq_forM :
    checkEnsures world contract scope current =
      (Trial.all contract).forM (Trial.check world scope current) := by
  have each (number : Fin contract.ensures.length) :
      (arrangements (contract.ensures.get number).depth current contract.remembered).forM
          (ensureArrangement world contract.name scope (contract.ensures.get number)) =
        ((Placement.all _ _).map (Trial.mk number)).forM (Trial.check world scope current) := by
    rw [Placement.arrangements_eq (shallow _ (get_mem _ _)), forM_eq_forM,
      forM_eq_forM, forM_map, forM_map]
    rfl
  rw [Trial.all, forM_flatMap, ← funext each, checkEnsures]
  conv_lhs => rw [← map_get_finRange contract.ensures]
  exact forM_map

theorem checkEnsures_ok_iff (memory : Memory) :
    ((checkEnsures world contract scope current).run memory).1 = .ok () ↔
      ∀ trial : contract.Trial, trial.Holds world scope current memory := by
  rw [checkEnsures_eq_forM world scope current shallow, forM_outcome_ok_iff]
  constructor
  · intro each trial
    obtain ⟨done, rest, split⟩ := append_of_mem (Trial.mem_all trial)
    exact (Trial.check_eq_ok_iff_holds split).mp (each done trial rest split)
  · intro each done trial rest split
    exact (Trial.check_eq_ok_iff_holds split).mpr (each trial)

theorem checkEnsures_error_iff (memory : Memory) (failure : Failure) :
    ((checkEnsures world contract scope current).run memory).1 = .error failure ↔
      ∃ trial : contract.Trial,
        (∀ earlier < trial, earlier.Holds world scope current memory) ∧
        trial.FailsWith world scope current memory failure := by
  rw [checkEnsures_eq_forM world scope current shallow, forM_outcome_error_iff]
  constructor
  · rintro ⟨done, trial, rest, split, each, failed⟩
    refine ⟨trial, fun earlier less => ?_, (Trial.check_eq_error_iff_failsWith split).mp failed⟩
    rw [← Trial.mem_earlier, Trial.earlier_of_split split] at less
    obtain ⟨before, after, inside⟩ := append_of_mem less
    apply (Trial.check_eq_ok_iff_holds _).mp (each before earlier after inside)
    · exact after ++ trial :: rest
    · rw [split, inside, append_assoc, cons_append]
  · rintro ⟨trial, each, failed⟩
    obtain ⟨done, rest, split⟩ := append_of_mem (Trial.mem_all trial)
    refine ⟨done, trial, rest, split, fun before earlier after inside => ?_,
      (Trial.check_eq_error_iff_failsWith split).mpr failed⟩
    have less : earlier < trial := by
      rw [← Trial.mem_earlier, Trial.earlier_of_split split, inside]
      exact mem_append_right _ mem_cons_self
    apply (Trial.check_eq_ok_iff_holds _).mpr (each earlier less)
    · exact after ++ trial :: rest
    · rw [split, inside, append_assoc, cons_append]

/-- A clause about more calls than are remembered has no say. -/
theorem checkEnsures_of_few :
    checkEnsures world contract scope current =
      checkEnsures world { contract with ensures := contract.ensures.filter fun clause =>
        clause.depth ≤ contract.remembered.length } scope current := by
  refine (forM_filter_of_idle fun clause member few => ?_).symm
  have none := Placement.isEmpty_of_lt (Nat.lt_of_not_le (of_decide_eq_false few))
  have noArrangements : arrangements clause.depth current contract.remembered = [] := by
    rw [Placement.arrangements_eq (shallow clause member), map_eq_nil_iff]
    exact eq_nil_of_subset_nil fun placement _ => (none.false placement).elim
  rw [noArrangements]
  rfl

end

theorem before_of_sideEffectFree {contract : Contract} (world : World) (scope : Condition.Scope)
    (current : Record) (memory : Memory)
    (free : ∀ clause ∈ contract.ensures, clause.SideEffectFree world) (trial : contract.Trial) :
    trial.before world scope current memory = memory := by
  unfold Trial.before stateAfter
  apply List.foldlRecOn _ _ (motive := (· = memory)) rfl
  rintro _ rfl other _
  exact (free _ (get_mem _ _) _ _).symm

/-- A clause of a depth is tried with the current call in any role and different remembered calls in
all others, and with nothing else. A call passes exactly when every trial holds, and otherwise the
first trial that does not is reported. The guarded end of a call comes to the same. -/
theorem postconditions_tried_exactly {contract : Contract}
    (compiled : ∀ clause ∈ contract.ensures,
      ∃ source, Condition.compile .postcondition source = .ok clause)
    (world : World) (scope : Condition.Scope) (current : Record) (memory : Memory) :
    (((checkEnsures world contract scope current).run memory).1 = .ok () ↔
      ∀ trial : contract.Trial, trial.Holds world scope current memory) ∧
    (∀ failure, ((checkEnsures world contract scope current).run memory).1 = .error failure ↔
      ∃ trial : contract.Trial,
        (∀ earlier < trial, earlier.Holds world scope current memory) ∧
        trial.FailsWith world scope current memory failure) ∧
    checkEnsures world contract scope current =
      checkEnsures world { contract with ensures := contract.ensures.filter fun clause =>
        clause.depth ≤ contract.remembered.length } scope current ∧
    ((∀ clause ∈ contract.ensures, clause.SideEffectFree world) →
      ∀ trial : contract.Trial, trial.before world scope current memory = memory) ∧
    ∀ snapshot, 0 ≤ snapshot.maxCache →
      (conclude world contract snapshot current memory).outcome =
        ((checkEnsures world contract (outerScope snapshot) current).run memory).1 := by
  have shallow (clause : Condition) (member : clause ∈ contract.ensures) : clause.depth ≤ 2 := by
    obtain ⟨source, made⟩ := compiled clause member
    exact depth_le_of_compile made
  exact ⟨checkEnsures_ok_iff world scope current shallow memory,
    checkEnsures_error_iff world scope current shallow memory,
    checkEnsures_of_few world scope current shallow,
    before_of_sideEffectFree world scope current memory,
    fun snapshot limit => conclude_outcome limit current memory⟩

def risingClause : Condition :=
  (Condition.compile .postcondition "n <= n` --> return <= return`").toOption.get
    (by decide +kernel)

def triangleClause : Condition :=
  (Condition.compile .postcondition "n + n` <= n`` --> return + return` <= return``").toOption.get
    (by decide +kernel)

def rising : Contract :=
  { Interleaving.doubling with
    ensures := [risingClause, triangleClause]
    remembered := [record [("n", .ofWord 1)] (.ofWord 2), record [("n", .ofWord 3)] (.ofWord 6)] }

/-- A call passes all ten trials; another one fails where it is in the last role of a triple. -/
theorem postconditions_tried_exactly_rising :
    (∀ clause ∈ rising.ensures,
      ∃ source, Condition.compile .postcondition source = .ok clause) ∧
    (∀ trial : rising.Trial, trial.Holds Interleaving.sampleWorld .root
      (record [("n", .ofWord 2)] (.ofWord 4)) .empty) ∧
    ∃ (failure : Failure) (trial : rising.Trial),
      (∀ earlier < trial, earlier.Holds Interleaving.sampleWorld .root
        (record [("n", .ofWord 4)] (.ofWord 7)) .empty) ∧
      trial.FailsWith Interleaving.sampleWorld .root
        (record [("n", .ofWord 4)] (.ofWord 7)) .empty failure := by
  have compiled (clause : Condition) (member : clause ∈ rising.ensures) :
      ∃ source, Condition.compile .postcondition source = .ok clause := by
    rcases List.mem_pair.mp member with rfl | rfl
    · exact ⟨_, eq_ok_get_toOption _⟩
    · exact ⟨_, eq_ok_get_toOption _⟩
  have passes : ((checkEnsures Interleaving.sampleWorld rising .root
      (record [("n", .ofWord 2)] (.ofWord 4))).run .empty).1.toOption.isSome = true := by
    decide +kernel
  have fails : ((checkEnsures Interleaving.sampleWorld rising .root
      (record [("n", .ofWord 4)] (.ofWord 7))).run .empty).1.toOption.isNone = true := by
    decide +kernel
  obtain ⟨passed, _⟩ := postconditions_tried_exactly compiled Interleaving.sampleWorld .root
    (record [("n", .ofWord 2)] (.ofWord 4)) .empty
  obtain ⟨_, failed, _⟩ := postconditions_tried_exactly compiled Interleaving.sampleWorld .root
    (record [("n", .ofWord 4)] (.ofWord 7)) .empty
  refine ⟨compiled, passed.mp (eq_ok_get_toOption passes), ?_⟩
  rcases ran : ((checkEnsures Interleaving.sampleWorld rising .root
      (record [("n", .ofWord 4)] (.ofWord 7))).run .empty).1 with failure | _
  · exact ⟨failure, (failed failure).mp ran⟩
  · rw [ran] at fails
    cases fails

end Covenant.Contract
