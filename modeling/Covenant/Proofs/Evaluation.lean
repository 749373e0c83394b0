import Covenant.Contract.Call
import Mathlib.Data.List.Forall2
import Mathlib.Order.Defs.Unbundled

/-!
# Runs of evaluations

Evaluations, and sessions alike, thread a state and stop at their first failure; what was written
before stays. The equations describe a run step by step, and the inversions take a successful run
apart. Steps that leave the memory alone run as if all at once.
-/

set_option autoImplicit false

/-!
## Runs that may fail
-/

/-- A computation that threads a state and may stop at a failure. -/
abbrev Covenant.Stateful (σ : Type) := ExceptT Covenant.Failure (StateM σ)

namespace Covenant.Stateful

open List

variable {σ α β : Type} {first : Stateful σ α} {next : α → Stateful σ β} {failure : Failure}

@[simp] theorem run_pure (value : α) (state : σ) :
    (pure value : Stateful σ α).run state = (.ok value, state) := rfl

@[simp] theorem run_get (state : σ) :
    (get : Stateful σ σ).run state = (.ok state, state) := rfl

@[simp] theorem run_modify (change : σ → σ) (state : σ) :
    (modify change : Stateful σ PUnit).run state = (.ok ⟨⟩, change state) := rfl

theorem run_bind (first : Stateful σ α) (next : α → Stateful σ β) (state : σ) :
    (first >>= next).run state =
      match first.run state with
      | (.ok value, middle) => (next value).run middle
      | (.error failure, middle) => (.error failure, middle) := by
  change ExceptT.bindCont next (first.run state).1 (first.run state).2 = _
  rcases first.run state with ⟨outcome, middle⟩
  cases outcome <;> rfl

theorem run_bind_of_ok
    {state middle : σ} {value : α} (succeeded : first.run state = (.ok value, middle)) :
    (first >>= next).run state = (next value).run middle := by
  rw [run_bind, succeeded]

theorem run_bind_of_error {state middle : σ}
    (failed : first.run state = (.error failure, middle)) :
    (first >>= next).run state = (.error failure, middle) := by
  rw [run_bind, failed]

/-- A sequence succeeds exactly when both of its parts do, the second in the state that the
first leaves. -/
theorem run_bind_eq_ok_iff {state final : σ} {result : β} :
    (first >>= next).run state = (.ok result, final) ↔
      ∃ value middle, first.run state = (.ok value, middle) ∧
        (next value).run middle = (.ok result, final) := by
  rw [run_bind]
  constructor
  · intro succeeded
    cases ran : first.run state with
    | mk outcome middle =>
      rw [ran] at succeeded
      cases outcome with
      | error failure => cases succeeded
      | ok value => exact ⟨value, middle, rfl, succeeded⟩
  · rintro ⟨value, middle, ran, succeeded⟩
    rw [ran]
    exact succeeded

theorem run_tryCatch (body : Stateful σ α) (handler : Failure → Stateful σ α)
    (state : σ) :
    (tryCatch body handler).run state =
      match body.run state with
      | (.ok value, middle) => (.ok value, middle)
      | (.error failure, middle) => (handler failure).run middle := by
  simp only [tryCatch, tryCatchThe, MonadExceptOf.tryCatch, ExceptT.tryCatch, ExceptT.run,
    ExceptT.mk, bind, StateT.bind]
  rcases (body : StateM σ (Except Failure α)) state with ⟨outcome, middle⟩
  cases outcome <;> rfl

theorem run_map (change : α → β) (body : Stateful σ α) (state : σ) :
    (change <$> body).run state = ((body.run state).1.map change, (body.run state).2) := by
  simp only [Functor.map, ExceptT.map, ExceptT.run, ExceptT.mk, bind, StateT.bind]
  rcases (body : StateM σ (Except Failure α)) state with ⟨outcome, middle⟩
  cases outcome <;> rfl

/-!
## Sequences of steps
-/

/-- All steps of a sequence succeed, each in the state that the one before it leaves. -/
inductive AllSucceed (step : α → Stateful σ Unit) : List α → σ → σ → Prop where
  | nil {state} : AllSucceed step [] state state
  | cons {item items state middle final} :
      (step item).run state = (.ok (), middle) → AllSucceed step items middle final →
      AllSucceed step (item :: items) state final

variable {step : α → Stateful σ Unit} {items : List α} {state final : σ}

theorem forM_run_eq_ok_iff :
    (items.forM step).run state = (.ok (), final) ↔ AllSucceed step items state final := by
  induction items generalizing state with
  | nil =>
    constructor
    · intro succeeded
      cases succeeded
      exact .nil
    · intro succeeded
      cases succeeded
      rfl
  | cons item items ih =>
    rw [List.forM, run_bind_eq_ok_iff]
    constructor
    · rintro ⟨_, middle, ran, others⟩
      exact .cons ran (ih.mp others)
    · intro succeeded
      cases succeeded with
      | cons ran others => exact ⟨(), _, ran, ih.mpr others⟩

/-- A sequence fails with its first failing step, after all steps before it succeeded. -/
theorem forM_run_eq_error_iff :
    (items.forM step).run state = (.error failure, final) ↔
      ∃ done item rest middle, items = done ++ item :: rest ∧
        AllSucceed step done state middle ∧ (step item).run middle = (.error failure, final) := by
  induction items generalizing state with
  | nil =>
    constructor
    · intro failed
      cases failed
    · rintro ⟨done, item, rest, _, split, _, _⟩
      simp at split
  | cons first items ih =>
    rw [List.forM]
    constructor
    · intro failed
      cases ran : (step first).run state with
      | mk outcome middle =>
        cases outcome with
        | error other =>
          rw [run_bind_of_error ran] at failed
          exact ⟨[], first, items, state, rfl, .nil, ran.trans failed⟩
        | ok _ =>
          rw [run_bind_of_ok ran] at failed
          obtain ⟨done, item, rest, last, split, before, stopped⟩ := ih.mp failed
          refine ⟨first :: done, item, rest, last, ?_, .cons ran before, stopped⟩
          rw [split, cons_append]
    · rintro ⟨done, item, rest, middle, split, before, stopped⟩
      cases before with
      | nil =>
        obtain ⟨rfl, rfl⟩ := List.cons.inj split
        exact run_bind_of_error stopped
      | @cons other done _ after _ ran others =>
        obtain ⟨rfl, rfl⟩ := List.cons.inj split
        rw [run_bind_of_ok ran]
        exact ih.mpr ⟨done, item, rest, middle, rfl, others, stopped⟩

def stateAfter (step : α → Stateful σ β) (items : List α) (state : σ) : σ :=
  items.foldl (fun state item => ((step item).run state).2) state

theorem allSucceed_iff_each :
    AllSucceed step items state final ↔
      stateAfter step items state = final ∧ ∀ done item rest, items = done ++ item :: rest →
        ((step item).run (stateAfter step done state)).1 = .ok () := by
  induction items generalizing state with
  | nil =>
    constructor
    · intro succeeded
      cases succeeded
      exact ⟨rfl, fun done item rest split => by simp at split⟩
    · rintro ⟨rfl, _⟩
      exact .nil
  | cons first items ih =>
    constructor
    · intro succeeded
      cases succeeded with
      | @cons _ _ _ middle _ ran others =>
        obtain ⟨last, each⟩ := ih.mp others
        have left : ((step first).run state).2 = middle := by rw [ran]
        refine ⟨by rw [stateAfter, foldl_cons, left]; exact last, ?_⟩
        intro done item rest split
        cases done with
        | nil =>
          obtain ⟨rfl, rfl⟩ := List.cons.inj split
          rw [stateAfter, foldl_nil, ran]
        | cons other done =>
          obtain ⟨rfl, same⟩ := List.cons.inj split
          rw [stateAfter, foldl_cons, left]
          exact each done item rest same
    · rintro ⟨last, each⟩
      refine .cons (Prod.ext (each [] first items rfl) rfl) (ih.mpr ⟨last, ?_⟩)
      intro done item rest split
      exact each (first :: done) item rest (by rw [split, cons_append])

theorem forM_outcome_ok_iff :
    ((items.forM step).run state).1 = .ok () ↔
      ∀ done item rest, items = done ++ item :: rest →
        ((step item).run (stateAfter step done state)).1 = .ok () := by
  constructor
  · intro succeeded
    exact (allSucceed_iff_each.mp (forM_run_eq_ok_iff.mp (Prod.ext succeeded rfl))).2
  · intro each
    rw [forM_run_eq_ok_iff.mpr (allSucceed_iff_each.mpr ⟨rfl, each⟩)]

theorem forM_outcome_error_iff :
    ((items.forM step).run state).1 = .error failure ↔
      ∃ done item rest, items = done ++ item :: rest ∧
        (∀ before earlier after, done = before ++ earlier :: after →
          ((step earlier).run (stateAfter step before state)).1 = .ok ()) ∧
        ((step item).run (stateAfter step done state)).1 = .error failure := by
  constructor
  · intro failed
    obtain ⟨done, item, rest, middle, split, before, stopped⟩ :=
      forM_run_eq_error_iff.mp (Prod.ext failed rfl)
    obtain ⟨rfl, each⟩ := allSucceed_iff_each.mp before
    exact ⟨done, item, rest, split, each, by rw [stopped]⟩
  · rintro ⟨done, item, rest, split, each, stopped⟩
    rw [forM_run_eq_error_iff.mpr ⟨done, item, rest, _, split,
      allSucceed_iff_each.mpr ⟨rfl, each⟩, Prod.ext stopped rfl⟩]

/-!
## What a computation leaves behind
-/

/-- Whatever the computation comes to, the state that it began in is related to the one that it
leaves. -/
def MovesAlong (relation : σ → σ → Prop) (step : Stateful σ α) : Prop :=
  ∀ state, relation state (step.run state).2

namespace MovesAlong

variable {relation : σ → σ → Prop} [IsPreorder σ relation]

theorem pure (value : α) : MovesAlong relation (pure value : Stateful σ α) :=
  fun state => refl state

theorem throw (failure : Failure) : MovesAlong relation (throw failure : Stateful σ α) :=
  fun state => refl state

theorem get : MovesAlong relation (get : Stateful σ σ) := fun state => refl state

omit [IsPreorder σ relation] in
theorem modify {change : σ → σ} (moves : ∀ state, relation state (change state)) :
    MovesAlong relation (modify change : Stateful σ PUnit) := moves

omit [IsPreorder σ relation] in
theorem map {change : α → β} {body : Stateful σ α} (moves : MovesAlong relation body) :
    MovesAlong relation (change <$> body) := by
  intro state
  rw [run_map]
  exact moves state

omit [IsPreorder σ relation] in
theorem imp {wider : σ → σ → Prop} {step : Stateful σ α} (moves : MovesAlong relation step)
    (implies : ∀ {before after}, relation before after → wider before after) :
    MovesAlong wider step := fun state => implies (moves state)

theorem bind (firstMoves : MovesAlong relation first)
    (nextMoves : ∀ value, MovesAlong relation (next value)) :
    MovesAlong relation (first >>= next) := by
  intro state
  have moved := firstMoves state
  rcases ran : first.run state with ⟨failure | value, middle⟩ <;> rw [ran] at moved
  · rw [run_bind_of_error ran]
    exact moved
  · rw [run_bind_of_ok ran]
    exact trans_of relation moved (nextMoves value middle)

theorem tryCatch {body : Stateful σ α} {handler : Failure → Stateful σ α}
    (bodyMoves : MovesAlong relation body)
    (handlerMoves : ∀ failure, MovesAlong relation (handler failure)) :
    MovesAlong relation (tryCatch body handler) := by
  intro state
  have moved := bodyMoves state
  rw [run_tryCatch]
  rcases ran : body.run state with ⟨failure | value, middle⟩ <;> rw [ran] at moved
  · exact trans_of relation moved (handlerMoves failure middle)
  · exact moved

theorem forM (moves : ∀ item ∈ items, MovesAlong relation (step item)) :
    MovesAlong relation (items.forM step) := by
  induction items with
  | nil => exact .pure ()
  | cons item items ih =>
    exact .bind (moves item mem_cons_self)
      (fun _ => ih (fun other member => moves other (mem_cons_of_mem _ member)))

theorem mapM {step : α → Stateful σ β}
    (moves : ∀ item ∈ items, MovesAlong relation (step item)) :
    MovesAlong relation (items.mapM step) := by
  induction items with
  | nil => exact .pure []
  | cons item items ih =>
    have others := ih (fun other member => moves other (mem_cons_of_mem _ member))
    rw [mapM_cons]
    exact .bind (moves item mem_cons_self) (fun _ => .bind others (fun _ => .pure _))

end MovesAlong

end Covenant.Stateful

namespace Covenant.Condition.Evaluation

open List

open Stateful

variable {α β : Type}

/-!
## Steps without effect
-/

def LeavesMemory (step : Evaluation α) : Prop := MovesAlong Eq step

variable {final memory : Memory} {failure : Failure} {items : List α}

theorem settled_eq_iff {outcome result : Except Failure α} :
    (outcome, memory) = (result, final) ↔ final = memory ∧ outcome = result := by
  rw [Prod.mk.injEq, and_comm, eq_comm (a := memory)]

theorem LeavesMemory.run_eq {step : Evaluation α} (leaves : LeavesMemory step)
    {outcome : Except Failure α} (ran : step.run memory = (outcome, final)) : final = memory := by
  have unchanged := leaves memory
  rw [ran] at unchanged
  exact unchanged.symm

/-- A step without effect succeeds or fails, and the memory is the same either way. -/
theorem LeavesMemory.not_ok_iff {step : Evaluation Unit} (leaves : LeavesMemory step) :
    ¬ step.run memory = (.ok (), memory) ↔
      ∃ failure, step.run memory = (.error failure, memory) := by
  rcases ran : step.run memory with ⟨failure | _, final⟩
  · have unchanged := leaves.run_eq ran
    subst unchanged
    exact ⟨fun _ => ⟨failure, rfl⟩, fun _ => nofun⟩
  · have unchanged := leaves.run_eq ran
    subst unchanged
    constructor
    · intro failed
      exact absurd rfl failed
    · rintro ⟨_, failed⟩
      cases failed

theorem allSucceed_iff_of_leavesMemory {step : α → Evaluation Unit}
    (leaves : ∀ item ∈ items, LeavesMemory (step item)) :
    AllSucceed step items memory final ↔
      final = memory ∧ ∀ item ∈ items, (step item).run memory = (.ok (), memory) := by
  constructor
  · intro succeeded
    induction succeeded with
    | nil => exact ⟨rfl, by simp⟩
    | cons ran _ ih =>
      have unchanged := (leaves _ mem_cons_self).run_eq ran
      subst unchanged
      obtain ⟨rfl, others⟩ := ih (fun item member => leaves item (mem_cons_of_mem _ member))
      exact ⟨rfl, forall_mem_cons.mpr ⟨ran, others⟩⟩
  · rintro ⟨rfl, each⟩
    induction items with
    | nil => exact .nil
    | cons item items ih =>
      exact .cons (each item mem_cons_self)
        (ih (fun other member => leaves other (mem_cons_of_mem _ member))
          (fun other member => each other (mem_cons_of_mem _ member)))

/-- A sequence of steps without effect fails at its first failing step. -/
theorem forM_run_eq_error_iff_of_leavesMemory {step : α → Evaluation Unit}
    (leaves : ∀ item ∈ items, LeavesMemory (step item)) :
    (items.forM step).run memory = (.error failure, final) ↔
      final = memory ∧ ∃ done item rest, items = done ++ item :: rest ∧
        (∀ other ∈ done, (step other).run memory = (.ok (), memory)) ∧
        (step item).run memory = (.error failure, memory) := by
  rw [forM_run_eq_error_iff]
  constructor
  · rintro ⟨done, item, rest, middle, split, before, stopped⟩
    have inside (other : α) (member : other ∈ done) : LeavesMemory (step other) :=
      leaves other (split ▸ mem_append_left _ member)
    obtain ⟨rfl, each⟩ := (allSucceed_iff_of_leavesMemory inside).mp before
    have unchanged := (leaves item (by rw [split]; simp)).run_eq stopped
    subst unchanged
    exact ⟨rfl, done, item, rest, split, each, stopped⟩
  · rintro ⟨rfl, done, item, rest, split, each, stopped⟩
    have inside (other : α) (member : other ∈ done) : LeavesMemory (step other) :=
      leaves other (split ▸ mem_append_left _ member)
    exact ⟨done, item, rest, final, split,
      (allSucceed_iff_of_leavesMemory inside).mpr ⟨rfl, each⟩, stopped⟩

theorem mapM_run_eq_ok_iff_of_leavesMemory {step : α → Evaluation β}
    (leaves : ∀ item, LeavesMemory (step item)) {results : List β} :
    (items.mapM step).run memory = (.ok results, final) ↔
      final = memory ∧ List.Forall₂ (fun item result =>
        (step item).run memory = (.ok result, memory)) items results := by
  induction items generalizing results with
  | nil =>
    constructor
    · intro succeeded
      cases succeeded
      exact ⟨rfl, .nil⟩
    · rintro ⟨rfl, related⟩
      cases related
      rfl
  | cons item items ih =>
    rw [mapM_cons, run_bind_eq_ok_iff]
    constructor
    · rintro ⟨first, middle, ran, others⟩
      have unchanged := (leaves item).run_eq ran
      subst unchanged
      obtain ⟨rest, last, restRan, done⟩ := run_bind_eq_ok_iff.mp others
      cases done
      obtain ⟨rfl, related⟩ := ih.mp restRan
      exact ⟨rfl, .cons ran related⟩
    · rintro ⟨rfl, related⟩
      cases related with
      | cons ran others =>
        exact ⟨_, _, ran, run_bind_eq_ok_iff.mpr ⟨_, _, ih.mpr ⟨rfl, others⟩, rfl⟩⟩

theorem mapM_run_eq_error_iff_of_leavesMemory {step : α → Evaluation β}
    (leaves : ∀ item, LeavesMemory (step item)) :
    (items.mapM step).run memory = (.error failure, final) ↔
      final = memory ∧ ∃ done item rest, items = done ++ item :: rest ∧
        (∀ other ∈ done, ∃ result, (step other).run memory = (.ok result, memory)) ∧
        (step item).run memory = (.error failure, memory) := by
  induction items with
  | nil =>
    constructor
    · intro failed
      cases failed
    · rintro ⟨_, done, item, rest, split, _⟩
      simp at split
  | cons first items ih =>
    rw [mapM_cons]
    constructor
    · intro failed
      rcases ran : (step first).run memory with ⟨other | result, middle⟩
      · rw [run_bind_of_error ran] at failed
        cases failed
        have unchanged := (leaves first).run_eq ran
        subst unchanged
        exact ⟨rfl, [], first, items, rfl, by simp, ran⟩
      · have unchanged := (leaves first).run_eq ran
        subst unchanged
        rw [run_bind_of_ok ran] at failed
        rcases others : (items.mapM step).run middle with ⟨other | results, last⟩
        · rw [run_bind_of_error others] at failed
          cases failed
          obtain ⟨rfl, done, item, rest, split, each, stopped⟩ := ih.mp others
          refine ⟨rfl, first :: done, item, rest, by rw [split, cons_append], ?_, stopped⟩
          exact forall_mem_cons.mpr ⟨⟨result, ran⟩, each⟩
        · rw [run_bind_of_ok others] at failed
          cases failed
    · rintro ⟨rfl, done, item, rest, split, each, stopped⟩
      cases done with
      | nil =>
        obtain ⟨rfl, rfl⟩ := List.cons.inj split
        exact run_bind_of_error stopped
      | cons head done =>
        obtain ⟨rfl, rfl⟩ := List.cons.inj split
        obtain ⟨⟨result, ran⟩, each⟩ := forall_mem_cons.mp each
        rw [run_bind_of_ok ran]
        exact run_bind_of_error (ih.mpr ⟨rfl, done, item, rest, rfl, each, stopped⟩)

end Covenant.Condition.Evaluation

/-- The clause can be evaluated in any scope without writing to memory. -/
def Covenant.Condition.SideEffectFree (world : Covenant.World) (clause : Covenant.Condition) :
    Prop :=
  ∀ scope, Covenant.Condition.Evaluation.LeavesMemory (clause.holds world scope)
