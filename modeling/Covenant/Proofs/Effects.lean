import Covenant.Proofs.Computation
import Covenant.Proofs.Evaluation

/-!
# The effects of conditions

The calls that an evaluation makes are recorded beside it. A failure is one of the engine's own or
was returned by one of these calls, and only they change the memory.
-/

set_option autoImplicit false

namespace Covenant

open List

variable {failure : Failure} {world : World}

namespace Condition

open Stateful

/-- A call of a function that is not builtin, with the arguments in the types it takes. -/
structure UserCall where
  function : Value
  arguments : List Value
  memory : Memory

def userCall? (world : World) (function : Value) (arguments : List Value) (memory : Memory) :
    Option UserCall :=
  (signatureOf? world.host function).bind fun signature =>
    let converted := do
      let types ← wantedTypes signature arguments.length
      convertArguments world.host 1 arguments types
    converted.toOption.map fun values => ⟨function, collect signature values, memory⟩

namespace UserCall

def outcome (world : World) (call : UserCall) : Except Failure Value :=
  (enter world call.function call.arguments call.memory).1

/-- The function returns without a failure, crashes or never ends. -/
def quiet (world : World) (call : UserCall) : Bool :=
  match call.outcome world with
  | .ok _ | .error (.crash _) | .error .unending => true
  | .error _ => false

end UserCall

theorem call_computes_or (world : World) (function : Value) (arguments : List Value)
    (memory : Memory) :
    Computes (call world function arguments memory).1 ∧
        (call world function arguments memory).2 = memory ∨
      ∃ made, userCall? world function arguments memory = some made ∧
        (call world function arguments memory).1 = made.outcome world := by
  unfold call userCall?
  split
  · exact .inl ⟨callBuiltin_computes _ arguments, rfl⟩
  · exact .inl ⟨.made rfl, rfl⟩
  · cases signatureOf? world.host function with
    | none => exact .inl ⟨.made rfl, rfl⟩
    | some signature =>
      dsimp only [Option.bind_some]
      have converts := fittedArguments_computes world.host signature arguments
      generalize (do
        let types ← wantedTypes signature arguments.length
        convertArguments world.host 1 arguments types) = converted at converts ⊢
      cases converted with
      | error failure => exact .inl ⟨converts, rfl⟩
      | ok values => exact .inr ⟨_, rfl, rfl⟩

/-!
## The calls of an evaluation
-/

/-- The calls that a step makes in a memory. -/
abbrev Calls := Memory → List UserCall

namespace Calls

def none : Calls := fun _ => []

/-- The calls of a step, and then those of what follows if the step succeeds. -/
def andThen {α : Type} (own : Calls) (step : Evaluation α) (next : α → Calls) : Calls :=
  fun memory => own memory ++ match step.run memory with
    | (.ok value, middle) => next value middle
    | (.error _, _) => []

theorem andThen_none {α : Type} (own : Calls) (step : Evaluation α) :
    own.andThen step (fun _ => none) = own := by
  funext memory
  rw [andThen]
  split <;> exact append_nil _

def forItems (step : Value → Evaluation (Option Value)) (own : Value → Calls) :
    List Value → Calls
  | [] => none
  | item :: items => (own item).andThen (step item) fun _ => forItems step own items

end Calls

def Expr.evalItem (world : World) (scope : Scope) (element : Expr) (targets : List Text)
    (conditions : List Expr) (item : Value) : Evaluation (Option Value) := do
  let layer ← Evaluation.ofExcept (bindTargets targets (← Evaluation.look item))
  let inner := scope.push layer
  if ← Expr.evalConditions world inner conditions then
    return some (← element.eval world inner)
  else return none

mutual

def Expr.calls (world : World) (scope : Scope) : Expr → Calls
  | .name .. | .literal _ => .none
  | .unary _ operand | .attribute operand _ => operand.calls world scope
  | .binary _ left right | .index left right =>
    (left.calls world scope).andThen (left.eval world scope) fun _ => right.calls world scope
  | .logic op left right =>
    (left.calls world scope).andThen (left.eval world scope) fun value =>
      Calls.none.andThen (Evaluation.truth value) fun holds =>
        match op, holds with
        | .both, false | .either, true => .none
        | _, _ => right.calls world scope
  | .comparison first links =>
    (first.calls world scope).andThen (first.eval world scope) fun value =>
      Expr.linksCalls world scope value links
  | .conditional consequence test alternative =>
    (test.calls world scope).andThen (test.eval world scope) fun value =>
      Calls.none.andThen (Evaluation.truth value) fun holds =>
        if holds then consequence.calls world scope else alternative.calls world scope
  | .call function arguments =>
    (function.calls world scope).andThen (function.eval world scope) fun callee =>
      (Expr.allCalls world scope arguments).andThen (Expr.evalAll world scope arguments)
        fun values => Calls.none.andThen (Evaluation.lookAll values) fun present memory =>
          (userCall? world callee present memory).toList
  | .list elements | .tuple elements => Expr.allCalls world scope elements
  | .comprehension element targets source conditions =>
    (source.calls world scope).andThen (source.eval world scope) fun value =>
      Calls.none.andThen (Evaluation.look value) fun present =>
        Calls.none.andThen (Evaluation.ofExcept (iterate present)) fun items =>
          Calls.forItems (Expr.evalItem world scope element targets conditions) (fun item =>
            Calls.none.andThen (Evaluation.look item) fun present =>
              Calls.none.andThen (Evaluation.ofExcept (bindTargets targets present))
                fun layer => (Expr.conditionsCalls world (scope.push layer) conditions).andThen
                  (Expr.evalConditions world (scope.push layer) conditions) fun holds =>
                    if holds then element.calls world (scope.push layer) else .none) items

def Expr.allCalls (world : World) (scope : Scope) : List Expr → Calls
  | [] => .none
  | expr :: exprs =>
    (expr.calls world scope).andThen (expr.eval world scope) fun _ =>
      Expr.allCalls world scope exprs

def Expr.conditionsCalls (world : World) (scope : Scope) : List Expr → Calls
  | [] => .none
  | expr :: exprs =>
    (expr.calls world scope).andThen (expr.eval world scope) fun value =>
      Calls.none.andThen (Evaluation.truth value) fun holds =>
        if holds then Expr.conditionsCalls world scope exprs else .none

def Expr.linksCalls (world : World) (scope : Scope) (left : Value) :
    List (CompareOp × Expr) → Calls
  | [] => .none
  | (op, operand) :: links =>
    (operand.calls world scope).andThen (operand.eval world scope) fun right =>
      Calls.none.andThen (Evaluation.look left) fun first =>
        Calls.none.andThen (Evaluation.look right) fun second =>
          Calls.none.andThen (Evaluation.ofExcept (compareValues world op first second))
            fun holds => if holds then Expr.linksCalls world scope right links else .none

end

/-!
## What the calls account for
-/

/-- Every failure of a step is one of the engine's own or that of one of the calls, and where no
call is made the memory stays as it is. -/
structure ActsWithin (world : World) {α : Type} (step : Evaluation α) (calls : Calls) : Prop where
  fails : ∀ memory failure, (step.run memory).1 = .error failure →
    failure.isComputed = true ∨ ∃ call ∈ calls memory, call.outcome world = .error failure
  keeps : ∀ memory, calls memory = [] → (step.run memory).2 = memory

namespace ActsWithin

variable {α β : Type} {calls : Calls}

theorem ofExcept {result : Except Failure α} (computes : Computes result) :
    ActsWithin world (Evaluation.ofExcept result) calls :=
  ⟨fun _ _ failed => .inl (computes.of_error failed), fun _ _ => rfl⟩

theorem pure (value : α) : ActsWithin world (pure value : Evaluation α) calls :=
  ofExcept (.ok value)

theorem throw (computed : failure.isComputed = true) :
    ActsWithin world (throw failure : Evaluation α) calls :=
  ofExcept (.made computed)

theorem look (value : Value) : ActsWithin world (Evaluation.look value) calls :=
  ⟨nofun, fun _ _ => rfl⟩

theorem lookAll (values : List Value) : ActsWithin world (Evaluation.lookAll values) calls :=
  ⟨nofun, fun _ _ => rfl⟩

theorem truth (value : Value) : ActsWithin world (Evaluation.truth value) calls :=
  ⟨nofun, fun _ _ => rfl⟩

theorem call (function : Value) (arguments : List Value) :
    ActsWithin world (Evaluation.ofOutcome (Condition.call world function arguments))
      (fun memory => (userCall? world function arguments memory).toList) := by
  constructor
  · intro memory failure failed
    have failed : (Condition.call world function arguments memory).1 = .error failure := failed
    rcases call_computes_or world function arguments memory with ⟨computes, _⟩ | ⟨made, found, same⟩
    · exact .inl (computes.of_error failed)
    · exact .inr ⟨made, Option.mem_toList.mpr found, same.symm.trans failed⟩
  · intro memory noCall
    rcases call_computes_or world function arguments memory with ⟨_, same⟩ | ⟨made, found, _⟩
    · exact same
    · rw [found] at noCall
      cases noCall

theorem bind {first : Evaluation α} {next : α → Evaluation β} {nextCalls : α → Calls}
    (begins : ActsWithin world first calls)
    (goesOn : ∀ value, ActsWithin world (next value) (nextCalls value)) :
    ActsWithin world (first >>= next) (calls.andThen first nextCalls) := by
  constructor
  · intro memory failure failed
    rw [run_bind] at failed
    simp only [Calls.andThen, mem_append]
    have own := begins.fails memory failure
    cases ran : first.run memory with
    | mk outcome middle =>
      rw [ran] at failed own
      cases outcome with
      | error found =>
        cases failed
        rcases own rfl with computed | ⟨call, member, same⟩
        · exact .inl computed
        · exact .inr ⟨call, .inl member, same⟩
      | ok value =>
        rcases (goesOn value).fails middle failure failed with computed | ⟨call, member, same⟩
        · exact .inl computed
        · exact .inr ⟨call, .inr member, same⟩
  · intro memory noCalls
    obtain ⟨noOwn, noneLater⟩ := append_eq_nil_iff.mp noCalls
    have same := begins.keeps memory noOwn
    rw [run_bind]
    cases ran : first.run memory with
    | mk outcome middle =>
      rw [ran] at same noneLater
      cases outcome with
      | error found => exact same
      | ok value => exact ((goesOn value).keeps middle noneLater).trans same

theorem bindComputed {first : Evaluation α} {next : α → Evaluation β}
    (begins : ActsWithin world first calls)
    (goesOn : ∀ value, ActsWithin world (next value) .none) :
    ActsWithin world (first >>= next) calls := by
  rw [← calls.andThen_none first]
  exact begins.bind goesOn

theorem collectItems {step : Value → Evaluation (Option Value)} {own : Value → Calls}
    (each : ∀ item, ActsWithin world (step item) (own item)) (items : List Value) :
    ActsWithin world (collectItems step items) (.forItems step own items) := by
  induction items with
  | nil => exact .pure []
  | cons item items ih =>
    exact .bind (each item) fun _ => .bindComputed ih fun _ => .pure _

end ActsWithin

theorem bindTargets_computes (targets : List Text) (item : Value) :
    Computes (bindTargets targets item) := by
  have mismatch : Computes (bindTargets.mismatch targets item) := .made rfl
  unfold bindTargets
  split
  · exact .ok _
  · split
    · split
      · exact .ok _
      · exact mismatch
    · exact mismatch

section

variable (world : World)

-- By induction over the expression: each case follows the steps of the evaluation, and the calls
-- are recorded in the same order.
mutual

theorem Expr.eval_actsWithin (scope : Scope) :
    ∀ expr : Expr, ActsWithin world (expr.eval world scope) (expr.calls world scope)
  | .name label _ => by
    rw [Expr.eval]
    cases scope.find? label with
    | none => exact .throw rfl
    | some value => exact .pure value
  | .literal _ => .pure _
  | .unary op operand => by
    rw [Expr.eval, Expr.calls]
    exact .bindComputed (operand.eval_actsWithin scope) fun value =>
      .bindComputed (.look value) fun _ => .ofExcept (unary_computes op _)
  | .binary op left right => by
    rw [Expr.eval, Expr.calls]
    exact .bind (left.eval_actsWithin scope) fun _ =>
      .bindComputed (right.eval_actsWithin scope) fun _ => .bindComputed (.look _) fun _ =>
        .bindComputed (.look _) fun _ => .ofExcept (binary_computes op _ _)
  | .logic op left right => by
    rw [Expr.eval, Expr.calls]
    refine .bind (left.eval_actsWithin scope) fun _ => .bind (.truth _) fun holds => ?_
    cases op <;> cases holds
    all_goals first | exact .pure _ | exact right.eval_actsWithin scope
  | .comparison first links => by
    rw [Expr.eval, Expr.calls]
    exact .bind (first.eval_actsWithin scope) fun value =>
      Expr.evalLinks_actsWithin scope links value
  | .conditional consequence test alternative => by
    rw [Expr.eval, Expr.calls]
    refine .bind (test.eval_actsWithin scope) fun _ => .bind (.truth _) fun holds => ?_
    cases holds with
    | true => exact consequence.eval_actsWithin scope
    | false => exact alternative.eval_actsWithin scope
  | .call function arguments => by
    rw [Expr.eval, Expr.calls]
    exact .bind (function.eval_actsWithin scope) fun _ =>
      .bind (Expr.evalAll_actsWithin scope arguments) fun _ =>
        .bind (.lookAll _) fun _ => .call _ _
  | .index container position => by
    rw [Expr.eval, Expr.calls]
    exact .bind (container.eval_actsWithin scope) fun _ =>
      .bindComputed (position.eval_actsWithin scope) fun _ =>
        .bindComputed (.look _) fun _ => .bindComputed (.look _) fun _ =>
          .ofExcept (subscript_computes world.host _ _)
  | .attribute operand label => by
    rw [Expr.eval, Expr.calls]
    exact .bindComputed (operand.eval_actsWithin scope) fun value =>
      .bindComputed (.look value) fun _ => .ofExcept (readAttribute_computes world.host _ label)
  | .list elements | .tuple elements => by
    rw [Expr.eval, Expr.calls]
    exact .bindComputed (Expr.evalAll_actsWithin scope elements) fun _ => .pure _
  | .comprehension element targets source conditions => by
    rw [Expr.eval, Expr.calls]
    refine .bind (source.eval_actsWithin scope) fun _ => .bind (.look _) fun _ =>
      .bind (.ofExcept (iterate_computes _)) fun items =>
        .bindComputed (.collectItems (fun item => ?_) items) fun _ => .pure _
    refine .bind (.look _) fun _ => .bind (.ofExcept (bindTargets_computes targets _)) fun _ =>
      .bind (Expr.evalConditions_actsWithin _ conditions) fun holds => ?_
    cases holds with
    | true => exact .bindComputed (element.eval_actsWithin _) fun _ => .pure _
    | false => exact .pure none

theorem Expr.evalAll_actsWithin (scope : Scope) :
    ∀ exprs : List Expr,
      ActsWithin world (Expr.evalAll world scope exprs) (Expr.allCalls world scope exprs)
  | [] => .pure []
  | expr :: exprs => by
    rw [Expr.evalAll, Expr.allCalls]
    exact .bind (expr.eval_actsWithin scope) fun _ =>
      .bindComputed (Expr.evalAll_actsWithin scope exprs) fun _ => .pure _

theorem Expr.evalConditions_actsWithin (scope : Scope) :
    ∀ exprs : List Expr, ActsWithin world (Expr.evalConditions world scope exprs)
      (Expr.conditionsCalls world scope exprs)
  | [] => .pure true
  | expr :: exprs => by
    rw [Expr.evalConditions, Expr.conditionsCalls]
    refine .bind (expr.eval_actsWithin scope) fun _ => .bind (.truth _) fun holds => ?_
    cases holds with
    | true => exact Expr.evalConditions_actsWithin scope exprs
    | false => exact .pure false

theorem Expr.evalLinks_actsWithin (scope : Scope) :
    ∀ (links : List (CompareOp × Expr)) (left : Value),
      ActsWithin world (Expr.evalLinks world scope left links)
        (Expr.linksCalls world scope left links)
  | [], _ => .pure _
  | (op, operand) :: links, left => by
    rw [Expr.evalLinks, Expr.linksCalls]
    refine .bind (operand.eval_actsWithin scope) fun right => .bind (.look _) fun _ =>
      .bind (.look _) fun _ =>
        .bind (.ofExcept (compareValues_computes world op _ _)) fun holds => ?_
    cases holds with
    | true => exact Expr.evalLinks_actsWithin scope links right
    | false => exact .pure _

end

end

/-!
## Conditions without calls
-/

/-- Operators, comparisons of two and conditionals over names and literals. -/
def Expr.isArithmetic : Expr → Bool
  | .name .. | .literal _ => true
  | .unary _ operand => operand.isArithmetic
  | .binary _ left right | .comparison left [(_, right)] => left.isArithmetic && right.isArithmetic
  | .conditional consequence test alternative =>
    consequence.isArithmetic && test.isArithmetic && alternative.isArithmetic
  | _ => false

theorem Expr.calls_of_isArithmetic (scope : Scope) (expr : Expr)
    (arithmetic : expr.isArithmetic = true) : expr.calls world scope = .none := by
  fun_induction Expr.isArithmetic expr with
  | case1 | case2 => rfl
  | case3 op operand ih => exact ih arithmetic
  | case4 op left right leftIh rightIh =>
    obtain ⟨leftPlain, rightPlain⟩ := Bool.and_eq_true_iff.mp arithmetic
    rw [Expr.calls, leftIh leftPlain, rightIh rightPlain, Calls.andThen_none]
  | case5 left op right leftIh rightIh =>
    obtain ⟨leftPlain, rightPlain⟩ := Bool.and_eq_true_iff.mp arithmetic
    simp only [Expr.calls, Expr.linksCalls, leftIh leftPlain, rightIh rightPlain,
      Calls.andThen_none, ite_self]
  | case6 consequence test alternative consequenceIh testIh alternativeIh =>
    obtain ⟨others, alternativePlain⟩ := Bool.and_eq_true_iff.mp arithmetic
    obtain ⟨consequencePlain, testPlain⟩ := Bool.and_eq_true_iff.mp others
    simp only [Expr.calls, consequenceIh consequencePlain, testIh testPlain,
      alternativeIh alternativePlain, Calls.andThen_none, ite_self]
  | case7 => cases arithmetic

theorem sideEffectFree_of_isArithmetic {clause : Condition} (world : World)
    (arithmetic : clause.expr.isArithmetic = true) : clause.SideEffectFree world := by
  intro scope
  have leaves : Evaluation.LeavesMemory (clause.expr.eval world scope) := fun memory =>
    ((clause.expr.eval_actsWithin world scope).keeps memory
      (congrFun (clause.expr.calls_of_isArithmetic scope arithmetic) memory)).symm
  refine .bind (.tryCatch leaves fun failure => ?_) fun _ => .bind .get fun _ => .pure _
  cases failure <;> exact .throw _

end Condition

end Covenant
