import Covenant.Condition.Basic
import Covenant.Condition.Call

/-!
# Evaluation

Operands are evaluated from left to right and at most once; `and`, `or`, conditional expressions and
chains of comparisons stop as soon as they are decided. Every operation works on the present
contents of its operands.
-/

set_option autoImplicit false

namespace Covenant.Condition

/-- Computations that may fail and may write to memory; what was written before a failure
stays. -/
abbrev Evaluation := ExceptT Failure (StateM Memory)

namespace Evaluation

def look (value : Value) : Evaluation Value := return (← get).view value

def lookAll (values : List Value) : Evaluation (List Value) := return (← get).viewAll values

def ofExcept {α : Type} (result : Except Failure α) : Evaluation α := ExceptT.mk (pure result)

def ofOutcome {α : Type} (step : Memory → Outcome α) : Evaluation α := ExceptT.mk step

def truth (value : Value) : Evaluation Bool := return truthy (← look value)

end Evaluation

def Literal.value : Literal → Value
  | .int value => .ofInt value
  | .float value => .ofFloat value
  | .text value => .ofText value
  | .bool value => .ofBool value
  | .none => .nil

def bindTargets (targets : List Text) (item : Value) : Except Failure Bindings :=
  match targets with
  | [target] => .ok [(target, item)]
  | _ =>
    match sequence? item with
    | some parts =>
      if parts.length = targets.length then .ok (targets.zip parts).reverse
      else mismatch
    | none => mismatch
where
  mismatch : Except Failure Bindings :=
    fail .value ("cannot unpack " ++ item.message ++ " into "
      ++ Text.ofNat targets.length ++ " names")

def collectItems (step : Value → Evaluation (Option Value)) :
    List Value → Evaluation (List Value)
  | [] => return []
  | item :: items => do
      let made ← step item
      let others ← collectItems step items
      return match made with
        | some value => value :: others
        | none => others

mutual

def Expr.eval (world : World) (scope : Scope) : Expr → Evaluation Value
  | .name label _ =>
    match scope.find? label with
    | some value => return value
    | none => throw (.evaluation .name label)
  | .literal constant => return constant.value
  | .unary op operand => do
      let value ← operand.eval world scope
      Evaluation.ofExcept (Condition.unary op (← Evaluation.look value))
  | .binary op left right => do
      let leftValue ← left.eval world scope
      let rightValue ← right.eval world scope
      Evaluation.ofExcept
        (Condition.binary op (← Evaluation.look leftValue) (← Evaluation.look rightValue))
  | .logic op left right => do
      let value ← left.eval world scope
      let holds ← Evaluation.truth value
      match op, holds with
      | .both, false | .either, true => return value
      | _, _ => right.eval world scope
  | .comparison first links => do
      let value ← first.eval world scope
      Expr.evalLinks world scope value links
  | .conditional consequence test alternative => do
      let value ← test.eval world scope
      if ← Evaluation.truth value then consequence.eval world scope
      else alternative.eval world scope
  | .call function arguments => do
      let callee ← function.eval world scope
      let values ← Expr.evalAll world scope arguments
      let present ← Evaluation.lookAll values
      Evaluation.ofOutcome (Condition.call world callee present)
  | .index container position => do
      let containerValue ← container.eval world scope
      let positionValue ← position.eval world scope
      let inside ← Evaluation.look containerValue
      Evaluation.ofExcept (subscript world.host inside (← Evaluation.look positionValue))
  | .attribute operand label => do
      let value ← operand.eval world scope
      Evaluation.ofExcept (readAttribute world.host (← Evaluation.look value) label)
  | .list elements | .tuple elements => return .ofList (← Expr.evalAll world scope elements)
  | .comprehension element targets source conditions => do
      let value ← source.eval world scope
      let items ← Evaluation.ofExcept (iterate (← Evaluation.look value))
      let collected ← collectItems (fun item => do
        let layer ← Evaluation.ofExcept (bindTargets targets (← Evaluation.look item))
        let inner := scope.push layer
        if ← Expr.evalConditions world inner conditions then
          return some (← element.eval world inner)
        else return none) items
      return .ofList collected

def Expr.evalAll (world : World) (scope : Scope) : List Expr → Evaluation (List Value)
  | [] => return []
  | expr :: exprs => do
      let value ← expr.eval world scope
      let values ← Expr.evalAll world scope exprs
      return value :: values

def Expr.evalConditions (world : World) (scope : Scope) : List Expr → Evaluation Bool
  | [] => return true
  | expr :: exprs => do
      let value ← expr.eval world scope
      if ← Evaluation.truth value then Expr.evalConditions world scope exprs else return false

def Expr.evalLinks (world : World) (scope : Scope) (left : Value) :
    List (CompareOp × Expr) → Evaluation Value
  | [] => return .ofBool true
  | (op, operand) :: links => do
      let right ← operand.eval world scope
      let holds ← Evaluation.ofExcept
        (compareValues world op (← Evaluation.look left) (← Evaluation.look right))
      if holds then Expr.evalLinks world scope right links else return .ofBool false

end

def value (world : World) (scope : Scope) (condition : Condition) : Evaluation Value :=
  tryCatch (condition.expr.eval world scope) fun
    | .crash reason =>
      throw (.evaluation .panic (condition.source ++ ": " ++ reason))
    | failure => throw failure

def holds (world : World) (scope : Scope) (condition : Condition) : Evaluation Bool := do
  Evaluation.truth (← value world scope condition)

end Covenant.Condition
