import Covenant.Proofs.Implication
import Covenant.Proofs.Rounding
import Covenant.Sample

/-!
# Comparisons of integers

The order of two integers is decided on the integers, their equality on the doubles nearest to them.
The two agree as long as different integers have different doubles. Beyond `2 ^ 53`, one integer can
be less than another one and equal to it at once.
-/

set_option autoImplicit false

namespace Covenant.Condition

open Stateful

def relations : List CompareOp :=
  [.less, .lessEqual, .greater, .greaterEqual, .equal, .notEqual]

/-- What a comparison of two integers comes to. -/
def verdict (left right : Int) : CompareOp → Bool
  | .less => left < right
  | .lessEqual => left ≤ right
  | .greater => right < left
  | .greaterEqual => right ≤ left
  | .equal => Number.nearest left = Number.nearest right
  | .notEqual => Number.nearest left ≠ Number.nearest right
  | _ => false

theorem natAbs_le_of_fits {number : Int} (inside : fits number = true) :
    number.natAbs ≤ 2 ^ 63 := by
  obtain ⟨least, greatest⟩ := Bool.and_eq_true_iff.mp inside
  have low : -(2 ^ 63 : Int) ≤ number := of_decide_eq_true least
  have high : number ≤ (2 ^ 63 : Int) - 1 := of_decide_eq_true greatest
  omega

section

variable {leftType rightType : HostType} {left right : Int} (leftFits : fits left = true)
  (rightFits : fits right = true)
include leftFits rightFits

theorem order_int :
    order (.int leftType left) (.int rightType right) = .known (compare left right) := by
  have scalars : order (.int leftType left) (.int rightType right) =
      orderScalars (.int leftType left) (.int rightType right) := rfl
  rw [scalars, orderScalars, toNum?, toNum?, if_pos leftFits, if_pos rightFits]
  rfl

theorem equal_int :
    equal (.int leftType left) (.int rightType right) =
      decide (Number.nearest left = Number.nearest right) := by
  have doubles : equal (.int leftType left) (.int rightType right) =
      (Number.ofInt left == Number.ofInt right) := by
    simp only [equal, toNum?, if_pos leftFits, if_pos rightFits, Value.isNil]
    rfl
  rw [doubles, Bool.eq_iff_iff, decide_eq_true_iff]
  exact Number.beq_ofInt_iff (natAbs_le_of_fits leftFits) (natAbs_le_of_fits rightFits)

theorem compareValues_int (world : World) {op : CompareOp} (related : op ∈ relations) :
    compareValues world op (.int leftType left) (.int rightType right) =
      .ok (verdict left right op) := by
  have ordered := @order_int leftType rightType left right leftFits rightFits
  have equals := @equal_int leftType rightType left right leftFits rightFits
  cases op with
  | equal => simp only [compareValues, equals, verdict]
  | notEqual => simp only [compareValues, equals, verdict, ne_eq, decide_not]
  | less =>
    simp only [compareValues, ordered, verdict]
    rw [Except.ok.injEq, Bool.eq_iff_iff, beq_iff_eq, decide_eq_true_iff]
    exact Int.compare_eq_lt
  | lessEqual =>
    simp only [compareValues, ordered, verdict]
    rw [Except.ok.injEq, Bool.eq_iff_iff, bne_iff_ne, decide_eq_true_iff, ne_eq,
      Int.compare_eq_gt]
    exact Int.not_lt
  | greater =>
    simp only [compareValues, ordered, verdict]
    rw [Except.ok.injEq, Bool.eq_iff_iff, beq_iff_eq, decide_eq_true_iff]
    exact Int.compare_eq_gt
  | greaterEqual =>
    simp only [compareValues, ordered, verdict]
    rw [Except.ok.injEq, Bool.eq_iff_iff, bne_iff_ne, decide_eq_true_iff, ne_eq,
      Int.compare_eq_lt]
    exact Int.not_lt
  | _ => exact absurd related (by decide)

end

def relationText (op : CompareOp) : Text :=
  "x " ++ Text.ofString op.label ++ " y"

def relationOffset (op : CompareOp) : Nat := op.label.length + 3

theorem compile_relationText (mode : Mode) {op : CompareOp} (related : op ∈ relations) :
    compile mode (relationText op) =
      .ok ⟨relationText op, relationText op, 0,
        .comparison (.name "x" 0) [(op, .name "y" (relationOffset op))]⟩ := by
  cases op with
  | less => cases mode <;> rfl
  | lessEqual => cases mode <;> rfl
  | greater => cases mode <;> rfl
  | greaterEqual => cases mode <;> rfl
  | equal => cases mode <;> rfl
  | notEqual => cases mode <;> rfl
  | _ => exact absurd related (by decide)

theorem view_int (memory : Memory) (type : HostType) (number : Int) :
    memory.view (.int type number) = .int type number := by
  unfold Memory.view
  split <;> rfl

/-- A comparison of two names of integers comes to its verdict and changes nothing. -/
theorem eval_relation {world : World} {scope : Scope} {leftType rightType : HostType}
    {x y : Int} (xFits : fits x = true) (yFits : fits y = true)
    (xBound : scope.find? "x" = some (.int leftType x))
    (yBound : scope.find? "y" = some (.int rightType y)) {op : CompareOp}
    (related : op ∈ relations) (memory : Memory) :
    ((Expr.comparison (.name "x" 0) [(op, .name "y" (relationOffset op))]).eval world scope).run
      memory = (.ok (.ofBool (verdict x y op)), memory) := by
  have first : ((Expr.name "x" 0).eval world scope).run memory =
      (.ok (.int leftType x), memory) := by
    rw [Expr.eval, xBound]
    rfl
  have second : ((Expr.name "y" (relationOffset op)).eval world scope).run memory =
      (.ok (.int rightType y), memory) := by
    rw [Expr.eval, yBound]
    rfl
  have look (value : Value) : (Evaluation.look value).run memory =
      (.ok (memory.view value), memory) := rfl
  rw [Expr.eval, run_bind_of_ok first, Expr.evalLinks, run_bind_of_ok second,
    run_bind_of_ok (look _), run_bind_of_ok (look _), view_int, view_int,
    compareValues_int xFits yFits world related]
  cases verdict x y op <;> rfl

/-- Verdicts on two integers that agree with each other and with the integers. -/
structure Consistent (verdict : CompareOp → Bool) (x y : Int) : Prop where
  one : [CompareOp.less, .equal, .greater].countP (fun op => verdict op) = 1
  lessEqual : verdict .lessEqual = (verdict .less || verdict .equal)
  notEqual : verdict .notEqual = !verdict .equal
  same : verdict .equal = true ↔ x = y

theorem consistent_verdict_iff (x y : Int) :
    Consistent (verdict x y) x y ↔ x = y ∨ Number.nearest x ≠ Number.nearest y := by
  constructor
  · intro consistent
    by_cases same : x = y
    · exact .inl same
    · refine .inr fun doubles => same (consistent.same.mp ?_)
      exact decide_eq_true doubles
  · intro apart
    have same : Number.nearest x = Number.nearest y ↔ x = y := by
      constructor
      · intro doubles
        exact apart.resolve_right fun different => different doubles
      · intro equals
        rw [equals]
    refine ⟨?_, ?_, decide_not, decide_eq_true_iff.trans same⟩
    · rcases lt_trichotomy x y with less | equals | greater
      · simp [verdict, same, less, less.ne, less.le]
      · simp [verdict, equals]
      · simp [verdict, same, greater, greater.ne', greater.le]
    · simp only [verdict, same]
      rw [Bool.eq_iff_iff, Bool.or_eq_true, decide_eq_true_iff, decide_eq_true_iff,
        decide_eq_true_iff]
      exact le_iff_lt_or_eq

/-- Six conditions compare two integers of any types within 64 bits. Each of them has a verdict in
every scope that binds the names, whatever else it holds. The verdicts on order are exact, equality
is that of the nearest doubles, and all of them agree unless different integers have the same
double. Integers up to `2 ^ 53` have not, and those that have are close together. -/
theorem integer_comparisons_consistent_iff (world : World) (scope : Scope)
    {leftType rightType : HostType} {x y : Int} (xFits : fits x = true) (yFits : fits y = true)
    (xBound : scope.find? "x" = some (.int leftType x))
    (yBound : scope.find? "y" = some (.int rightType y)) :
    ∃ verdict : CompareOp → Bool,
      (∀ mode, ∀ op ∈ relations, ∃ condition, compile mode (relationText op) = .ok condition ∧
        ∀ memory, (condition.value world scope).run memory =
          (.ok (.ofBool (verdict op)), memory)) ∧
      (verdict .less = true ↔ x < y) ∧ (verdict .lessEqual = true ↔ x ≤ y) ∧
      (verdict .greater = true ↔ y < x) ∧ (verdict .greaterEqual = true ↔ y ≤ x) ∧
      (verdict .equal = true ↔ Number.nearest x = Number.nearest y) ∧
      (verdict .notEqual = true ↔ Number.nearest x ≠ Number.nearest y) ∧
      (Consistent verdict x y ↔ x = y ∨ Number.nearest x ≠ Number.nearest y) ∧
      (x.natAbs ≤ 2 ^ 53 → y.natAbs ≤ 2 ^ 53 → Consistent verdict x y) ∧
      (verdict .equal = true → (x - y).natAbs ≤ 1024) := by
  refine ⟨verdict x y, ?_, decide_eq_true_iff, decide_eq_true_iff, decide_eq_true_iff,
    decide_eq_true_iff, decide_eq_true_iff, decide_eq_true_iff, consistent_verdict_iff x y, ?_, ?_⟩
  · intro mode op related
    refine ⟨_, compile_relationText mode related, ?_⟩
    intro memory
    rw [value_run, eval_relation xFits yFits xBound yBound related]
    rfl
  · intro xSmall ySmall
    rw [consistent_verdict_iff, Number.nearest_of_le xSmall, Number.nearest_of_le ySmall]
    exact Decidable.em (x = y)
  · intro equals
    have doubles : Number.nearest x = Number.nearest y := of_decide_eq_true equals
    have xNear := Number.nearest_near (natAbs_le_of_fits xFits)
    have yNear := Number.nearest_near (natAbs_le_of_fits yFits)
    omega

def pairScope (x y : Int) : Scope := Scope.root.push [("x", .ofWord x), ("y", .ofInt y)]

/-- Beyond `2 ^ 53` verdicts still agree on integers with doubles of their own. -/
theorem integer_comparisons_consistent_iff_apart :
    fits 9007199254740993 = true ∧ fits 9007199254740995 = true ∧
      ∃ verdict : CompareOp → Bool,
        (∀ op ∈ relations, ∃ condition, compile .precondition (relationText op) = .ok condition ∧
          (condition.value ⟨Sample.host, []⟩
            (pairScope 9007199254740993 9007199254740995)).run .empty =
              (.ok (.ofBool (verdict op)), .empty)) ∧
        Consistent verdict 9007199254740993 9007199254740995 := by
  have leftFits : fits 9007199254740993 = true := by decide
  have rightFits : fits 9007199254740995 = true := by decide
  obtain ⟨verdict, evaluated, _, _, _, _, _, _, consistent, _⟩ :=
    integer_comparisons_consistent_iff ⟨Sample.host, []⟩
      (pairScope 9007199254740993 9007199254740995) leftFits rightFits rfl rfl
  refine ⟨leftFits, rightFits, verdict, ?_, consistent.mpr (.inr (by decide +kernel))⟩
  intro op related
  obtain ⟨condition, compiled, runs⟩ := evaluated .precondition op related
  exact ⟨condition, compiled, runs .empty⟩

/-- The first integer that is no double is greater than the one before, and equal to it. -/
theorem neighbours_less_and_equal :
    ∃ less equal, compile .precondition "x < y" = .ok less ∧
      compile .precondition "x == y" = .ok equal ∧
      (less.value ⟨Sample.host, []⟩ (pairScope 9007199254740992 9007199254740993)).run .empty =
        (.ok (.ofBool true), .empty) ∧
      (equal.value ⟨Sample.host, []⟩ (pairScope 9007199254740992 9007199254740993)).run .empty =
        (.ok (.ofBool true), .empty) := by
  have runs {op : CompareOp} (related : op ∈ relations)
      (holds : verdict 9007199254740992 9007199254740993 op = true) :
      ((Expr.comparison (.name "x" 0) [(op, .name "y" (relationOffset op))]).eval
        ⟨Sample.host, []⟩ (pairScope 9007199254740992 9007199254740993)).run .empty =
          (.ok (.ofBool true), .empty) := by
    rw [eval_relation (by decide) (by decide) rfl rfl related, holds]
  have less : CompareOp.less ∈ relations := by decide
  have equal : CompareOp.equal ∈ relations := by decide
  refine ⟨_, _, compile_relationText .precondition less,
    compile_relationText .precondition equal, ?_, ?_⟩
  · rw [value_run, runs less (by decide)]
    rfl
  · rw [value_run, runs equal (by decide +kernel)]
    rfl

end Covenant.Condition
