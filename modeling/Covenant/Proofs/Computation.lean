import Covenant.Condition.Call

/-!
# What the engine fails with

The failures that operators, builtin functions, subscripts, attributes and conversions make are of
three sorts: a failed evaluation of one kind, a crash, and a computation that never ends. Whatever
else a condition fails with was returned by a function that it called.
-/

set_option autoImplicit false

namespace Covenant

/-- A failure that the evaluation of conditions makes by itself. -/
def Failure.isComputed : Failure → Bool
  | .evaluation .. | .crash _ | .unending => true
  | _ => false

/-- A result that, if it is a failure, is one of the engine's own. -/
def Computes {α : Type} : Except Failure α → Prop
  | .ok _ => True
  | .error failure => failure.isComputed = true

namespace Computes

variable {α β : Type}

@[simp] theorem ok (value : α) : Computes (.ok value) := trivial

variable {failure : Failure}

theorem made (computed : failure.isComputed = true) :
    Computes (.error failure : Except Failure α) := computed

theorem of_error {result : Except Failure α} (computes : Computes result)
    (failed : result = .error failure) : failure.isComputed = true := by
  rw [failed] at computes
  exact computes

theorem bind {first : Except Failure α} {next : α → Except Failure β} (begins : Computes first)
    (goesOn : ∀ value, Computes (next value)) : Computes (first >>= next) := by
  cases first with
  | error failure => exact begins
  | ok value => exact goesOn value

theorem map {result : Except Failure α} (computes : Computes result) (change : α → β) :
    Computes (change <$> result) := by
  cases result with
  | error failure => exact computes
  | ok value => exact .ok _

end Computes

namespace Condition

/-!
## Operators
-/

variable {α : Type} {op : BinaryOp}

@[simp] theorem computes_fail (kind : EvalKind) (detail : Text) :
    Computes (fail kind detail : Except Failure α) := .made rfl

@[simp] theorem computes_typeFail (pieces : List Text) :
    Computes (typeFail pieces : Except Failure α) := .made rfl

@[simp] theorem computes_orderFailure (left right : Value) :
    Computes (orderFailure left right : Except Failure α) := .made rfl

theorem iterate_computes (value : Value) : Computes (iterate value) := by
  unfold iterate
  repeat' split
  all_goals simp

theorem findKey_computes (host : Host) (keyType : HostType) (entries : List (Value × Value))
    (key : Value) : Computes (findKey host keyType entries key) := by
  unfold findKey
  split
  · simp
  · split
    · exact .made rfl
    · simp

theorem contains_computes (world : World) (container item : Value) :
    Computes (contains world container item) := by
  unfold contains
  repeat' split
  · simp
  · simp
  · simp
  · simp
  · exact .bind (findKey_computes _ _ _ _) fun _ => .ok _
  · simp
  · simp

theorem compareValues_computes (world : World) (op : CompareOp) (left right : Value) :
    Computes (compareValues world op left right) := by
  unfold compareValues
  extract_lets ordered
  have orders (decide : Ordering → Bool) : Computes (ordered decide) := by
    simp only [ordered]
    split <;> simp
  cases op with
  | within => exact contains_computes world right left
  | notWithin => exact (contains_computes world right left).map _
  | less | lessEqual | greater | greaterEqual => exact orders _
  | _ => exact .ok _

theorem realArithmetic_computes (op : BinaryOp) (left right : Float) :
    Computes (realArithmetic op left right) := by
  cases op <;> simp only [realArithmetic] <;> repeat' split
  all_goals simp

theorem wholeArithmetic?_computes {left right : Int} {outcome : Except Failure Int}
    (whole : wholeArithmetic? op left right = some outcome) : Computes outcome := by
  cases op with
  | divide => cases whole
  | power =>
    simp only [wholeArithmetic?] at whole
    split at whole
    · obtain ⟨result, _, same⟩ := Option.map_eq_some_iff.mp whole
      rw [← same]
      exact .ok result
    · cases whole
  | floorDivide | modulo =>
    simp only [wholeArithmetic?] at whole
    cases whole
    split <;> simp
  | _ =>
    cases whole
    exact .ok _

theorem arithmetic_computes (op : BinaryOp) (left right : Num) :
    Computes (arithmetic op left right) := by
  have real (left right : Float) :
      Computes (Value.ofFloat <$> realArithmetic op left right) :=
    (realArithmetic_computes op left right).map _
  unfold arithmetic
  extract_lets reals
  split
  · split
    · next outcome whole => exact (wholeArithmetic?_computes whole).map _
    · exact real _ _
  · exact real _ _

theorem repeatText_computes (text : Text) (count : Int) :
    Computes (repeatText text count) := by
  unfold repeatText
  extract_lets length
  split
  · exact .made rfl
  · split
    · exact .made rfl
    · exact .ok _

theorem joinOrRepeat?_computes {left right : Value} {outcome : Except Failure Value}
    (joined : joinOrRepeat? op left right = some outcome) : Computes outcome := by
  cases op with
  | add =>
    simp only [joinOrRepeat?] at joined
    split at joined
    · cases joined
      exact .ok _
    · simp only [Option.bind_eq_bind, Option.bind_eq_some_iff] at joined
      obtain ⟨_, _, _, _, same⟩ := joined
      cases same
      exact .ok _
    · cases joined
  | multiply =>
    simp only [joinOrRepeat?, Option.or_eq_some_iff, Option.bind_eq_bind,
      Option.bind_eq_some_iff] at joined
    rcases joined with ⟨_, _, _, _, same⟩ | ⟨_, ⟨_, _, _, _, same⟩ | ⟨_, _, _, _, _, same⟩⟩
    · cases same
      exact repeatText_computes _ _
    · cases same
      exact repeatText_computes _ _
    · cases same
      exact .ok _
  | _ => cases joined

theorem binary_computes (op : BinaryOp) (left right : Value) :
    Computes (binary op left right) := by
  unfold binary
  split
  · exact arithmetic_computes op _ _
  · split
    · next joined => exact joinOrRepeat?_computes joined
    · simp

theorem unary_computes (op : UnaryOp) (operand : Value) : Computes (unary op operand) := by
  unfold unary
  repeat' split
  all_goals simp

theorem place_computes (position : Value) (length : Nat) : Computes (place position length) := by
  unfold place
  split
  · simp
  · extract_lets number
    split <;> simp

theorem itemAt_computes (items : List Value) (position : Value) :
    Computes (itemAt items position) :=
  .bind (place_computes position items.length) fun _ => .ok _

theorem valueAt_computes (host : Host) (container : Value) (entries : List (Value × Value))
    (key : Value) : Computes (valueAt host container entries key) := by
  refine .bind (findKey_computes host _ entries key) fun found => ?_
  split
  · exact .ok _
  · simp

theorem subscript_computes (host : Host) (container position : Value) :
    Computes (subscript host container position) := by
  unfold subscript
  split
  · exact .bind (place_computes position _) fun _ => .ok _
  · extract_lets dimensions inner
    split
    · simp
    · split
      · exact itemAt_computes _ position
      · split
        · exact valueAt_computes host _ _ position
        · exact itemAt_computes _ position
        · simp

/-!
## Builtin functions
-/

@[simp] theorem computes_arityFailure (name : String) (least most given : Nat) :
    Computes (arityFailure name least most given : Except Failure α) := .made rfl

@[simp] theorem computes_notConvertible (number : Float) :
    Computes (notConvertible number : Except Failure α) := .made rfl

theorem length_computes (value : Value) : Computes (length value) := by
  unfold length
  repeat' split
  all_goals simp

theorem absolute_computes (value : Value) : Computes (absolute value) := by
  unfold absolute
  split <;> simp

theorem extremeFrom_computes (beats : Ordering → Bool) (best : Value) (items : List Value) :
    Computes (extremeFrom beats best items) := by
  induction items generalizing best with
  | nil => exact .ok best
  | cons item items ih =>
    rw [extremeFrom]
    split
    · exact ih _
    · exact ih best
    · simp

theorem extreme_computes (name : String) (beats : Ordering → Bool) (arguments : List Value) :
    Computes (extreme name beats arguments) := by
  unfold extreme
  extract_lets choose
  have chooses (items : List Value) : Computes (choose items) := by
    simp only [choose]
    split
    · simp
    · exact extremeFrom_computes beats _ _
  split
  · exact .bind (iterate_computes _) fun items => chooses items
  · exact chooses _

theorem sumFrom_computes (start items : Value) : Computes (sumFrom start items) := by
  have added (found : List Value) (start : Value) :
      Computes (found.foldlM (binary .add) start) := by
    induction found generalizing start with
    | nil => exact .ok start
    | cons item found ih =>
      rw [List.foldlM_cons]
      exact .bind (binary_computes .add start item) fun next => ih next
  exact .bind (iterate_computes items) fun found => added found start

theorem toInteger_computes (value : Value) : Computes (toInteger value) := by
  unfold toInteger
  repeat' split
  all_goals simp

theorem toReal_computes (value : Value) : Computes (toReal value) := by
  unfold toReal
  repeat' split
  all_goals simp

theorem round_computes (value : Value) (places : Option Value) :
    Computes (round value places) := by
  unfold round roundPlaces
  repeat' split
  · simp
  · unfold roundWhole
    repeat' split
    all_goals simp
  · simp
  · simp

theorem numberTest_computes (name : String) (test : Float → Bool) (value : Value) :
    Computes (numberTest name test value) := by
  unfold numberTest
  split <;> simp

theorem checkOrdered_computes (items : List Value) : Computes (checkOrdered items) := by
  fun_induction checkOrdered items with
  | case1 left right rest first second mismatched => simp
  | case2 left right rest _ ih => exact ih
  | case3 => simp

theorem sorted_computes (value : Value) : Computes (sorted value) := by
  refine .bind (iterate_computes value) fun items => ?_
  exact .bind (checkOrdered_computes items) fun _ => .ok _

theorem countedRange_computes (start stop step : Int) :
    Computes (countedRange start stop step) := by
  unfold countedRange
  repeat' split
  · simp
  · simp
  · exact .made rfl

theorem rangeBounds_computes (values : List Value) : Computes (rangeBounds values) := by
  induction values with
  | nil => exact .ok []
  | cons value values ih =>
    rw [rangeBounds]
    split
    · simp
    · exact .bind ih fun _ => .ok _

theorem range_computes (arguments : List Value) : Computes (range arguments) := by
  refine .bind (rangeBounds_computes arguments) fun bounds => ?_
  split
  · exact countedRange_computes _ _ _
  · exact countedRange_computes _ _ _
  · exact countedRange_computes _ _ _
  · simp

theorem unaryBuiltin_computes (name : String) {run : Value → Except Failure Value}
    (each : ∀ value, Computes (run value)) (arguments : List Value) :
    Computes (unaryBuiltin name run arguments) := by
  unfold unaryBuiltin
  split
  · exact each _
  · simp

theorem callBuiltin_computes (builtin : Builtin) (arguments : List Value) :
    Computes (callBuiltin builtin arguments) := by
  cases builtin with
  | len => exact unaryBuiltin_computes _ length_computes arguments
  | abs => exact unaryBuiltin_computes _ absolute_computes arguments
  | min | max => exact extreme_computes _ _ arguments
  | sum =>
    simp only [callBuiltin]
    split
    · exact sumFrom_computes _ _
    · exact sumFrom_computes _ _
    · simp
  | all | any =>
    exact unaryBuiltin_computes _ (fun items => .bind (iterate_computes items) fun _ => .ok _)
      arguments
  | int => exact unaryBuiltin_computes _ toInteger_computes arguments
  | float => exact unaryBuiltin_computes _ toReal_computes arguments
  | str | bool => exact unaryBuiltin_computes _ (fun _ => .ok _) arguments
  | round =>
    simp only [callBuiltin]
    split
    · exact round_computes _ _
    · exact round_computes _ _
    · simp
  | isnan | isinf | isfinite => exact unaryBuiltin_computes _ (numberTest_computes _ _) arguments
  | sorted => exact unaryBuiltin_computes _ sorted_computes arguments
  | range =>
    simp only [callBuiltin]
    split
    · simp
    · exact range_computes arguments

/-!
## Attributes and arguments
-/

theorem readAttribute_computes (host : Host) (value : Value) (name : Text) :
    Computes (readAttribute host value name) := by
  unfold readAttribute
  extract_lets missing method inner field
  have lacks (pieces : List Text) : Computes (missing pieces) := .made rfl
  split
  · exact lacks _
  · split
    · exact .ok _
    · cases method with
      | some found => exact .ok found
      | none =>
        dsimp only
        split
        · exact lacks _
        · split
          · exact .ok _
          · exact lacks _

theorem wantedTypes_computes (signature : Signature) (count : Nat) :
    Computes (wantedTypes signature count) := by
  unfold wantedTypes
  extract_lets fixed rest
  repeat' split
  all_goals simp

theorem convertArguments_computes (host : Host) (position : Nat) (values : List Value)
    (types : List HostType) : Computes (convertArguments host position values types) := by
  induction values generalizing position types with
  | nil => exact .ok []
  | cons value values ih =>
    cases types with
    | nil => exact .ok []
    | cons type types =>
      rw [convertArguments]
      split
      · simp
      · exact .bind (ih _ _) fun _ => .ok _

theorem fittedArguments_computes (host : Host) (signature : Signature) (arguments : List Value) :
    Computes (do
      let types ← wantedTypes signature arguments.length
      convertArguments host 1 arguments types) :=
  .bind (wantedTypes_computes signature _) fun types =>
    convertArguments_computes host 1 arguments types

end Condition

end Covenant
