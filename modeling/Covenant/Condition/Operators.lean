import Covenant.Condition.Expr
import Covenant.Number.Arithmetic
import Covenant.Predicate.Test

/-!
# Operators of conditions

Conditions compute on 64-bit integers and doubles. Whole arithmetic wraps, except that powers leave
for doubles when they do not fit; division and remainder round to the floor. Order is defined on
numbers, texts and sequences; not-a-number is ordered with nothing.
-/

set_option autoImplicit false

namespace Covenant.Condition

def fail {α : Type} (kind : EvalKind) (detail : Text) : Except Failure α :=
  .error (.evaluation kind detail)

def typeFail {α : Type} (pieces : List Text) : Except Failure α := fail .type pieces.flatten

/-!
## Numbers
-/

inductive Num where
  | int (value : Int)
  | float (value : Float)

namespace Num

def toFloat : Num → Float
  | .int value => Number.ofInt value
  | .float value => value

def toValue : Num → Value
  | .int value => .ofInt value
  | .float value => .ofFloat value

end Num

def wrap (value : Int) : Int := IntKind.int64.wrap value

def fits (value : Int) : Bool := IntKind.int64.holds value

/-- Booleans count as 0 and 1, and integers beyond 64 bits as doubles. -/
def toNum? : Value → Option Num
  | .bool .bool value => some (.int (if value then 1 else 0))
  | .int _ value => some (if fits value then .int value else .float (Number.ofInt value))
  | .float _ value => some (.float value)
  | _ => none

def toInt? (value : Value) : Option Int :=
  match toNum? value with
  | some (.int number) => some number
  | some (.float number) => if Number.isWhole number then some (Number.toWord number) else none
  | none => none

def truthy (value : Value) : Bool :=
  match value with
  | .nil => false
  | .bool .bool truth => truth
  | .text _ text => !text.isEmpty
  | .list _ _ items => !items.isEmpty
  | .dict _ _ entries => !entries.isEmpty
  | .absent _ => false
  | .record type fields =>
    match (Value.record type fields).arrayParts? with
    | some (_, data) => !(data.items?.getD []).isEmpty
    | none => true
  | other =>
    match toNum? other with
    | some number => number.toFloat != 0.0
    | none => true

def sequence? (value : Value) : Option (List Value) :=
  match value.arrayParts? with
  | some (_, data) => some (data.items?.getD [])
  | none => value.items?

/-!
## Equality and order
-/

mutual

/-- Numbers are equal by value, texts by bytes, sequences item by item, and everything else as
contracts compare it. -/
def equal : Value → Value → Bool
  | .nil, other => other.isNil
  | .list _ _ items, other =>
    match sequence? other with
    | some others => equalItems items others
    | none => false
  | .record type [shape, .list dataType object items], other =>
    let value := Value.record type [shape, .list dataType object items]
    if type = .numericArray then
      match sequence? other with
      | some others => equalItems items others
      | none => false
    else (sequence? other).isNone && value.contractEqual other
  | value, other =>
    if other.isNil then false
    else
      match toNum? value with
      | some left =>
        match toNum? other with
        | some right => left.toFloat == right.toFloat
        | none => false
      | none =>
        match value.plainText? with
        | some left => other.plainText? == some left
        | none =>
          match sequence? value, sequence? other with
          | some left, some right => left.isEmpty && right.isEmpty
          | none, none => value.contractEqual other
          | _, _ => false

def equalItems : List Value → List Value → Bool
  | [], [] => true
  | left :: lefts, right :: rights => equal left right && equalItems lefts rights
  | _, _ => false

end

inductive Order where
  | known (ordering : Ordering)
  /-- Not-a-number has no place in the order. -/
  | unordered
  | mismatched (left right : Value)

def orderNums : Num → Num → Order
  | .int left, .int right => .known (compare left right)
  | left, right =>
    let left := left.toFloat
    let right := right.toFloat
    if left < right then .known .lt
    else if right < left then .known .gt
    else if left == right then .known .eq
    else .unordered

def orderScalars (left right : Value) : Order :=
  match toNum? left, toNum? right with
  | some leftNum, some rightNum => orderNums leftNum rightNum
  | _, _ =>
    match left.plainText?, right.plainText? with
    | some leftText, some rightText => .known (Text.compare leftText rightText)
    | _, _ => .mismatched left right

mutual

/-- The order of two values: numbers by value, texts by bytes, sequences by their first
difference and then by length. -/
def order : Value → Value → Order
  | .list type object items, other =>
    match sequence? other with
    | some others => orderItems items others
    | none => .mismatched (.list type object items) other
  | .record type [shape, .list dataType object items], other =>
    match sequence? (.record type [shape, .list dataType object items]), sequence? other with
    | some _, some others => orderItems items others
    | _, _ => .mismatched (.record type [shape, .list dataType object items]) other
  | value, other =>
    match sequence? value, sequence? other with
    | some left, some right => .known (compare left.length right.length)
    | _, _ => orderScalars value other

def orderItems : List Value → List Value → Order
  | left :: lefts, right :: rights =>
    if equal left right then orderItems lefts rights else order left right
  | [], rights => .known (compare 0 rights.length)
  | lefts, [] => .known (compare lefts.length 0)

end

def orderFailure {α : Type} (left right : Value) : Except Failure α :=
  typeFail ["cannot order ", left.typeLabel, " and ", right.typeLabel]

/-- Inserts a value before the first one, from the right, that it does not precede. `before` is
sorted from the right. -/
def insertSorted (precedes : Value → Value → Bool) (value : Value) : List Value → List Value
  | [] => [value]
  | last :: before =>
    if precedes value last then last :: insertSorted precedes value before
    else value :: last :: before

def sortBy (precedes : Value → Value → Bool) (values : List Value) : List Value :=
  (values.foldl (fun before value => insertSorted precedes value before) []).reverse

def precedesLoosely (left right : Value) : Bool :=
  match order left right with
  | .known ordering => ordering == .lt
  | _ => Text.lt left.message right.message

def sortLoosely (values : List Value) : List Value := sortBy precedesLoosely values

def iterate (value : Value) : Except Failure (List Value) :=
  match value.plainText? with
  | some text => .ok ((Text.codePoints text).map (fun point => .ofText (Text.ofCodePoint point)))
  | none =>
    match sequence? value with
    | some items => .ok items
    | none =>
      match value.entries? with
      | some entries => .ok (sortLoosely (entries.map (·.1)))
      | none => typeFail [value.typeLabel, " is not iterable"]

def identical (left right : Value) : Bool :=
  let pointerId? : Value → Option ObjectId
    | .pointer _ object _ => some object
    | .predicate object (.range ..) | .predicate object (.generic _) => some object
    | _ => none
  let absentPointer : Value → Bool
    | .absent type => match type.underlying with
        | .pointer _ => true
        | _ => false
    | _ => false
  match pointerId? left, pointerId? right with
  | some leftId, some rightId => sameObject leftId rightId
  | some _, none => if absentPointer right then false else equal left right
  | none, some _ => if absentPointer left then false else equal left right
  | none, none => if absentPointer left && absentPointer right then true else equal left right

def keyCrash (type : HostType) : Failure :=
  .crash ("runtime error: hash of unhashable type " ++ type.label)

/-- Looks a key up in a dictionary whose keys have a type; nothing when the key does not convert
or is not there. -/
def findKey (host : Host) (keyType : HostType) (entries : List (Value × Value)) (key : Value) :
    Except Failure (Option Value) :=
  match key.convert host keyType with
  | .error _ => .ok none
  | .ok converted =>
    match converted.unhashable? with
    | some type => .error (keyCrash type)
    | none => .ok (lookupKey (converted.retype keyType) entries)

def contains (world : World) (container item : Value) : Except Failure Bool :=
  match container with
  | .nil => typeFail ["argument of type None is not iterable"]
  | .text .text text =>
    match item.plainText? with
    | some part => .ok (Text.contains text part)
    | none => typeFail ["'in <string>' requires string as left operand, not ", item.typeLabel]
  | .predicate _ inner => .ok (inner.accepts world item)
  | other =>
    match other.entries? with
    | some entries => do
        let found ← findKey world.host ((other.type?.map (·.key)).getD .any) entries item
        return found.isSome
    | none =>
      match sequence? other with
      | some items => .ok (items.any (equal · item))
      | none => typeFail ["argument of type ", other.typeLabel, " is not iterable"]

def compareValues (world : World) (op : CompareOp) (left right : Value) : Except Failure Bool :=
  let ordered (decide : Ordering → Bool) : Except Failure Bool :=
    match order left right with
    | .known ordering => .ok (decide ordering)
    | .unordered => .ok false
    | .mismatched first second => orderFailure first second
  match op with
  | .equal => .ok (equal left right)
  | .notEqual => .ok (!equal left right)
  | .within => contains world right left
  | .notWithin => (!·) <$> contains world right left
  | .identical => .ok (identical left right)
  | .notIdentical => .ok (!identical left right)
  | .less => ordered (· == .lt)
  | .lessEqual => ordered (· != .gt)
  | .greater => ordered (· == .gt)
  | .greaterEqual => ordered (· != .lt)

/-!
## Arithmetic
-/

/-- Division toward zero. Only that of the least integer by -1 wraps. -/
def truncate (left right : Int) : Int := wrap (left.tdiv right)

/-- Dividing the product gives the other factor back when nothing was lost, except that the least
integer and -1 would give each other back. -/
def multiply? (left right : Int) : Option Int :=
  let least := IntKind.int64.least
  if left = 0 || right = 0 then some 0
  else if (left = -1 && right = least) || (right = -1 && left = least) then none
  else
    let product := wrap (left * right)
    if truncate product right = left then some product else none

/-- `total · base ^ exponent` by squaring, when every product on the way fits. -/
def powerFrom? (base : Int) (exponent : Nat) (total : Int) : Option Int :=
  if exponent = 0 then some total
  else do
    let taken := if exponent % 2 = 1 then multiply? total base else some total
    let total ← taken
    if exponent / 2 = 0 then some total
    else
      let square ← multiply? base base
      powerFrom? square (exponent / 2) total
termination_by exponent

def power? (base : Int) (exponent : Nat) : Option Int := powerFrom? base exponent 1

def floorQuotient (left right : Int) : Int :=
  let quotient := truncate left right
  if left.tmod right != 0 && (left < 0) != (right < 0) then wrap (quotient - 1) else quotient

def floorRest (left right : Int) : Int :=
  let rest := left.tmod right
  if rest != 0 && (rest < 0) != (right < 0) then wrap (rest + right) else rest

def wholeArithmetic? (op : BinaryOp) (left right : Int) : Option (Except Failure Int) :=
  let zero : Except Failure Int := fail .zeroDivision "integer division or modulo by zero"
  match op with
  | .add => some (.ok (wrap (left + right)))
  | .subtract => some (.ok (wrap (left - right)))
  | .multiply => some (.ok (wrap (left * right)))
  | .floorDivide => some (if right = 0 then zero else .ok (floorQuotient left right))
  | .modulo => some (if right = 0 then zero else .ok (floorRest left right))
  | .power => if 0 ≤ right then (power? left right.toNat).map .ok else none
  | .divide => none

def realArithmetic (op : BinaryOp) (left right : Float) : Except Failure Float :=
  match op with
  | .add => .ok (left + right)
  | .subtract => .ok (left - right)
  | .multiply => .ok (left * right)
  | .divide =>
    if right == 0.0 then fail .zeroDivision "float division by zero" else .ok (left / right)
  | .floorDivide =>
    if right == 0.0 then fail .zeroDivision "float divmod()"
    else .ok (Number.floor (left / right))
  | .modulo =>
    if right == 0.0 then fail .zeroDivision "float modulo"
    else
      let rest := Number.remainder left right
      if rest != 0.0 && (rest < 0.0) != (right < 0.0) then .ok (rest + right) else .ok rest
  | .power =>
    if left == 0.0 && right < 0.0 then
      fail .zeroDivision "0.0 cannot be raised to a negative power"
    else .ok (Number.power left right)

def arithmetic (op : BinaryOp) (left right : Num) : Except Failure Value :=
  let real : Except Failure Value := .ofFloat <$> realArithmetic op left.toFloat right.toFloat
  match left, right with
  | .int leftInt, .int rightInt =>
    match wholeArithmetic? op leftInt rightInt with
    | some outcome => .ofInt <$> outcome
    | none => real
  | _, _ => real

def textLimit : Int := 0x1000000000000

def repeatText (text : Text) (count : Int) : Except Failure Value :=
  let length := text.length * count
  if !fits length then .error (.crash "strings: Repeat output length overflow")
  else if textLimit < length then .error (.crash "runtime error: makeslice: len out of range")
  else .ok (.ofText (if text.isEmpty then [] else Text.repeated text count.toNat))

def repeatItems (items : List Value) (count : Int) : Value :=
  .ofList (if items.isEmpty then [] else (List.replicate count.toNat items).flatten)

def joinOrRepeat? (op : BinaryOp) (left right : Value) : Option (Except Failure Value) :=
  match op with
  | .add =>
    match left.plainText?, right.plainText? with
    | some leftText, some rightText => some (.ok (.ofText (leftText ++ rightText)))
    | none, none => do
        let leftItems ← sequence? left
        let rightItems ← sequence? right
        return .ok (.ofList (leftItems ++ rightItems))
    | _, _ => none
  | .multiply =>
    let textTimes (text number : Value) : Option (Except Failure Value) := do
      let bytes ← text.plainText?
      let count ← toInt? number
      return repeatText bytes (max count 0)
    (textTimes left right).or <| (textTimes right left).or <| do
      let items ← sequence? left
      let count ← toInt? right
      return .ok (repeatItems items count)
  | _ => none

def binary (op : BinaryOp) (left right : Value) : Except Failure Value :=
  match toNum? left, toNum? right with
  | some leftNum, some rightNum => arithmetic op leftNum rightNum
  | _, _ =>
    match joinOrRepeat? op left right with
    | some outcome => outcome
    | none => typeFail [op.label, " for ", left.typeLabel, " and ", right.typeLabel]

def unary (op : UnaryOp) (operand : Value) : Except Failure Value :=
  match op with
  | .invert => .ok (.ofBool (!truthy operand))
  | _ =>
    match toNum? operand, op with
    | some number, .keep => .ok number.toValue
    | some (.int value), _ => .ok (.ofInt (wrap (-value)))
    | some (.float value), _ => .ok (.ofFloat (-value))
    | none, _ => typeFail ["unary ", op.label, " for ", operand.typeLabel]

/-!
## Subscripts
-/

def place (position : Value) (length : Nat) : Except Failure Nat :=
  match toInt? position with
  | none => typeFail ["indices must be integers, not ", position.typeLabel]
  | some number =>
    let number := if number < 0 then number + length else number
    if number < 0 || (length : Int) ≤ number then fail .index position.message
    else .ok number.toNat

def target : Value → Value
  | .pointer _ _ inner => target inner
  | value => value

def itemAt (items : List Value) (position : Value) : Except Failure Value := do
  let number ← place position items.length
  return items.getD number .nil

def valueAt (host : Host) (container : Value) (entries : List (Value × Value)) (key : Value) :
    Except Failure Value := do
  match ← findKey host ((container.type?.map (·.key)).getD .any) entries key with
  | some value => return value
  | none => fail .index ("key " ++ key.message)

def subscript (host : Host) (container position : Value) : Except Failure Value :=
  match container.plainText? with
  | some text => do
      let points := Text.codePoints text
      let number ← place position points.length
      return .ofText (Text.ofCodePoint (points.getD number 0))
  | none =>
    let dimensions := (container.arrayParts?.map (·.1.ints.length)).getD 0
    if 1 < dimensions then typeFail ["only 1-d arrays can be indexed"]
    else
      match sequence? container with
      | some items => itemAt items position
      | none =>
        let inner := target container
        match inner.entries?, inner.items? with
        | some entries, _ => valueAt host inner entries position
        | none, some items => itemAt items position
        | none, none => typeFail [container.typeLabel, " is not subscriptable"]

end Covenant.Condition
