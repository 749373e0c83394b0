import Covenant.Condition.Operators

/-!
# Builtin functions

The functions that every condition sees. They take any values, so each one checks the number and
the kinds of its arguments.
-/

set_option autoImplicit false

namespace Covenant

def Builtin.label : Builtin → String
  | .len => "len"
  | .abs => "abs"
  | .min => "min"
  | .max => "max"
  | .sum => "sum"
  | .all => "all"
  | .any => "any"
  | .int => "int"
  | .float => "float"
  | .str => "str"
  | .bool => "bool"
  | .round => "round"
  | .isnan => "isnan"
  | .isinf => "isinf"
  | .isfinite => "isfinite"
  | .sorted => "sorted"
  | .range => "range"

def Builtin.every : List Builtin :=
  [.len, .abs, .min, .max, .sum, .all, .any, .int, .float, .str, .bool, .round, .isnan, .isinf,
    .isfinite, .sorted, .range]

def Builtin.toValue (builtin : Builtin) : Value := .function .builtin (.builtin builtin)

namespace Condition

def arityFailure {α : Type} (name : String) (least most given : Nat) : Except Failure α :=
  let wanted : Text :=
    if least = most then Text.ofNat least
    else Text.ofNat least ++ " to " ++ Text.ofNat most
  typeFail [name, "() takes ", wanted, " arguments (", Text.ofNat given, " given)"]

def length (value : Value) : Except Failure Value :=
  match value.plainText?, value.arrayParts? with
  | some text, _ => .ok (.ofInt (Text.codePoints text).length)
  | none, some (shape, _) =>
    match shape.ints with
    | [] => typeFail ["len() of unsized object"]
    | extent :: _ => .ok (.ofInt extent)
  | none, none =>
    match value, value.items?, value.entries? with
    | _, some items, _ => .ok (.ofInt items.length)
    | _, none, some entries => .ok (.ofInt entries.length)
    | .text _ text, none, none => .ok (.ofInt text.length)
    | .nil, none, none => typeFail ["object of type None has no len()"]
    | _, none, none => typeFail ["object of type ", value.typeLabel, " has no len()"]

def absolute (value : Value) : Except Failure Value :=
  match toNum? value with
  | none => typeFail ["bad operand type for abs(): ", value.typeLabel]
  | some (.int number) => .ok (.ofInt (if number < 0 then wrap (-number) else number))
  | some (.float number) => .ok (.ofFloat number.abs)

def extremeFrom (beats : Ordering → Bool) (best : Value) : List Value → Except Failure Value
  | [] => .ok best
  | item :: items =>
    match order item best with
    | .known ordering => extremeFrom beats (if beats ordering then item else best) items
    | .unordered => extremeFrom beats best items
    | .mismatched left right => orderFailure left right

def extreme (name : String) (beats : Ordering → Bool) (arguments : List Value) :
    Except Failure Value := do
  let items ← match arguments with
    | [only] => iterate only
    | several => .ok several
  match items with
  | [] => fail .value (Text.ofString name ++ "() arg is an empty sequence")
  | first :: others => extremeFrom beats first others

def sumFrom (start items : Value) : Except Failure Value := do
  (← iterate items).foldlM (binary .add) start

def notConvertible {α : Type} (number : Float) : Except Failure α :=
  fail .value ("cannot convert float " ++ Number.text number ++ " to integer")

def toInteger (value : Value) : Except Failure Value :=
  match value.plainText? with
  | some text =>
    match Number.readInt (Text.trim text) with
    | .ok number => .ok (.ofInt number)
    | .error _ =>
      fail .value ("invalid literal for int(): " ++ Text.quoted text)
  | none =>
    match toNum? value with
    | none =>
      typeFail ["int() argument must be a string or a number, not ", value.typeLabel]
    | some (.int number) => .ok (.ofInt number)
    | some (.float number) =>
      if number.isFinite then .ok (.ofInt (Number.toWord number)) else notConvertible number

def toReal (value : Value) : Except Failure Value :=
  match value.plainText? with
  | some text =>
    match Number.read (Text.trim text) with
    | .ok number => .ok (.ofFloat number)
    | .error _ =>
      fail .value ("could not convert string to float: " ++ Text.quoted text)
  | none =>
    match toNum? value with
    | none =>
      typeFail ["float() argument must be a string or a number, not ", value.typeLabel]
    | some number => .ok (.ofFloat number.toFloat)

def format : Value → Text
  | .nil => "None"
  | .bool .bool truth => if truth then "True" else "False"
  | .text .text text => text
  | .float (.float .double) number =>
    if number.isNaN then "nan"
    else if number.isInf then (if number < 0.0 then "-inf" else "inf")
    else if Number.isWhole number && number.abs < 1e16 then Number.fixedText 1 number
    else Number.text number
  | value => value.message

def roundWhole : Num → Except Failure Value
  | .int number => .ok (.ofInt number)
  | .float number =>
    if number.isFinite then
      .ok (.ofInt (Number.toWord (Number.Rounding.nearestEven.apply number)))
    else notConvertible number

def roundPlaces (number : Num) (places : Value) : Except Failure Value :=
  match toInt? places with
  | none => typeFail ["round() digits must be an integer"]
  | some digits =>
    let scale := Number.power 10.0 (Number.ofInt digits)
    .ok (.ofFloat (Number.Rounding.nearestEven.apply (number.toFloat * scale) / scale))

def round (value : Value) (places : Option Value) : Except Failure Value :=
  match toNum? value with
  | none => typeFail ["type ", value.typeLabel, " doesn't define round"]
  | some number =>
    match places with
    | none => roundWhole number
    | some digits => roundPlaces number digits

def numberTest (name : String) (test : Float → Bool) (value : Value) : Except Failure Value :=
  match toNum? value with
  | none => typeFail [name, "() needs a number, not ", value.typeLabel]
  | some number => .ok (.ofBool (test number.toFloat))

def checkOrdered : List Value → Except Failure Unit
  | left :: right :: rest =>
    match order left right with
    | .mismatched first second => orderFailure first second
    | _ => checkOrdered (right :: rest)
  | _ => .ok ()

def sorted (value : Value) : Except Failure Value := do
  let items ← iterate value
  checkOrdered items
  return .ofList (sortLoosely items)

def stepCount (start stop step : Int) : Nat :=
  if 0 < step then ((stop - start + step - 1) / step).toNat
  else ((start - stop - step - 1) / (-step)).toNat

def progression (start stop step : Int) : List Int :=
  (List.range (stepCount start stop step)).map (fun (index : Nat) => start + index * step)

/-- The first term that is not before `stop`. -/
def firstPast (start stop step : Int) : Int := start + stepCount start stop step * step

/-- Whether counting by `step` within the 64-bit integers, where a sum past one end comes in again
at the other, ever reaches `stop`: of the numbers that differ from `start` by a multiple of the
common divisor of `step` and the count of these integers, the outermost decides. -/
def countingEnds (start stop step : Int) : Bool :=
  let stride : Int := Nat.gcd step.natAbs 0x10000000000000000
  let least := IntKind.int64.least
  let greatest := IntKind.int64.greatest
  if 0 < step then stop ≤ greatest - (greatest - start) % stride
  else least + (start - least) % stride ≤ stop

/-- The numbers before `stop` that counting by `step` meets, in at most `passes` passes through the
64-bit integers. -/
def countPasses (stop step : Int) : Nat → Int → List Int
  | 0, _ => []
  | passes + 1, start =>
    let numbers := progression start stop step
    let next := firstPast start stop step
    if fits next then numbers else numbers ++ countPasses stop step passes (wrap next)

/-- The numbers counted from `start` by `step` before `stop` is reached. No number is met twice, so
the passes are fewer than the 64-bit integers. -/
def countedRange (start stop step : Int) : Except Failure Value :=
  if step = 0 then fail .value "range() arg 3 must not be zero"
  else if countingEnds start stop step then
    .ok (.ofList ((countPasses stop step 0x10000000000000000 start).map .ofInt))
  else .error .unending

def rangeBounds : List Value → Except Failure (List Int)
  | [] => .ok []
  | value :: values =>
    match toInt? value with
    | none => typeFail ["range() arguments must be integers, not ", value.typeLabel]
    | some number => do
        let numbers ← rangeBounds values
        return number :: numbers

def range (arguments : List Value) : Except Failure Value := do
  match ← rangeBounds arguments with
  | [stop] => countedRange 0 stop 1
  | [start, stop] => countedRange start stop 1
  | [start, stop, step] => countedRange start stop step
  | _ => arityFailure "range" 1 3 arguments.length

def unaryBuiltin (name : String) (run : Value → Except Failure Value) :
    List Value → Except Failure Value
  | [value] => run value
  | arguments => arityFailure name 1 1 arguments.length

def callBuiltin (builtin : Builtin) (arguments : List Value) : Except Failure Value :=
  let single := fun run => unaryBuiltin builtin.label run arguments
  match builtin with
  | .len => single length
  | .abs => single absolute
  | .min => extreme "min" (· == .lt) arguments
  | .max => extreme "max" (· == .gt) arguments
  | .sum =>
    match arguments with
    | [items] => sumFrom (.ofInt 0) items
    | [items, start] => sumFrom start items
    | _ => arityFailure "sum" 1 2 arguments.length
  | .all => single (fun items => return .ofBool ((← iterate items).all truthy))
  | .any => single (fun items => return .ofBool ((← iterate items).any truthy))
  | .int => single toInteger
  | .float => single toReal
  | .str => single (fun value => .ok (.ofText (format value)))
  | .bool => single (fun value => .ok (.ofBool (truthy value)))
  | .round =>
    match arguments with
    | [value] => round value none
    | [value, places] => round value (some places)
    | _ => arityFailure "round" 1 2 arguments.length
  | .isnan => single (numberTest "isnan" Float.isNaN)
  | .isinf => single (numberTest "isinf" Float.isInf)
  | .isfinite => single (numberTest "isfinite" Float.isFinite)
  | .sorted => single sorted
  | .range =>
    if arguments.isEmpty || 3 < arguments.length then
      arityFailure "range" 1 3 arguments.length
    else range arguments

end Condition

end Covenant
