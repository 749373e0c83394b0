import Covenant.Sample.Types
import Covenant.Value.Equality

/-!
# Behaviour of the sample program

What the functions and methods of the sample program do. Arguments have the parameter types; the
arguments of a collecting parameter come as one list.
-/

set_option autoImplicit false

namespace Covenant.Sample

def word (value : Int) : Value := .ofWord (IntKind.int.wrap value)

def nothingThere : Reply :=
  .crashed "runtime error: invalid memory address or nil pointer dereference"

def give (value : Value) : Reply := .returned [value]

/-!
## Methods
-/

/-- A counter after counting on, and its new count. -/
def bumped? (amount : Int) : Value → Option (Value × Value)
  | .record type [.int kind count] =>
    let total := word (count + amount)
    some (.record type [.int kind (IntKind.int.wrap (count + amount))], total)
  | .record type [.record inner [.int kind count], label] =>
    let total := word (count + amount)
    some (.record type [.record inner [.int kind (IntKind.int.wrap (count + amount))], label], total)
  | _ => none

def bump (receiver : Value) (amount : Int) (memory : Memory) : Reply × Memory :=
  match receiver with
  | .pointer type object target =>
    match bumped? amount target with
    | some (changed, total) => (give total, memory.write object (.pointer type object changed))
    | none => (nothingThere, memory)
  | _ => (nothingThere, memory)

def callOnValue (receiver : Value) (name : Text) (arguments : List Value) : Reply :=
  match receiver, arguments with
  | .record _ [.float _ x, .float _ y], [.float _ factor] =>
    give (.record point [.ofFloat (x * factor), .ofFloat (y * factor)])
  | .record _ [.float _ x, .float _ y], _ =>
    if name == "Norm2" then give (.ofFloat (x * x + y * y)) else give (.ofFloat x)
  | .record _ [.int _ count], [.int _ amount]
  | .record _ [.record _ [.int _ count], _], [.int _ amount] =>
    give (.record counter [word (count + amount)])
  | .record _ [.float _ side], _ => give (.ofFloat (side * side))
  | _, _ => give (word 1)

def callMethod (receiver : Value) (name : Text) (arguments : List Value) (memory : Memory) :
    Reply × Memory :=
  if name == "Bump" then
    match arguments with
    | [.int _ amount] => bump receiver amount memory
    | _ => (nothingThere, memory)
  else
    match receiver with
    | .pointer _ _ target => (callOnValue target name arguments, memory)
    | .absent type =>
      (.crashed ("value method " ++ type.element.label ++ "." ++ name
        ++ " called using nil *" ++ type.element.shortName ++ " pointer"), memory)
    | other => (callOnValue other name arguments, memory)

/-!
## Functions without effects
-/

def lengthOf (value : Value) : Int :=
  match value with
  | .list _ _ items | .record _ items => items.length
  | .dict _ _ entries => entries.length
  | _ => 0

def intsOf : Value → List Int
  | .list _ _ items => items.filterMap fun
      | .int _ number => some number
      | _ => none
  | .dict _ _ entries => entries.filterMap fun
      | (_, .int _ number) => some number
      | _ => none
  | _ => []

def textsOf : Value → List Text
  | .list _ _ items => items.filterMap fun
      | .text _ text => some text
      | _ => none
  | _ => []

def callInts (name : String) (numbers : List Int) : Option Reply :=
  match name, numbers with
  | "Zero", [] => some (give (word 0))
  | "Add", [a, b] => some (give (word (a + b)))
  | "Sub", [a, b] => some (give (word (a - b)))
  | "Neg", [n] => some (give (word (-n)))
  | "Square_", [n] => some (give (word (n * n)))
  | "Double", [n] => some (give (word (n * 2)))
  | "Int8", [n] => some (give (.int (.int .int8) n))
  | "Uint8", [n] => some (give (.int (.int .uint8) n))
  | "Ignore", [_] => some (.returned [])
  | "Weird", [n] => some (give (word (if n = 0 then 100 else n)))
  | "Mixed", [n] => some (give (if n < 0 then .ofText "negative" else word n))
  | "DivMod", [a, b] =>
    some (if b = 0 then .failed (.plain "divide by zero")
      else .returned [word (a.tdiv b), word (a.tmod b)])
  | "Check", [n] => some (if n < 0 then .failed (.plain "negative input") else .returned [])
  | "Panics", [n] =>
    some (if n < 0 then .crashed ("bad n: " ++ Text.ofInt n) else give (word n))
  | "Hang", [n] => some (if n = 0 then .hung else give (word n))
  | "Fails", [n] =>
    some (if n = 1 then .failed (.internal "cache corrupted")
      else if n = 10 then
        .failed (.within "outer" (.returnType "inner" (word 10) "String" none))
      else if n = 100 then .failed (.plain "plain")
      else give (word n))
  | _, _ => none

def callPure (name : String) (arguments : List Value) : Reply :=
  match name, arguments with
  | "Id", [value] => give value
  | "AddThree", [.float _ x] => give (.ofFloat (x + 3.0))
  | "Mul", [.float _ x, .float _ scale] => give (.ofFloat (x * scale))
  | "Half", [.float _ x] => give (.float (.float .single) (Number.toSingle (x / 2.0)))
  | "Upper", [.text _ text] => give (.ofText (text.map Text.capital))
  | "Concat", [.text _ left, .text _ right] => give (.ofText (left ++ right))
  | "Length", [.text _ text] => give (word text.length)
  | "NameLen", [.text _ text] => give (word text.length)
  | "Not", [.bool _ truth] => give (.ofBool (!truth))
  | "Pair", [left, right] => .returned [right, left]
  | "First", [.list _ _ (first :: _)] => give first
  | "First", _ => .crashed "runtime error: index out of range [0] with length 0"
  | "Arr2", [items] => give (word ((intsOf items).foldl (· + ·) 0))
  | "SumAll", [items] => give (word ((intsOf items).foldl (· + ·) 0))
  | "MapSum", [entries] => give (word ((intsOf entries).foldl (· + ·) 0))
  | "PointX", [.pointer _ _ (.record _ (x :: _))] => give x
  | "AreaOf", [.nil] => nothingThere
  | "AreaOf", [receiver] => (callMethod receiver "Area" [] .empty).1
  | "KwCount", [.int _ first, named] => give (word (first + lengthOf named))
  | "TwoMaps", [first, second] => give (word (10 * lengthOf first + lengthOf second))
  | "JoinAll", [.text _ separator, parts] => give (.ofText (Text.join separator (textsOf parts)))
  | "VarKw", [first, rest, named] =>
    give (.ofList [first, word (lengthOf rest), word (lengthOf named)])
  | "CounterAdd", [receiver, amount] => (callMethod receiver "Add" [amount] .empty).1
  | "PointScale", [receiver, factor] => (callMethod receiver "Scale" [factor] .empty).1
  | _, _ => nothingThere

/-!
## Functions that write
-/

def setFirst (value : Value) (items : Value) (memory : Memory) : Reply × Memory :=
  match items with
  | .list type object (_ :: rest) =>
    let changed := Value.list type object (value :: rest)
    (give changed, memory.write object changed)
  | _ => (give items, memory)

def put (entries key value : Value) (memory : Memory) : Reply × Memory :=
  match entries with
  | .dict type object pairs =>
    let changed := insertKey key value pairs
    (give (word changed.length), memory.write object (.dict type object changed))
  | _ => (.crashed "assignment to entry in nil map", memory)

def callPlain (name : String) (arguments : List Value) (memory : Memory) : Reply × Memory :=
  match name, arguments with
  | "SetFirst", [items] => setFirst (word 99) items memory
  | "SetAny", [items] => setFirst (word 99) items memory
  | "Put", [entries, key, value] => put entries key value memory
  | "BumpBy", [receiver, .int _ amount] => bump receiver amount memory
  | _, _ =>
    let numbers := arguments.filterMap fun
      | .int _ number => some number
      | _ => none
    let whole := if numbers.length = arguments.length then callInts name numbers else none
    (whole.getD (callPure name arguments), memory)

def call (name : Text) (arguments : List Value) (memory : Memory) : Reply × Memory :=
  let label := String.ofList (name.map (fun byte => Char.ofNat byte.toNat))
  match label, arguments with
  | "Apply", [.function _ (.host inner), argument] =>
    callPlain (String.ofList (inner.map (fun byte => Char.ofNat byte.toNat))) [argument] memory
  | "Apply", [.function _ (.method receiver inner), argument] =>
    callMethod (memory.view receiver) inner [argument] memory
  | "Apply", _ => (nothingThere, memory)
  | _, _ => callPlain label arguments memory

end Covenant.Sample
