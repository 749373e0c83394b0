import Covenant.Sample.Digest
import Covenant.Sample.Functions

/-!
# The sample program

A program to put under contract: its functions by name and signature, and its behaviour.
-/

set_option autoImplicit false

namespace Covenant.Sample

def plain (name : String) (parameters results : List HostType) : HostFunction :=
  ⟨name, "host." ++ Text.ofString name, ⟨parameters, false, results, false⟩⟩

def fallible (name : String) (parameters results : List HostType) : HostFunction :=
  ⟨name, "host." ++ Text.ofString name, ⟨parameters, false, results, true⟩⟩

def collecting (name : String) (parameters results : List HostType) : HostFunction :=
  ⟨name, "host." ++ Text.ofString name, ⟨parameters, true, results, false⟩⟩

def intFunction : HostType := Signature.type ⟨[.wordInt], false, [.wordInt], false⟩

def functions : List HostFunction :=
  [plain "Zero" [] [.wordInt],
    plain "Id" [.any] [.any],
    plain "Add" [.wordInt, .wordInt] [.wordInt],
    plain "Sub" [.wordInt, .wordInt] [.wordInt],
    plain "Neg" [.wordInt] [.wordInt],
    plain "Square_" [.wordInt] [.wordInt],
    plain "Double" [.wordInt] [.wordInt],
    plain "AddThree" [.double] [.double],
    plain "Mul" [.double, .double] [.double],
    plain "Half" [.float .single] [.float .single],
    plain "Upper" [.text] [.text],
    plain "Concat" [.text, .text] [.text],
    plain "Length" [.text] [.wordInt],
    plain "Not" [.bool] [.bool],
    plain "Int8" [.int .int8] [.int .int8],
    plain "Uint8" [.int .uint8] [.int .uint8],
    plain "Pair" [.any, .any] [.any, .any],
    plain "Ignore" [.wordInt] [],
    plain "First" [.slice .wordInt] [.wordInt],
    plain "Arr2" [.array 2 .wordInt] [.wordInt],
    plain "NameLen" [nameText] [.wordInt],
    plain "PointX" [.pointer point] [.double],
    plain "AreaOf" [shape] [.double],
    plain "Apply" [intFunction, .wordInt] [.wordInt],
    plain "BumpBy" [.pointer counter, .wordInt] [.wordInt],
    plain "KwCount" [.wordInt, .namedValues] [.wordInt],
    plain "TwoMaps" [.namedValues, .namedValues] [.wordInt],
    collecting "JoinAll" [.text, .slice .text] [.text],
    plain "Weird" [.wordInt] [.wordInt],
    plain "Mixed" [.wordInt] [.any],
    fallible "DivMod" [.wordInt, .wordInt] [.wordInt, .wordInt],
    fallible "Check" [.wordInt] [],
    plain "Panics" [.wordInt] [.wordInt],
    plain "Hang" [.wordInt] [.wordInt],
    fallible "Fails" [.wordInt] [.wordInt],
    collecting "SumAll" [.slice .wordInt] [.wordInt],
    plain "VarKw" [.wordInt, .anySlice, .namedValues] [.anySlice],
    plain "MapSum" [.map .text .wordInt] [.wordInt],
    plain "SetFirst" [.slice .wordInt] [.slice .wordInt],
    plain "SetAny" [.anySlice] [.anySlice],
    plain "Put" [.map .text .wordInt, .text, .wordInt] [.wordInt],
    ⟨"CounterAdd", "host.Counter.Add", ⟨[counter, .wordInt], false, [counter], false⟩⟩,
    ⟨"PointScale", "host.Point.Scale", ⟨[point, .double], false, [point], false⟩⟩]

def host : Host :=
  { fields, methods, functions, call, callMethod, digest?
    location := fun _ => .unknown
    delay? := fun _ _ _ => none }

def functionValue? (name : Text) : Option Value :=
  (host.function? name).map (fun found => .function found.signature.type (.host found.name))

end Covenant.Sample
