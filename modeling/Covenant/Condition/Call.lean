import Covenant.Condition.Builtins
import Covenant.Predicate.Generate

/-!
# Attributes and calls

The names after a dot are methods, fields and text keys. Besides the host's methods there are those
of predicates, numeric arrays and durations. A call converts its arguments to the parameter types.
-/

set_option autoImplicit false

namespace Covenant.Condition

/-- A stack of layers of names, the innermost first. A name means its binding in the innermost
layer that has it. -/
abbrev Scope := List Bindings

namespace Scope

def builtins : Bindings :=
  Builtin.every.map (fun builtin => (Text.ofString builtin.label, builtin.toValue))

def root : Scope := [builtins]

def find? (scope : Scope) (name : Text) : Option Value :=
  scope.findSome? (fun layer => layer.lookup name)

def push (scope : Scope) (layer : Bindings) : Scope := layer :: scope

def names (scope : Scope) : List Text := Text.sort (scope.flatMap (·.map (·.1))).eraseDups

end Scope

abbrev Outcome (α : Type) := Except Failure α × Memory

/-!
## Methods of the engine's own types
-/

def intervalType : HostType := .named "types.Interval" .wordInt

def Interval.number : Interval → Int
  | .closed => 0
  | .closedOpen => 1
  | .openClosed => 2
  | .opened => 3

def predicateMethods (predicate : Predicate) : List (Text × Signature) :=
  let real : Signature := ⟨[], false, [.double], false⟩
  let testArray : Text × Signature := ("TestArray", ⟨[.slice .double], false, [], true⟩)
  let common : List (Text × Signature) :=
    [("String", ⟨[], false, [.text], false⟩), ("Test", ⟨[.any], false, [], true⟩),
      ("Generate", ⟨[], false, [.anySlice], true⟩)]
  match predicate with
  | .number _ => testArray :: common
  | .range .. =>
    testArray :: ("Low", real) :: ("High", real)
      :: ("Interval", ⟨[], false, [intervalType], false⟩) :: common
  | _ => common

def samplesValue (predicate : Predicate) (samples : List Value) : Value :=
  match predicate, samples with
  | .unchecked _, [] | .anyOf _, [] | .allOf _, [] | .array .., [] => .absent .anySlice
  | _, _ => .ofList samples

def callPredicate (world : World) (predicate : Predicate) (name : Text) (arguments : List Value) :
    Except Failure (List Value) :=
  let numbers := (arguments.head?.map (·.floats)).getD []
  match predicate with
  | .number family =>
    if name == "TestArray" then do
      family.testArray numbers
      return []
    else common
  | .range low high interval =>
    if name == "TestArray" then do
      interval.testArray low high numbers
      return []
    else if name == "Low" then .ok [.ofFloat low]
    else if name == "High" then .ok [.ofFloat high]
    else if name == "Interval" then
      .ok [.int intervalType (Interval.number interval)]
    else common
  | _ => common
where
  common : Except Failure (List Value) :=
    if name == "Test" then do
      predicate.test world (arguments.headD .nil)
      return []
    else if name == "Generate" then do
      return [samplesValue predicate (← predicate.generate world)]
    else .ok [.ofText predicate.declaration]

def durationMethods : List (Text × Signature) :=
  let real : Signature := ⟨[], false, [.double], false⟩
  let whole : Signature := ⟨[], false, [.int64], false⟩
  [("Seconds", real), ("Minutes", real), ("Hours", real), ("Nanoseconds", whole),
    ("Microseconds", whole), ("Milliseconds", whole), ("String", ⟨[], false, [.text], false⟩),
    ("Abs", ⟨[], false, [.duration], false⟩),
    ("Truncate", ⟨[.duration], false, [.duration], false⟩),
    ("Round", ⟨[.duration], false, [.duration], false⟩)]

def truncateDuration (nanoseconds unit : Int) : Int :=
  if unit ≤ 0 then nanoseconds else nanoseconds - nanoseconds.tmod unit

/-- The nearest multiple of a unit, halves away from zero, or else the last duration on that side.
-/
def roundDuration (nanoseconds unit : Int) : Int :=
  if unit ≤ 0 then nanoseconds
  else
    let rest : Int := (nanoseconds.tmod unit).natAbs
    if 2 * rest < unit then nanoseconds - nanoseconds.tmod unit
    else if nanoseconds < 0 then max (nanoseconds - unit + rest) IntKind.int64.least
    else min (nanoseconds + unit - rest) IntKind.int64.greatest

def durationIn (unit nanoseconds : Int) : Value :=
  .ofFloat (Number.ofInt (nanoseconds.tdiv unit)
    + Number.ofInt (nanoseconds.tmod unit) / Number.ofInt unit)

def callDuration (nanoseconds : Int) (name : Text) (arguments : List Value) : List Value :=
  let unit := match arguments with
    | .int _ unit :: _ => unit
    | _ => 0
  if name == "Seconds" then [durationIn 1000000000 nanoseconds]
  else if name == "Minutes" then [durationIn 60000000000 nanoseconds]
  else if name == "Hours" then [durationIn 3600000000000 nanoseconds]
  else if name == "Nanoseconds" then [.ofInt nanoseconds]
  else if name == "Microseconds" then [.ofInt (nanoseconds.tdiv 1000)]
  else if name == "Milliseconds" then [.ofInt (nanoseconds.tdiv 1000000)]
  else if name == "Abs" then
    let magnitude : Int := nanoseconds.natAbs
    [.int .duration (min magnitude IntKind.int64.greatest)]
  else if name == "Truncate" then [.int .duration (truncateDuration nanoseconds unit)]
  else if name == "Round" then [.int .duration (roundDuration nanoseconds unit)]
  else [.ofText (durationText nanoseconds)]

def arrayMethods : List (Text × Signature) := [("Dims", ⟨[], false, [.wordInt], false⟩)]

def method? (host : Host) (value : Value) (name : Text) : Option Signature :=
  match value, value.type? with
  | .predicate _ inner, _ => (predicateMethods inner).lookup name
  | _, some type =>
    if type = .numericArray || type = .pointer .numericArray then arrayMethods.lookup name
    else if type = .duration || type = .pointer .duration then durationMethods.lookup name
    else host.method? type name
  | _, none => none

/-!
## Attributes
-/

def spellings : Text → List Text
  | first :: rest =>
    if Text.isLower first then [first :: rest, Text.capital first :: rest] else [first :: rest]
  | [] => [[]]

/-- The fields that can be read from outside, by name. Those of embedded structures come after
the structure's own. -/
def visibleFields (host : Host) : Nat → Value → List (Text × Value)
  | 0, _ => []
  | depth + 1, .record type values =>
    let fields := (host.fields type).zip values
    (fields.filterMap fun (field, value) =>
      if field.exported then some (field.name, value) else none)
      ++ fields.flatMap fun (field, value) =>
        if field.embedded then visibleFields host depth value else []
  | _, _ => []

def embeddingDepth : Nat := 8

def fieldsOf (host : Host) : Value → List (Text × Value)
  | .predicate _ (.constant value) => [("Value", value)]
  | .predicate _ (.unchecked samples) =>
    [("Of", (samples.map (Value.predicate 0)).getD .nil)]
  | .record type values =>
    if type = .numericArray then ([Text.ofString "Shape", Text.ofString "Data"]).zip values
    else visibleFields host embeddingDepth (.record type values)
  | _ => []

def arrayAttribute? (value : Value) (name : Text) : Option Value := do
  let (shape, data) ← value.arrayParts?
  if name == "shape" then some (.ofList (shape.ints.map .ofInt))
  else if name == "size" then some (.ofInt (data.items?.getD []).length)
  else if name == "ndim" then some (.ofInt shape.ints.length)
  else none

def pointsNowhere : Value → Bool
  | .pointer _ _ inner => pointsNowhere inner
  | .absent type => match type.underlying with
      | .pointer _ => true
      | _ => false
  | _ => false

def keyAttribute? (value : Value) (name : Text) : Option Value := do
  let entries ← value.entries?
  let keyType ← value.type?.map (·.key)
  if keyType.isText then lookupKey (.text keyType name) entries else none

def readAttribute (host : Host) (value : Value) (name : Text) : Except Failure Value :=
  let missing (pieces : List Text) : Except Failure Value :=
    fail .attribute (pieces.flatten ++ " has no attribute " ++ Text.quoted name)
  if value.isNil then missing ["None"]
  else
    match arrayAttribute? value name with
    | some found => .ok found
    | none =>
      let method := (spellings name).findSome? fun spelling =>
        (method? host value spelling).map fun signature =>
          Value.function signature.type (.method value spelling)
      match method with
      | some found => .ok found
      | none =>
        if pointsNowhere value then missing ["nil ", value.typeLabel]
        else
          let inner := target value
          let field := (spellings name).findSome? ((fieldsOf host inner).lookup ·)
          match (keyAttribute? inner name).or field with
          | some found => .ok found
          | none => missing [value.typeLabel]

/-!
## Calls
-/

def signatureOf? (host : Host) : Value → Option Signature
  | .function _ (.host name) => (host.function? name).map (·.signature)
  | .function _ (.method receiver name) => method? host receiver name
  | .absent type =>
    match type.underlying with
    | .func label =>
      (host.functions.find? (fun known => known.signature.label == label)).map (·.signature)
    | _ => none
  | _ => none

def wantedTypes (signature : Signature) (count : Nat) : Except Failure (List HostType) :=
  let fixed := signature.parameters.length - if signature.variadic then 1 else 0
  if signature.variadic then
    if count < fixed then
      typeFail [Text.ofNat count, " arguments, want at least ", Text.ofNat fixed]
    else
      let rest := ((signature.parameters.getLast?).map (·.element)).getD .any
      .ok (signature.parameters.take fixed ++ List.replicate (count - fixed) rest)
  else if count != fixed then
    typeFail [Text.ofNat count, " arguments, want ", Text.ofNat fixed]
  else .ok signature.parameters

def convertArguments (host : Host) (position : Nat) :
    List Value → List HostType → Except Failure (List Value)
  | value :: values, type :: types =>
    match value.convert host type with
    | .error cause =>
      typeFail ["argument ", Text.ofNat position, ": ", cause.message]
    | .ok converted => do
        let rest ← convertArguments host (position + 1) values types
        return converted.retype type :: rest
  | _, _ => .ok []

def collect (signature : Signature) (arguments : List Value) : List Value :=
  if signature.variadic then
    let fixed := signature.parameters.length - 1
    let type := signature.parameters.getLastD .anySlice
    let rest := arguments.drop fixed
    arguments.take fixed ++ [if rest.isEmpty then .absent type else .list type 0 rest]
  else arguments

def resultValue : List Value → Value
  | [] => .nil
  | [only] => only
  | several => .ofList several

def ofReply : Reply → Except Failure Value
  | .returned results => .ok (resultValue results)
  | .failed failure => .error failure
  | .crashed value => .error (.crash value)
  | .hung => .error .unending

def nowhereCrash (type : HostType) (name : Text) : Failure :=
  .crash ("value method " ++ type.element.label ++ "." ++ name
    ++ " called using nil *" ++ type.element.shortName ++ " pointer")

def callMethod (world : World) (receiver : Value) (name : Text) (arguments : List Value)
    (memory : Memory) : Outcome Value :=
  match receiver with
  | .predicate _ inner =>
    (resultValue <$> callPredicate world inner name arguments, memory)
  | .absent type =>
    if type = .pointer .numericArray || type = .pointer .duration then
      (.error (nowhereCrash type name), memory)
    else
      let (reply, memory) := world.host.callMethod receiver name arguments memory
      (ofReply reply, memory)
  | _ =>
    match target receiver, (target receiver).arrayParts? with
    | .int type number, _ =>
      if type = .duration then (.ok (resultValue (callDuration number name arguments)), memory)
      else
        let (reply, memory) := world.host.callMethod receiver name arguments memory
        (ofReply reply, memory)
    | _, some (shape, _) => (.ok (.ofWord shape.ints.length), memory)
    | _, none =>
      let (reply, memory) := world.host.callMethod receiver name arguments memory
      (ofReply reply, memory)

def enter (world : World) (function : Value) (arguments : List Value) (memory : Memory) :
    Outcome Value :=
  match function with
  | .function _ (.host name) =>
    let (reply, memory) := world.host.call name arguments memory
    (ofReply reply, memory)
  | .function _ (.method receiver name) =>
    callMethod world (memory.view receiver) name arguments memory
  | _ => (.error (.crash "reflect.Value.Call: call of nil function"), memory)

def call (world : World) (function : Value) (arguments : List Value) (memory : Memory) :
    Outcome Value :=
  match function with
  | .function _ (.builtin builtin) => (callBuiltin builtin arguments, memory)
  | .nil => (typeFail ["None is not callable"], memory)
  | _ =>
    match signatureOf? world.host function with
    | none => (typeFail [function.typeLabel, " is not callable"], memory)
    | some signature =>
      let converted := do
        let types ← wantedTypes signature arguments.length
        convertArguments world.host 1 arguments types
      match converted with
      | .error failure => (.error failure, memory)
      | .ok values => enter world function (collect signature values) memory

end Covenant.Condition
