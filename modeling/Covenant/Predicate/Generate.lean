import Covenant.Predicate.Test

/-!
# Samples

Every predicate that can gives a finite list of samples at and near its boundaries. A conjunction
keeps the samples of its members that all members accept; negations and functions have none.
-/

set_option autoImplicit false

namespace Covenant

def longLength : Nat := 1000

def longText : Text := List.replicate longLength 97

def NumberClass.samples : NumberClass → List Value
  | .numeric =>
    [.ofFloat (Number.infinity false), .ofFloat (Number.infinity true),
      .ofFloat Number.notANumber, .ofWord 0, .ofWord 1, .ofWord (-1), .ofFloat 3.141,
      .ofFloat 1e-10, .ofFloat 1e10]
  | .extendedReal =>
    [.ofFloat (Number.infinity false), .ofFloat (Number.infinity true), .ofWord 0, .ofWord 1,
      .ofWord (-1), .ofFloat 3.141, .ofFloat 1e-10, .ofFloat 1e10]
  | .number =>
    [.ofWord 0, .ofWord 1, .ofWord (-1), .ofFloat 3.141, .ofFloat 1e-10, .ofFloat 1e10]
  | .integer => [.ofWord (-100), .ofWord (-1), .ofWord 0, .ofWord 1, .ofWord 100]
  | .natural0 => [.ofWord 0, .ofWord 1, .ofWord 10, .ofWord 100]
  | .natural1 => [.ofWord 1, .ofWord 2, .ofWord 10, .ofWord 100]
  | .positive0 => [.ofFloat 4.3445, .ofWord 1, .ofWord 10, .ofWord 0]
  | .positive => [.ofFloat 4.3445, .ofWord 1, .ofWord 10]

def TextClass.sampleTexts : TextClass → List Text
  | .text =>
    ["", "a", longText, " ", "abc123", "Two words sentence.", "\\", "%s", "2", "баклажан"]
  | .identifier =>
    ["_", "-", "a", longText, "abc123", "2", "test_underscore", "test-underscore",
      "-hyphenstart", "_underscorestart", "hyphenend-", "underscoreend_"]
  | .alphanumeric => ["a", longText, "abc123", "2"]
  | .latin => ["a", "P", "tree", "TfadFftsF", longText]

/-- How far inside a bound an interval is sampled. -/
def nearness : Float := 1e-5

/-- The bounds, points just inside them and the quarters between them that the interval accepts. -/
def Interval.samples (interval : Interval) (low high : Float) : List Value :=
  let near (number : Float) (step : Float) : List Float :=
    if number.isInf then [] else [number, number + step]
  let span := high - low
  let quarters : List Float :=
    if low.isInf || high.isInf then []
    else [low + span * 0.25, low + span * 0.5, low + span * 0.75]
  let points := near low nearness ++ near high (-nearness) ++ quarters
  (points.map Value.ofFloat).filter (fun sample => (interval.test low high sample).isOk)

/-- An array that has one number everywhere. Shapes with too many elements cannot be allocated. -/
def filledArray (shape : List Int) (number : Float) : Except Failure Value :=
  let count := shapeProduct shape
  if count < 0 || 0x200000000000 < count then
    .error (.crash "runtime error: makeslice: len out of range")
  else .ok (.ofArray shape (List.replicate count.toNat number))

def sampleShapes (dimensions : Nat) : List (List Int) :=
  if dimensions = 0 then [[20], [5, 5], [3, 3, 3], [200]] else [List.replicate dimensions 5]

def specialNumbers : List Float :=
  [0.0, 1.0, -1.0, Number.notANumber, Number.infinity false, Number.infinity true]

/-- Arrays filled with special numbers, one of each shape filled with the first element, and one
that goes through all the elements. -/
def arraySamples (dimensions : Nat) (elements : List Float) (accepts : Float → Bool) :
    Except Failure (List Value) := do
  let firstShape := (sampleShapes dimensions).headD []
  let filled ← (specialNumbers.filter accepts).mapM (filledArray firstShape)
  let shaped ← (sampleShapes dimensions).mapM (fun shape =>
    filledArray shape (elements.headD 0.0))
  let _ ← filledArray firstShape 0.0
  let count := (shapeProduct firstShape).toNat
  let mixed := (List.range count).map (fun place => elements.getD (place % elements.length) 0.0)
  return filled ++ shaped ++ [.ofArray firstShape mixed]

def Value.isUsableKey (key : Value) : Bool :=
  !key.isNil && key.unhashable?.isNone && match key with
    | .float .double number => !number.isNaN
    | _ => true

/-- The dictionary of the entries with usable keys, where later entries replace earlier ones. -/
def pairKeys (entries : List (Value × Value)) : Value :=
  .dict .anyMap 0 (entries.foldl (fun done (key, value) =>
    if key.isUsableKey then insertKey key value done else done) [])

def namedRecord (entries : List (Text × Value)) : Value :=
  .dict .namedValues 0 (entries.map (fun (name, value) => (.ofText name, value)))

/-- The samples of a class or of the first ancestor that has some, beginning with the nearest. -/
def World.classSamples (world : World) (type : HostType) : Except Failure (List Value) :=
  let chain := (ClassTable.ancestry world.classes type).reverse
  match chain.findSome? (fun ancestor =>
      (ClassTable.find? world.classes ancestor).bind (·.generate)) with
  | some samples => samples
  | none =>
    .error (.noGenerator (Predicate.generic type).declaration
      ("register a GenerateHook for " ++ type.label))

mutual

def Predicate.generate (world : World) : Predicate → Except Failure (List Value)
  | .number family => .ok family.samples
  | .range low high interval => .ok (interval.samples low high)
  | .text family => .ok (family.sampleTexts.map .ofText)
  | .boolean => .ok [.ofBool true, .ofBool false]
  | .nothing => .ok [.nil]
  | .function => .error (.noGenerator (Predicate.declaration .function) [])
  | .constant only =>
    if only.isNil then .error (.invalidType "nil cannot be a constant") else .ok [only]
  | .unchecked none => .ok []
  | .unchecked (some samples) => samples.generate world
  | .self => .error .unboundSelf
  | .positionalArguments => .ok [.ofList []]
  | .keywordArguments => .ok [.dict .namedValues 0 []]
  | .allOf members => do
      match ← Predicate.generateUnion world members with
      | none => .error (.noGenerator (Predicate.allOf members).declaration
          "no member type can generate")
      | some samples => return samples.filter (fun sample =>
        (Predicate.testAll world members sample).isOk)
  | .anyOf members => do
      match ← Predicate.generateUnion world members with
      | none => .error (.noGenerator (Predicate.anyOf members).declaration
          "no member type can generate")
      | some samples => return samples
  | .complement member =>
    .error (.noGenerator (Predicate.complement member).declaration
      "negations only generate inside And")
  | .list element => do
      let samples ← element.generate world
      return [.ofList [], .ofList samples]
        ++ (samples.take 1).map (fun first => .ofList (List.replicate longLength first))
  | .tuple elements => do
      let firsts ← Predicate.generateFirsts world
        (fun reason => .noGenerator (Predicate.tuple elements).declaration reason) elements
      return [.ofList firsts]
  | .dict key element => do
      let keys ← key.generate world
      let values ← element.generate world
      return [.dict .anyMap 0 [], pairKeys (keys.zip values)]
  | .oneOf members => .ok members
  | .parameters declared allMandatory => do
      let firsts ← Predicate.generateNamed world
        (fun reason => .noGenerator (Predicate.parameters declared allMandatory).declaration reason)
        declared
      return namedRecord firsts ::
        if allMandatory then []
        else namedRecord [] :: firsts.map (fun entry => namedRecord [entry])
  | .array dimensions none =>
    arraySamples dimensions [3.0, 4.0, 5.0, 6.0, 7.0, 8.0, 9.0, 10.0] (fun _ => true)
  | .array dimensions (some element) => do
      let samples ← element.generate world
      match samples.filterMap Value.asFloat? with
      | [] => .error (.noGenerator (Predicate.array dimensions (some element)).declaration
          "element type generated no numbers")
      | numbers =>
        arraySamples dimensions numbers
          (fun number => (element.test world (.ofFloat number)).isOk)
  | .generic type => world.classSamples type

/-- The samples of all members that can generate, and nothing where no member can. -/
def Predicate.generateUnion (world : World) :
    List Predicate → Except Failure (Option (List Value))
  | [] => .ok none
  | predicate :: predicates =>
    match predicate.generate world with
    | .error failure =>
      if failure.isNoGenerator then Predicate.generateUnion world predicates
      else .error failure
    | .ok samples => do
        let rest ← Predicate.generateUnion world predicates
        return some (samples ++ rest.getD [])

def Predicate.generateFirsts (world : World) (missing : Text → Failure) :
    List Predicate → Except Failure (List Value)
  | [] => .ok []
  | predicate :: predicates => do
      match ← predicate.generate world with
      | [] => .error (missing (predicate.declaration ++ " generated no values"))
      | first :: _ =>
        let rest ← Predicate.generateFirsts world missing predicates
        return first :: rest

def Predicate.generateNamed (world : World) (missing : Text → Failure) :
    List (Text × Predicate) → Except Failure (List (Text × Value))
  | [] => .ok []
  | (name, predicate) :: entries => do
      match ← predicate.generate world with
      | [] =>
        .error (missing ("parameter " ++ Text.quoted name ++ " generated no values"))
      | first :: _ =>
        let rest ← Predicate.generateNamed world missing entries
        return (name, first) :: rest

end

end Covenant
