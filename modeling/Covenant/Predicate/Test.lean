import Covenant.Value.Conversion

/-!
# Testing values

Each predicate accepts a value or names what is wrong with it. The families of numbers are tested
in stages, each family adding one stage to those of its parent; a whole numeric array passes a
stage before the next begins.
-/

set_option autoImplicit false

namespace Covenant

def Predicate.refuse (predicate : Predicate) (value : Value) (reason : Text) : Failure :=
  .violation ⟨predicate.declaration, value, reason⟩

/-!
## Numbers
-/

/-- One requirement on a number: the family that makes it, how it is put to a single number and to
the items of an array, and what is said when either fails it. A single number is refused beyond a
bound and an item is asked to be within, so the two differ on what is not a number. -/
structure Stage where
  owner : NumberClass
  accepts : Float → Bool
  reason : String
  acceptsItem : Float → Bool
  arrayReason : String

namespace Stage

def notNan : Stage :=
  ⟨.extendedReal, fun number => !number.isNaN, "number cannot be nan",
    fun number => !number.isNaN, "number cannot be nan"⟩

def finite : Stage :=
  ⟨.number, fun number => number.isFinite, "number must not be nan or inf",
    fun number => number.isFinite, "number must not be nan or inf"⟩

def whole : Stage :=
  ⟨.integer, Number.isWhole, "invalid integer", Number.isWhole, "invalid integer"⟩

def notNegative : Stage :=
  ⟨.natural0, fun number => !(number < 0.0), "must be greater than or equal to 0",
    fun number => 0.0 ≤ number, "must be greater than or equal to 0"⟩

def aboveZero : Stage :=
  ⟨.natural1, fun number => !(number ≤ 0.0), "must be greater than 0",
    fun number => 0.0 < number, "must be greater than 0"⟩

def realNotNegative : Stage :=
  ⟨.positive0, fun number => !(number < 0.0), "value must be non-negative",
    fun number => 0.0 ≤ number, "values must be non-negative"⟩

def realAboveZero : Stage :=
  ⟨.positive, fun number => !(number ≤ 0.0), "value must be positive",
    fun number => 0.0 < number, "values must be positive"⟩

end Stage

def NumberClass.stages : NumberClass → List Stage
  | .numeric => []
  | .extendedReal => [.notNan]
  | .number => [.finite]
  | .integer => [.finite, .whole]
  | .natural0 => [.finite, .whole, .notNegative]
  | .natural1 => [.finite, .whole, .aboveZero]
  | .positive0 => [.finite, .realNotNegative]
  | .positive => [.finite, .realAboveZero]

def NumberClass.refuseKind (family : NumberClass) (value : Value) : Failure :=
  match family with
  | .numeric | .extendedReal => Predicate.refuse (.number family) value "invalid numeric"
  | _ => Predicate.refuse (.number .number) value "invalid number"

def runStages (value : Value) (number : Float) (stages : List Stage) : Except Failure Unit :=
  stages.forM fun stage =>
    if stage.accepts number then .ok ()
    else .error (Predicate.refuse (.number stage.owner) value stage.reason)

def NumberClass.test (family : NumberClass) (value : Value) : Except Failure Unit :=
  match value.asFloat? with
  | none => .error (family.refuseKind value)
  | some real => runStages value real family.stages

def Stage.testAll (numbers : List Float) (stage : Stage) : Except Failure Unit :=
  numbers.forM fun number =>
    if stage.acceptsItem number then .ok ()
    else .error (Predicate.refuse (.number stage.owner) (.ofFloat number) stage.arrayReason)

def NumberClass.testArray (family : NumberClass) (numbers : List Float) : Except Failure Unit :=
  family.stages.forM (Stage.testAll numbers)

namespace Interval

def includesLow : Interval → Bool
  | .closed | .closedOpen => true
  | _ => false

def includesHigh : Interval → Bool
  | .closed | .openClosed => true
  | _ => false

def check (interval : Interval) (low high number : Float) : Except Failure Unit :=
  let refuse (reason : Text) : Except Failure Unit :=
    .error (Predicate.refuse (.range low high interval) (.ofFloat number) reason)
  if number < low || high < number then
    refuse ("value must be between " ++ Number.text low ++ " and " ++ Number.text high)
  else if !interval.includesLow && number == low then
    refuse ("value must be strictly greater than " ++ Number.text low)
  else if !interval.includesHigh && number == high then
    refuse ("value must be strictly less than " ++ Number.text high)
  else .ok ()

def test (interval : Interval) (low high : Float) (value : Value) : Except Failure Unit :=
  match value.asFloat? with
  | none => .error (NumberClass.number.refuseKind value)
  | some number => do
      runStages value number NumberClass.number.stages
      interval.check low high number

def testArray (interval : Interval) (low high : Float) (numbers : List Float) :
    Except Failure Unit := do
  NumberClass.number.testArray numbers
  numbers.forM (interval.check low high)

end Interval

/-!
## Texts
-/

def TextClass.allows (family : TextClass) (byte : UInt8) : Bool :=
  match family with
  | .text => true
  | .identifier => Text.isLetter byte || Text.isDigit byte || byte == 45
  | .alphanumeric => Text.isLower byte || Text.isUpper byte || Text.isDigit byte
  | .latin => Text.isLower byte || Text.isUpper byte

def TextClass.reason : TextClass → String
  | .text => "non-string passed"
  | .identifier => "invalid identifier characters"
  | .alphanumeric => "invalid alphanumeric characters"
  | .latin => "invalid latin characters"

def TextClass.test (family : TextClass) (value : Value) : Except Failure Unit :=
  match value.plainText? with
  | none => .error (Predicate.refuse (.text family) value "non-string passed")
  | some bytes =>
    if family = .text || (!bytes.isEmpty && bytes.all family.allows) then .ok ()
    else .error (Predicate.refuse (.text family) value family.reason)

/-!
## Arrays
-/

def shapeProduct (shape : List Int) : Int :=
  shape.foldl (fun product extent => IntKind.int64.wrap (product * extent)) 1

def shapeFits (shape : List Int) (count : Nat) : Bool :=
  shape.all (0 ≤ ·) && shapeProduct shape == count

def arrayOf? : Value → Option (Value × Value)
  | .pointer (.pointer type) _ target =>
    if type = .numericArray then target.arrayParts? else none
  | value => value.arrayParts?

/-!
## All predicates
-/

def World.callable (world : World) (value : Value) : Bool :=
  match value with
  | .function .. => true
  | _ => (value.type?.bind (world.host.method? · "Call")).isSome

def ClassTable.hook? (classes : ClassTable) (type : HostType) :
    Option (Value → Except Failure Unit) :=
  (find? classes type).bind (·.test)

def ClassTable.runTests (classes : ClassTable) (value : Value) (types : List HostType) :
    Except Failure Unit :=
  types.forM fun type => (hook? classes type).elim (.ok ()) (· value)

/-- Tests a value for membership in a class, then runs the tests of the class's ancestry. -/
def World.testClass (world : World) (type : HostType) (value : Value) : Except Failure Unit :=
  match value.type? with
  | none => .error (Predicate.refuse (.generic type) value "value is nil")
  | some own =>
    if own = type || (type.isInterface && world.host.implements own type)
      || ClassTable.descends world.classes own type then
      ClassTable.runTests world.classes value (ClassTable.ancestry world.classes type)
    else
      .error (Predicate.refuse (.generic type) value
        ("value has type " ++ own.label))

def hasTextKeys (value : Value) : Bool :=
  value.entries?.isSome && (value.type?.map (fun type =>
    type.key.isText || type.key.isInterface)).getD false

mutual

def Predicate.test (world : World) : Predicate → Value → Except Failure Unit
  | .number family, value => family.test value
  | .range low high interval, value => interval.test low high value
  | .text family, value => family.test value
  | .boolean, value =>
    if value.plainBool?.isSome then .ok ()
    else .error (Predicate.refuse .boolean value "not a boolean")
  | .nothing, value =>
    if value.isNil then .ok () else .error (Predicate.refuse .nothing value "value is not nil")
  | .function, value =>
    if world.callable value then .ok ()
    else .error (Predicate.refuse .function value "not a function")
  | .constant only, value =>
    if only.isNil then .error (.invalidType "nil cannot be a constant")
    else if only.contractEqual value then .ok ()
    else .error (Predicate.refuse (.constant only) value "invalid constant")
  | .unchecked _, _ => .ok ()
  | .self, _ => .error .unboundSelf
  | .positionalArguments, value =>
    if value.type? = some .anySlice && value.items?.isSome then .ok ()
    else .error (Predicate.refuse .positionalArguments value "non-tuple passed")
  | .keywordArguments, value =>
    if value.type? = some .namedValues && value.entries?.isSome then .ok ()
    else .error (Predicate.refuse .keywordArguments value "non-dict passed")
  | .allOf members, value => Predicate.testAll world members value
  | .anyOf members, value =>
    if Predicate.testSome world members value then .ok ()
    else .error (Predicate.refuse (.anyOf members) value "neither type in Or holds")
  | .complement member, value =>
    match member.test world value with
    | .ok _ => .error (Predicate.refuse (.complement member) value "Not clause does not hold")
    | .error _ => .ok ()
  | .list element, value =>
    match value.items? with
    | none => .error (Predicate.refuse (.list element) value "non-list passed")
    | some items => items.forM (element.test world)
  | .tuple elements, value =>
    match value.items? with
    | none => .error (Predicate.refuse (.tuple elements) value "non-tuple passed")
    | some items =>
      if items.length = elements.length then Predicate.testTuple world elements items
      else .error (Predicate.refuse (.tuple elements) value
        ("tuple has " ++ Text.ofNat items.length
          ++ " elements, want " ++ Text.ofNat elements.length))
  | .dict key element, value =>
    match value.entries? with
    | none => .error (Predicate.refuse (.dict key element) value "non-dict passed")
    | some entries => entries.forM fun entry => do
        key.test world entry.1
        element.test world entry.2
  | .oneOf members, value =>
    if members.any (·.contractEqual value) then .ok ()
    else .error (Predicate.refuse (.oneOf members) value "value not in set")
  | .parameters declared allMandatory, value =>
    let refuse (reason : Text) : Except Failure Unit :=
      .error (Predicate.refuse (.parameters declared allMandatory) value reason)
    if hasTextKeys value then do
      let entries := value.entries?.getD []
      entries.forM fun entry =>
        match entry.1.plainText? with
        | none => refuse ("invalid parameter key " ++ entry.1.message)
        | some name =>
          match Predicate.testNamed world declared name entry.2 with
          | none => refuse ("invalid parameter key " ++ Text.quoted name)
          | some outcome => outcome
      let given := entries.filterMap (·.1.plainText?)
      let missing := (declared.map (·.1)).filter (fun name => !given.contains name)
      if allMandatory && !missing.isEmpty then
        refuse ("all keys are mandatory, but missing: " ++ Text.join ", " missing)
      else .ok ()
    else refuse "non-dict passed"
  | .array dimensions element, value =>
    let refuse (reason : Text) : Except Failure Unit :=
      .error (Predicate.refuse (.array dimensions element) value reason)
    match arrayOf? value with
    | none =>
      if value.type? = some (.pointer .numericArray) then
        refuse "value is not an Array, it is a nil *Array"
      else refuse ("value is not an Array, it is a " ++ value.typeLabel)
    | some (shape, data) =>
      let extents := shape.ints
      let numbers := data.floats
      if !shapeFits extents numbers.length then
        refuse ("shape " ++ shape.message ++ " does not match "
          ++ Text.ofNat numbers.length ++ " elements")
      else if dimensions != 0 && extents.length != dimensions then
        refuse ("array has " ++ Text.ofNat extents.length
          ++ " dimensions, want " ++ Text.ofNat dimensions)
      else
        match element with
        | none => .ok ()
        | some (.number family) => family.testArray numbers
        | some (.range low high interval) => interval.testArray low high numbers
        | some other => numbers.forM (fun number => other.test world (.ofFloat number))
  | .generic type, value => world.testClass type value
termination_by structural predicate => predicate

def Predicate.testAll (world : World) : List Predicate → Value → Except Failure Unit
  | [], _ => .ok ()
  | predicate :: predicates, value => do
      predicate.test world value
      Predicate.testAll world predicates value
termination_by structural predicates => predicates

def Predicate.testSome (world : World) : List Predicate → Value → Bool
  | [], _ => false
  | predicate :: predicates, value =>
    (predicate.test world value).isOk || Predicate.testSome world predicates value
termination_by structural predicates => predicates

def Predicate.testTuple (world : World) : List Predicate → List Value → Except Failure Unit
  | predicate :: predicates, item :: items => do
      predicate.test world item
      Predicate.testTuple world predicates items
  | _, _ => .ok ()
termination_by structural predicates => predicates

def Predicate.testNamed (world : World) :
    List (Text × Predicate) → Text → Value → Option (Except Failure Unit)
  | [], _, _ => none
  | (declared, predicate) :: entries, name, value =>
    if declared = name then some (predicate.test world value)
    else Predicate.testNamed world entries name value
termination_by structural entries => entries

end

def Predicate.accepts (world : World) (predicate : Predicate) (value : Value) : Bool :=
  (predicate.test world value).isOk

end Covenant
