import Covenant.Number.Decimal
import Covenant.Text.Quoted
import Covenant.Value

/-!
# How values stand in messages

Lists are bracketed, dictionaries list their entries by ascending key, structures show every
field in order, and a predicate shows how it was declared. A pointer to a container at the top
shows the container after `&`.
-/

set_option autoImplicit false

namespace Covenant

/-!
## Elapsed time
-/

def fractionText (count places : Nat) : Text :=
  let unit := Nat.pow 10 places
  let whole := Text.ofNat (count / unit)
  let digits := Number.padZeros places (Text.ofNat (count % unit))
  let digits := Number.trimZeros digits
  if digits.isEmpty then whole else whole ++ [46] ++ digits

def durationText (nanoseconds : Int) : Text :=
  let count := nanoseconds.natAbs
  let body : Text :=
    if count = 0 then "0s"
    else if count < 1000 then Text.ofNat count ++ "ns"
    else if count < 1000000 then fractionText count 3 ++ "µs"
    else if count < 1000000000 then fractionText count 6 ++ "ms"
    else
      let seconds := fractionText (count % (60000000000)) 9 ++ "s"
      let minutes := count / (60000000000)
      if minutes = 0 then seconds
      else
        let rest := Text.ofNat (minutes % 60) ++ "m" ++ seconds
        if minutes < 60 then rest
        else Text.ofNat (minutes / 60) ++ "h" ++ rest
  Number.signText (nanoseconds < 0) ++ body

/-!
## Order of keys
-/

/-- Orders doubles with not-a-number first. -/
def compareFloats (left right : Float) : Ordering :=
  if left < right then .lt
  else if right < left then .gt
  else if left == right then .eq
  else if left.isNaN && right.isNaN then .eq
  else if left.isNaN then .lt
  else .gt

mutual

def Value.compareKeys : Value → Value → Ordering
  | .bool _ left, .bool _ right => compare left right
  | .int leftType left, .int rightType right =>
    (Text.compare leftType.label rightType.label).then (compare left right)
  | .float leftType left, .float rightType right =>
    (Text.compare leftType.label rightType.label).then (compareFloats left right)
  | .text leftType left, .text rightType right =>
    (Text.compare leftType.label rightType.label).then (Text.compare left right)
  | .list leftType _ left, .list rightType _ right =>
    (Text.compare leftType.label rightType.label).then (Value.compareKeyLists left right)
  | .record leftType left, .record rightType right =>
    (Text.compare leftType.label rightType.label).then (Value.compareKeyLists left right)
  | .pointer leftType left _, .pointer rightType right _ =>
    (Text.compare leftType.label rightType.label).then (compare left right)
  | .nil, .nil => .eq
  | .nil, _ => .lt
  | _, .nil => .gt
  | left, right => Text.compare left.typeLabel right.typeLabel

def Value.compareKeyLists : List Value → List Value → Ordering
  | [], [] => .eq
  | [], _ :: _ => .lt
  | _ :: _, [] => .gt
  | left :: lefts, right :: rights =>
    (Value.compareKeys left right).then (Value.compareKeyLists lefts rights)

end

/-!
## Text
-/

def NumberClass.label : NumberClass → String
  | .numeric => "Numeric"
  | .extendedReal => "ExtendedReal"
  | .number => "Number"
  | .integer => "Integer"
  | .natural0 => "Natural0"
  | .natural1 => "Natural1"
  | .positive0 => "Positive0"
  | .positive => "Positive"

def TextClass.label : TextClass → String
  | .text => "String"
  | .identifier => "Identifier"
  | .alphanumeric => "Alphanumeric"
  | .latin => "Latin"

def Interval.label : Interval → String
  | .closed => "Range"
  | .closedOpen => "RangeClosedOpen"
  | .openClosed => "RangeOpenClosed"
  | .opened => "RangeOpen"

def addressText : Text := "0xc000000000"

def absentText (type : HostType) : Text :=
  match type.underlying with
  | .slice _ => "[]"
  | .map .. => "map[]"
  | _ => "<nil>"

def showsTarget : Value → Bool
  | .list .. | .dict .. | .record .. => true
  | .absent type => match type.underlying with
      | .slice _ | .map .. => true
      | _ => false
  | _ => false

def enclosed (opening separator closing : String) (parts : List Text) : Text :=
  Text.ofString opening ++ Text.join separator parts ++ Text.ofString closing

def inKeyOrder (entries : List (Value × Text)) : List Text :=
  (entries.mergeSort (fun left right => left.1.compareKeys right.1 != .gt)).map (·.2)

mutual

def Value.show (top : Bool) : Value → Text
  | .nil => "<nil>"
  | .bool _ value => if value then "true" else "false"
  | .int type value => if type = .duration then durationText value else Text.ofInt value
  | .float type value =>
    if type.underlying = .float .single then Number.singleText value else Number.text value
  | .text _ value => value
  | .list _ _ items => enclosed "[" " " "]" (Value.showAll items)
  | .dict _ _ entries => enclosed "map[" " " "]" (inKeyOrder (Value.showEntries entries))
  | .pointer _ _ target =>
    if top && showsTarget target then 38 :: target.show false else addressText
  | .absent type => absentText type
  | .record _ fields => enclosed "\x7b" " " "\x7d" (Value.showAll fields)
  | .function _ _ => addressText
  | .predicate _ inner => inner.declaration

def Value.showAll : List Value → List Text
  | [] => []
  | value :: values => value.show false :: Value.showAll values

def Value.showEntries : List (Value × Value) → List (Value × Text)
  | [] => []
  | (key, value) :: entries =>
    (key, key.show false ++ 58 :: value.show false) :: Value.showEntries entries

def Predicate.declaration : Predicate → Text
  | .number family => family.label
  | .range low high interval =>
    Text.ofString interval.label ++ enclosed "(" ", " ")" [Number.text low, Number.text high]
  | .text family => family.label
  | .boolean => "Boolean"
  | .nothing => "Nothing"
  | .function => "Function"
  | .constant value =>
    enclosed "Constant(" "" ")" [match value with
      | .text .text literal => Text.quoted literal
      | other => other.show true]
  | .unchecked none => "Unchecked"
  | .unchecked (some samples) => enclosed "Unchecked(" "" ")" [samples.declaration]
  | .self => "Self"
  | .positionalArguments => "PositionalArguments"
  | .keywordArguments => "KeywordArguments"
  | .allOf members => enclosed "And(" ", " ")" (Predicate.declarations members)
  | .anyOf members => enclosed "Or(" ", " ")" (Predicate.declarations members)
  | .complement member => enclosed "Not(" "" ")" [member.declaration]
  | .list element => enclosed "List(" "" ")" [element.declaration]
  | .tuple elements => enclosed "Tuple(" ", " ")" (Predicate.declarations elements)
  | .dict key value => enclosed "Dict(" ", " ")" [key.declaration, value.declaration]
  | .oneOf members => enclosed "Set([" ", " "])" (Value.literals members)
  | .parameters entries allMandatory =>
    enclosed "ParametersDict(\x7b" ", " "\x7d" (Predicate.entryDeclarations entries)
      ++ Text.ofString (if allMandatory then ", all_mandatory=True)" else ")")
  | .array dimensions none =>
    enclosed "NDArray(d=" ", t=" ")" [Text.ofNat dimensions, "None"]
  | .array dimensions (some element) =>
    enclosed "NDArray(d=" ", t=" ")" [Text.ofNat dimensions, element.declaration]
  | .generic type => enclosed "Generic(" "" ")" [type.label]

def Predicate.declarations : List Predicate → List Text
  | [] => []
  | predicate :: predicates => predicate.declaration :: Predicate.declarations predicates

def Predicate.entryDeclarations : List (Text × Predicate) → List Text
  | [] => []
  | (name, predicate) :: entries =>
    (Text.quoted name ++ ": " ++ predicate.declaration)
      :: Predicate.entryDeclarations entries

def Value.literals : List Value → List Text
  | [] => []
  | value :: values =>
    (match value with
      | .text .text literal => Text.quoted literal
      | other => other.show true) :: Value.literals values

end

namespace Value

def message (value : Value) : Text := value.show true

def report (value : Value) : Text :=
  match value with
  | .nil => "nil"
  | .text .text literal => Text.quoted literal
  | other => other.message

end Value

end Covenant
