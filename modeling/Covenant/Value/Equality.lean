import Covenant.Value

/-!
# Equality of values

*Structural* equality asks for the same types at every node; a shared object equals itself
whatever it holds. *Key* equality is what finds an entry of a dictionary. *Contract* equality
compares numbers by value whatever their types, and everything else structurally.
-/

set_option autoImplicit false

namespace Covenant

def sameObject (left right : ObjectId) : Bool := left != 0 && left == right

mutual

/-- Whether a value, used as a dictionary key, finds another one. -/
def Value.sameKey : Value → Value → Bool
  | .nil, .nil => true
  | .bool leftType left, .bool rightType right => leftType = rightType && left == right
  | .int leftType left, .int rightType right => leftType = rightType && left == right
  | .float leftType left, .float rightType right => leftType = rightType && left == right
  | .text leftType left, .text rightType right => leftType = rightType && left == right
  | .list leftType _ left, .list rightType _ right =>
    leftType = rightType && Value.sameKeys left right
  | .record leftType left, .record rightType right =>
    leftType = rightType && Value.sameKeys left right
  | .pointer leftType left _, .pointer rightType right _ =>
    leftType = rightType && sameObject left right
  | .absent left, .absent right => left = right
  | .predicate leftObject left, .predicate rightObject right =>
    left.sameKey (sameObject leftObject rightObject) right
  | _, _ => false
termination_by structural left => left

def Value.sameKeys : List Value → List Value → Bool
  | [], [] => true
  | left :: lefts, right :: rights => left.sameKey right && Value.sameKeys lefts rights
  | _, _ => false
termination_by structural lefts => lefts

/-- Ranges and classes are held by reference, so they are the same key only as parts of one
object, which is `shared`. -/
def Predicate.sameKey (shared : Bool) : Predicate → Predicate → Bool
  | .number left, .number right => left == right
  | .range .., .range .. => shared
  | .text left, .text right => left == right
  | .boolean, .boolean => true
  | .nothing, .nothing => true
  | .function, .function => true
  | .constant left, .constant right => left.sameKey right
  | .unchecked none, .unchecked none => true
  | .unchecked (some left), .unchecked (some right) => left.sameKey shared right
  | .self, .self => true
  | .positionalArguments, .positionalArguments => true
  | .keywordArguments, .keywordArguments => true
  | .complement left, .complement right => left.sameKey shared right
  | .list left, .list right => left.sameKey shared right
  | .dict leftKey left, .dict rightKey right =>
    leftKey.sameKey shared rightKey && left.sameKey shared right
  | .array leftDimensions none, .array rightDimensions none => leftDimensions == rightDimensions
  | .array leftDimensions (some left), .array rightDimensions (some right) =>
    leftDimensions == rightDimensions && left.sameKey shared right
  | .generic _, .generic _ => shared
  | _, _ => false
termination_by structural left => left

end

def lookupKey (key : Value) (entries : List (Value × Value)) : Option Value :=
  (entries.find? (fun entry => key.sameKey entry.1)).map (·.2)

/-- The entries with the one under a key replaced, key and all since zeros of different signs find
each other, or a new entry at the end. -/
def insertKey (key value : Value) : List (Value × Value) → List (Value × Value)
  | [] => [(key, value)]
  | entry :: entries =>
    if key.sameKey entry.1 then (key, value) :: entries
    else entry :: insertKey key value entries

mutual

def Value.structurallyEqual : Value → Value → Bool
  | .nil, .nil => true
  | .bool leftType left, .bool rightType right => leftType = rightType && left == right
  | .int leftType left, .int rightType right => leftType = rightType && left == right
  | .float leftType left, .float rightType right => leftType = rightType && left == right
  | .text leftType left, .text rightType right => leftType = rightType && left == right
  | .list leftType leftObject left, .list rightType rightObject right =>
    leftType = rightType
      && (sameObject leftObject rightObject || Value.allStructurallyEqual left right)
  | .dict leftType leftObject left, .dict rightType rightObject right =>
    leftType = rightType
      && (sameObject leftObject rightObject
        || (left.length == right.length && Value.entriesWithin left right))
  | .pointer leftType leftObject left, .pointer rightType rightObject right =>
    leftType = rightType
      && (sameObject leftObject rightObject || left.structurallyEqual right)
  | .record leftType left, .record rightType right =>
    leftType = rightType && Value.allStructurallyEqual left right
  | .absent left, .absent right => left = right
  | .predicate leftObject left, .predicate rightObject right =>
    (sameObject leftObject rightObject && left.equalsItself) || left.structurallyEqual right
  | _, _ => false
termination_by structural left => left

def Value.allStructurallyEqual : List Value → List Value → Bool
  | [], [] => true
  | left :: lefts, right :: rights =>
    left.structurallyEqual right && Value.allStructurallyEqual lefts rights
  | _, _ => false
termination_by structural lefts => lefts

def Value.entriesWithin : List (Value × Value) → List (Value × Value) → Bool
  | [], _ => true
  | (key, value) :: entries, others =>
    key.sameKey key
      && (match lookupKey key others with
        | some other => value.structurallyEqual other
        | none => false)
      && Value.entriesWithin entries others
termination_by structural entries => entries

/-- Whether a predicate equals itself: a constant need not, unless a reference leads to it. -/
def Predicate.equalsItself : Predicate → Bool
  | .constant value => value.structurallyEqual value
  | .unchecked (some inner) | .complement inner | .list inner | .array _ (some inner) =>
    inner.equalsItself
  | .dict key value => key.equalsItself && value.equalsItself
  | _ => true
termination_by structural predicate => predicate

def Predicate.structurallyEqual : Predicate → Predicate → Bool
  | .number left, .number right => left == right
  | .range leftLow leftHigh left, .range rightLow rightHigh right =>
    leftLow == rightLow && leftHigh == rightHigh && left == right
  | .text left, .text right => left == right
  | .boolean, .boolean => true
  | .nothing, .nothing => true
  | .function, .function => true
  | .constant left, .constant right => left.structurallyEqual right
  | .unchecked none, .unchecked none => true
  | .unchecked (some left), .unchecked (some right) => left.structurallyEqual right
  | .self, .self => true
  | .positionalArguments, .positionalArguments => true
  | .keywordArguments, .keywordArguments => true
  | .allOf left, .allOf right => Predicate.allStructurallyEqual left right
  | .anyOf left, .anyOf right => Predicate.allStructurallyEqual left right
  | .complement left, .complement right => left.structurallyEqual right
  | .list left, .list right => left.structurallyEqual right
  | .tuple left, .tuple right => Predicate.allStructurallyEqual left right
  | .dict leftKey left, .dict rightKey right =>
    leftKey.structurallyEqual rightKey && left.structurallyEqual right
  | .oneOf left, .oneOf right => Value.allStructurallyEqual left right
  | .parameters left leftMandatory, .parameters right rightMandatory =>
    leftMandatory == rightMandatory && Predicate.entriesStructurallyEqual left right
  | .array leftDimensions none, .array rightDimensions none => leftDimensions == rightDimensions
  | .array leftDimensions (some left), .array rightDimensions (some right) =>
    leftDimensions == rightDimensions && left.structurallyEqual right
  | .generic left, .generic right => left = right
  | _, _ => false
termination_by structural left => left

def Predicate.allStructurallyEqual : List Predicate → List Predicate → Bool
  | [], [] => true
  | left :: lefts, right :: rights =>
    left.structurallyEqual right && Predicate.allStructurallyEqual lefts rights
  | _, _ => false
termination_by structural lefts => lefts

def Predicate.entriesStructurallyEqual : List (Text × Predicate) → List (Text × Predicate) → Bool
  | [], [] => true
  | (leftName, left) :: lefts, (rightName, right) :: rights =>
    leftName == rightName && left.structurallyEqual right
      && Predicate.entriesStructurallyEqual lefts rights
  | _, _ => false
termination_by structural lefts => lefts

end

def Value.contractEqual (left right : Value) : Bool :=
  match left.asFloat?, right.asFloat? with
  | some left, some right => left == right
  | none, none => left.structurallyEqual right
  | _, _ => false

mutual

def Value.unhashable? : Value → Option HostType
  | .list type _ items => if type.isComparable then Value.anyUnhashable? items else some type
  | .record type fields => if type.isComparable then Value.anyUnhashable? fields else some type
  | .dict type _ _ => some type
  | .function type _ => some type
  | .absent type => if type.isComparable then none else some type
  | .predicate _ inner => inner.unhashable?
  | _ => none
termination_by structural value => value

def Value.anyUnhashable? : List Value → Option HostType
  | [] => none
  | value :: values => value.unhashable?.or (Value.anyUnhashable? values)
termination_by structural values => values

def Predicate.unhashable? : Predicate → Option HostType
  | .constant value => value.unhashable?
  | .unchecked (some inner) | .complement inner | .list inner | .array _ (some inner) =>
    inner.unhashable?
  | .dict key value => key.unhashable?.or value.unhashable?
  | .allOf members => some (Predicate.allOf members).hostType
  | .anyOf members => some (Predicate.anyOf members).hostType
  | .tuple elements => some (Predicate.tuple elements).hostType
  | .oneOf members => some (Predicate.oneOf members).hostType
  | .parameters entries allMandatory => some (Predicate.parameters entries allMandatory).hostType
  | _ => none
termination_by structural predicate => predicate

end

end Covenant
