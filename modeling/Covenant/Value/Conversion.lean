import Covenant.Value.Equality
import Covenant.World

/-!
# Conversion

A value can take another host type when nothing is lost: numbers between kinds that hold them, lists
and dictionaries item by item, and values whose types differ in name only. Where the type already
fits, a shared object stays shared.
-/

set_option autoImplicit false

namespace Covenant

def Host.required (host : Host) (wanted : HostType) : List (Text × Signature) :=
  if wanted = .error then [("Error", ⟨[], false, [.text], false⟩)] else host.methods wanted

def Host.implements (host : Host) (type wanted : HostType) : Bool :=
  match wanted.underlying with
  | .any => true
  | .interface =>
    (host.required wanted).all fun (name, signature) =>
      (host.method? type name).any (fun found => found.label == signature.label)
  | _ => false

def Host.assignable (host : Host) (source target : HostType) : Bool :=
  source = target
    || (target.isInterface && host.implements source target)
    || (source.underlying = target.underlying && source.underlying != .struct
      && !(source.isNamed && target.isNamed))

/-- The fields of a structure. Those that are not exported belong to its package. -/
def Host.layout (host : Host) (type : HostType) : List (Field × Text) :=
  (host.fields type).map fun field =>
    (field, if field.exported then [] else type.label.takeWhile (· != 46))

/-- Whether types differ in their names at most. The structures of the contract language are like no
others. -/
def Host.alike (host : Host) (source target : HostType) : Bool :=
  let isOwn (type : HostType) : Bool := Text.startsWith type.label "types."
  source.underlying = target.underlying
    && (source.underlying != .struct
      || !isOwn source && !isOwn target && host.layout source = host.layout target)

/-- Pointer types without names may differ in the names of what they point to, too. -/
def Host.convertible (host : Host) (source target : HostType) : Bool :=
  host.alike source target || match source, target with
    | .pointer source, .pointer target => host.alike source target
    | _, _ => false

namespace IntKind

/-- Whether a signed word is changed when it is cut to the width of the kind. -/
def overflowsSigned (kind : IntKind) (word : Int64) : Bool :=
  let unused := Int64.ofNat (64 - kind.bits)
  (word <<< unused) >>> unused != word

/-- Whether an unsigned word is changed when it is cut to the width of the kind. -/
def overflowsUnsigned (kind : IntKind) (word : UInt64) : Bool :=
  let unused := UInt64.ofNat (64 - kind.bits)
  (word <<< unused) >>> unused != word

def storeSigned? (kind : IntKind) (word : Int64) : Option Int :=
  if kind.overflowsSigned word then none else some (kind.wrap word.toInt)

def storeUnsigned? (kind : IntKind) (word : UInt64) : Option Int :=
  if kind.overflowsUnsigned word then none else some (kind.wrap word.toNat)

/-- An integer of one kind in another kind, if it fits. It travels in a word with its own sign,
which becomes a word with the other. -/
def convert? (source target : IntKind) (number : Int) : Option Int :=
  match source.isSigned, target.isSigned with
  | true, true => target.storeSigned? (.ofInt number)
  | true, false =>
    let word := Int64.ofInt number
    if word < 0 then none else target.storeUnsigned? word.toUInt64
  | false, true =>
    let word := UInt64.ofInt number
    if 0x7fffffffffffffff < word then none else target.storeSigned? word.toInt64
  | false, false => target.storeUnsigned? (.ofInt number)

end IntKind

namespace Value

def retype (target : HostType) (value : Value) : Value :=
  if target.isInterface then value
  else
    match value with
    | .bool _ value => .bool target value
    | .int _ value => .int target value
    | .float _ value => .float target value
    | .text _ value => .text target value
    | .list _ object items => .list target object items
    | .dict _ object entries => .dict target object entries
    | .pointer _ object inner => .pointer target object inner
    | .absent _ => .absent target
    | .record _ fields => .record target fields
    | .function _ ref => .function target ref
    | other => other

def zeroNil (target : HostType) : Value :=
  if target.isInterface then .nil else .absent target

def convertNumber? (value : Value) (target : HostType) : Option Value :=
  match target.underlying, value with
  | .int kind, .int type number =>
    match type.underlying with
    | .int source => (source.convert? kind number).map (.int target)
    | _ => none
  | .int kind, .float _ number =>
    if Number.isWhole number then
      match Number.Rounding.towardZero.toInt? number with
      | some whole => if kind.holds whole then some (.int target whole) else none
      | none => none
    else none
  | .float .double, value => value.asFloat?.map (.float target)
  | .float .single, value => value.asFloat?.map (fun number => .float target (Number.toSingle number))
  | _, _ => none

def refusal (value : Value) (target : HostType) (ending : String) : Failure :=
  .plain ("cannot use " ++ value.message ++ " (" ++ value.typeLabel
    ++ ") as " ++ target.label ++ Text.ofString ending)

/-- A value of a type that differs in its name. -/
def convertSameShape? (host : Host) (value : Value) (target : HostType) : Option Value :=
  if value.type?.any (host.convertible · target) then some (value.retype target) else none

def renamed (host : Host) (value : Value) (target : HostType) : Except Failure Value :=
  (value.convertSameShape? host target).elim (.error (value.refusal target "")) .ok

/-- Keeps a value that can be assigned, or points to it where a pointer is wanted. -/
def assigned (host : Host) (target : HostType) (value : Value)
    (otherwise : Except Failure Value) : Except Failure Value :=
  let type := value.type?.getD .any
  if host.assignable type target then .ok value
  else
    match target.underlying with
    | .pointer inner =>
      if host.assignable type inner then .ok (.pointer target 0 (value.retype inner))
      else otherwise
    | _ => otherwise

end Value

mutual

def Value.convert (host : Host) (target : HostType) : Value → Except Failure Value
  | .nil =>
    if target.hasNil then .ok (.zeroNil target)
    else .error (.plain ("cannot use nil as " ++ target.label))
  | .int type number =>
    let value := Value.int type number
    if host.assignable type target then .ok value
    else (value.convertNumber? target).elim (.error (value.refusal target " without loss")) .ok
  | .float type number =>
    let value := Value.float type number
    if host.assignable type target then .ok value
    else (value.convertNumber? target).elim (.error (value.refusal target " without loss")) .ok
  | .list type object items =>
    let value := Value.list type object items
    value.assigned host target (match target.underlying with
      | .slice element => do
          let items ← Value.convertItems host element 0 items
          return .list target 0 items
      | .array length element =>
        if items.length = length then do
          let items ← Value.convertItems host element 0 items
          return .list target 0 items
        else .error (value.refusal target "")
      | _ => .error (value.refusal target ""))
  | .dict type object entries =>
    let value := Value.dict type object entries
    value.assigned host target (match target.underlying with
      | .map key element => do
          let entries ← Value.convertEntries host key element [] entries
          return .dict target 0 entries
      | _ => .error (value.refusal target ""))
  | .absent type =>
    let value := Value.absent type
    value.assigned host target (match type.underlying, target.underlying with
      | .slice _, .slice _ => .ok (.list target 0 [])
      | .slice _, .array 0 _ => .ok (.list target 0 [])
      | .map .., .map .. => .ok (.dict target 0 [])
      | .pointer _, _ | .func _, _ => value.renamed host target
      | _, _ => .error (value.refusal target ""))
  | value => value.assigned host target (value.renamed host target)

def Value.convertItems (host : Host) (target : HostType) (position : Nat) :
    List Value → Except Failure (List Value)
  | [] => .ok []
  | item :: items => do
      let item ← (item.convert host target).mapError
        (.within ("element " ++ Text.ofNat position) ·)
      let items ← Value.convertItems host target (position + 1) items
      return item.retype target :: items

def Value.convertEntries (host : Host) (keyTarget valueTarget : HostType)
    (done : List (Value × Value)) : List (Value × Value) → Except Failure (List (Value × Value))
  | [] => .ok done
  | (key, value) :: entries => do
      let newKey ← (key.convert host keyTarget).mapError
        (.within ("key " ++ key.message) ·)
      let newValue ← (value.convert host valueTarget).mapError
        (.within ("value for " ++ key.message) ·)
      Value.convertEntries host keyTarget valueTarget
        (insertKey (newKey.retype keyTarget) (newValue.retype valueTarget) done) entries

end

end Covenant
