import Covenant.Sample.Types

/-!
# Digests of the sample program

Numbers count with their widths and texts by their bytes, lists in order, entries and visible fields
in any order. Pointers are followed. Functions and addresses have no digest.
-/

set_option autoImplicit false

namespace Covenant.Sample

def mix (left right : UInt64) : UInt64 := (left * 0x100000001b3 ^^^ right) * 0x9e3779b97f4a7c15 + 1

def digestInt (bits : Nat) (number : Int) : UInt64 := mix (.ofNat bits) (.ofInt number)

def digestBytes (bytes : Text) : UInt64 :=
  bytes.foldl (fun digest byte => mix digest byte.toUInt64) 1

def digestedFields (type : HostType) : List Field :=
  if type = .numericArray then
    [⟨"Shape", true, false, .slice .wordInt⟩, ⟨"Data", true, false, .slice .double⟩]
  else fields type

mutual

def digest? : Value → Option UInt64
  | .nil => some (digestInt 64 0)
  | .bool _ truth => some (digestInt 8 (if truth then 1 else 0))
  | .int type number =>
    match type.underlying with
    | .int .uintptr => none
    | .int kind => some (digestInt kind.bits number)
    | _ => some (digestInt 64 number)
  | .float type number =>
    match type.underlying with
    | .float .single => some (digestInt 32 number.toFloat32.toBits.toNat)
    | _ => some (digestInt 64 number.toBits.toNat)
  | .text _ written => some (digestBytes written)
  | .list _ _ items => digestItems? 0 items
  | .dict _ _ entries => digestEntries? 1 entries
  | .pointer _ _ target => digest? target
  | .absent type =>
    match type.underlying with
    | .func _ => none
    | .slice _ => some 0
    | .map .. => some 1
    | _ => some (digestInt 64 0)
  | .record type values => digestFields? (digestBytes type.shortName) (digestedFields type) values
  | .function .. => none
  | .predicate _ (.constant value) => mix (digestBytes "Constant") <$> digest? value
  | .predicate _ inner => some (digestBytes inner.hostType.label)

def digestItems? (digest : UInt64) : List Value → Option UInt64
  | [] => some digest
  | item :: items => do digestItems? (mix digest (← digest? item)) items

def digestEntries? (digest : UInt64) : List (Value × Value) → Option UInt64
  | [] => some digest
  | (key, value) :: entries => do
      digestEntries? (digest + mix (← digest? key) (← digest? value)) entries

def digestFields? (digest : UInt64) : List Field → List Value → Option UInt64
  | field :: fields, value :: values =>
    if field.exported then do
      digestFields? (digest + mix (digestBytes field.name) (← digest? value)) fields values
    else digestFields? digest fields values
  | _, _ => some digest

end

end Covenant.Sample
