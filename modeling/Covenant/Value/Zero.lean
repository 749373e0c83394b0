import Covenant.Value.Conversion

/-!
# Zero values

The value that a variable of a host type has before anything is assigned to it.
-/

set_option autoImplicit false

namespace Covenant.Value

/-- The zero value of a type; structures are nested at most `depth` deep. -/
def zeroWithin (host : Host) : Nat → HostType → Value
  | 0, _ => .nil
  | depth + 1, type =>
    match type.underlying with
    | .bool => .bool type false
    | .int _ => .int type 0
    | .float _ => .float type 0.0
    | .text => .text type []
    | .array length element => .list type 0 (List.replicate length (zeroWithin host depth element))
    | .struct =>
      if type = .numericArray then
        .record type [.absent (.slice .wordInt), .absent (.slice .double)]
      else .record type ((host.fields type).map (fun field => zeroWithin host depth field.type))
    | _ => zeroNil type

def zero (host : Host) (type : HostType) : Value := zeroWithin host 16 type

end Covenant.Value
