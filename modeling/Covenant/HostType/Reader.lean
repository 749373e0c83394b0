import Covenant.HostType

/-!
# Reading host types

A host type is read from its label. The names of the host's own types have to be known.
-/

set_option autoImplicit false

namespace Covenant.HostType

def basics : List HostType :=
  [.bool, HostType.text, .float .single, .float .double, .int .int, .int .int8, .int .int16,
    .int .int32, .int .int64, .int .uint, .int .uint8, .int .uint16, .int .uint32, .int .uint64,
    .error, .duration, .numericArray]

def isNameByte (byte : UInt8) : Bool := Text.isLetter byte || Text.isDigit byte || byte == 46

def readFront (known : List HostType) : Nat → Text → Option (HostType × Text)
  | 0, _ => none
  | depth + 1, source =>
    if Text.startsWith source "[]" then do
      let (element, rest) ← readFront known depth (source.drop 2)
      return (.slice element, rest)
    else if Text.startsWith source "map[" then do
      let (key, rest) ← readFront known depth (source.drop 4)
      let (value, rest) ← readFront known depth (rest.drop 1)
      return (.map key value, rest)
    else if Text.startsWith source "*" then do
      let (target, rest) ← readFront known depth (source.drop 1)
      return (.pointer target, rest)
    else if Text.startsWith source "[" then do
      let digits := (source.drop 1).takeWhile Text.isDigit
      let (element, rest) ← readFront known depth (source.drop (digits.length + 2))
      return (.array (Text.digitsValue digits) element, rest)
    else if Text.startsWith source "interface {}" then some (.any, source.drop 12)
    else if Text.startsWith source "func(" then some (.func source, [])
    else
      let name := source.takeWhile isNameByte
      (known.find? (fun type => type.label == name)).map (fun type => (type, source.drop name.length))

def read? (hostTypes : List HostType) (source : Text) : Option HostType :=
  match readFront (basics ++ hostTypes) (source.length + 1) source with
  | some (type, []) => some type
  | _ => none

end Covenant.HostType
