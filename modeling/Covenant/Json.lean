import Covenant.Text

/-!
# JSON

Documents with numbers kept as they are written and objects as lists of members. Documents are
printed with two spaces of indentation, and characters that mean something in HTML are escaped.
-/

set_option autoImplicit false

namespace Covenant

inductive Json where
  | null
  | bool (value : Bool)
  | number (literal : Text)
  | text (value : Text)
  | list (items : List Json)
  | object (members : List (Text × Json))

namespace Json

def ofInt (value : Int) : Json := .number (Text.ofInt value)

/-!
## Printing
-/

def unitEscape (unit : Nat) : Text := "\\u" ++ Text.hex 4 unit

def escapePoint (point : Nat) : Text :=
  if point = 34 then "\\\""
  else if point = 92 then "\\\\"
  else if point = 8 then "\\b"
  else if point = 12 then "\\f"
  else if point = 10 then "\\n"
  else if point = 13 then "\\r"
  else if point = 9 then "\\t"
  else if point < 32 || point = 60 || point = 62 || point = 38 || point = 0x2028 || point = 0x2029
  then unitEscape point
  else Text.ofCodePoint point

def quote (text : Text) : Text :=
  34 :: (Text.decode text).flatMap (fun (decoded, _) =>
    if decoded.valid then escapePoint decoded.point else unitEscape Text.replacement) ++ [34]

def newline (depth : Nat) : Text := 10 :: List.replicate (2 * depth) 32

def bracket (opening closing : UInt8) (depth : Nat) (parts : List Text) : Text :=
  if parts.isEmpty then [opening, closing]
  else
    opening :: newline (depth + 1) ++ Text.join (44 :: newline (depth + 1)) parts ++ newline depth
      ++ [closing]

mutual

def printAt : Nat → Json → Text
  | _, .null => "null"
  | _, .bool truth => if truth then "true" else "false"
  | _, .number literal => literal
  | _, .text value => quote value
  | depth, .list items => bracket 91 93 depth (printItems (depth + 1) items)
  | depth, .object members => bracket 123 125 depth (printMembers (depth + 1) members)

def printItems : Nat → List Json → List Text
  | _, [] => []
  | depth, item :: items => printAt depth item :: printItems depth items

def printMembers : Nat → List (Text × Json) → List Text
  | _, [] => []
  | depth, (name, value) :: members =>
    (quote name ++ ": " ++ printAt depth value) :: printMembers depth members

end

def print (json : Json) : Text := printAt 0 json ++ [10]

end Json

end Covenant
