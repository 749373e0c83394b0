/-!
# Text

Source text, names and messages are byte strings, usually but not always UTF-8. A *character* below
is a decoded code point; a byte that starts no valid sequence counts as one replacement character.
-/

set_option autoImplicit false

namespace Covenant

abbrev Text := List UInt8

namespace Text

def ofString (literal : String) : Text := literal.toByteArray.data.toList

instance : Coe String Text := ⟨ofString⟩

instance : OfNat Text 0 := ⟨[]⟩

/-!
## Characters
-/

def replacement : Nat := 0xFFFD

/-- The UTF-8 bytes of a code point; surrogates and numbers out of range give the replacement. -/
def ofCodePoint (point : Nat) : Text :=
  if point < 0x80 then [UInt8.ofNat point]
  else if point < 0x800 then
    [UInt8.ofNat (0xC0 + point / 64), UInt8.ofNat (0x80 + point % 64)]
  else if 0x110000 ≤ point ∨ (0xD800 ≤ point ∧ point < 0xE000) then [0xEF, 0xBF, 0xBD]
  else if point < 0x10000 then
    [UInt8.ofNat (0xE0 + point / 4096), UInt8.ofNat (0x80 + point / 64 % 64),
      UInt8.ofNat (0x80 + point % 64)]
  else
    [UInt8.ofNat (0xF0 + point / 262144), UInt8.ofNat (0x80 + point / 4096 % 64),
      UInt8.ofNat (0x80 + point / 64 % 64), UInt8.ofNat (0x80 + point % 64)]

def isContinuation (byte : UInt8) : Bool := 0x80 ≤ byte && byte ≤ 0xBF

structure Decoded where
  point : Nat
  valid : Bool
  deriving DecidableEq, Repr

/-- The character with which a nonempty text starts, and how many bytes after the first it takes. -/
def decodeFrom (first : UInt8) (rest : Text) : Decoded × Nat :=
  let lead := first.toNat
  let broken : Decoded × Nat := (⟨replacement, false⟩, 0)
  if lead < 0x80 then (⟨lead, true⟩, 0)
  else if lead < 0xC2 then broken
  else if lead < 0xE0 then
    match rest with
    | second :: _ =>
      if isContinuation second then (⟨(lead - 0xC0) * 64 + (second.toNat - 0x80), true⟩, 1)
      else broken
    | [] => broken
  else if lead < 0xF0 then
    match rest with
    | second :: third :: _ =>
      let low := if lead = 0xE0 then 0xA0 else 0x80
      let high := if lead = 0xED then 0x9F else 0xBF
      if low ≤ second.toNat ∧ second.toNat ≤ high ∧ isContinuation third then
        (⟨(lead - 0xE0) * 4096 + (second.toNat - 0x80) * 64 + (third.toNat - 0x80), true⟩, 2)
      else broken
    | _ => broken
  else if lead < 0xF5 then
    match rest with
    | second :: third :: fourth :: _ =>
      let low := if lead = 0xF0 then 0x90 else 0x80
      let high := if lead = 0xF4 then 0x8F else 0xBF
      if low ≤ second.toNat ∧ second.toNat ≤ high ∧ isContinuation third ∧ isContinuation fourth
      then
        (⟨(lead - 0xF0) * 262144 + (second.toNat - 0x80) * 4096 + (third.toNat - 0x80) * 64
          + (fourth.toNat - 0x80), true⟩, 3)
      else broken
    | _ => broken
  else broken

/-- The characters of a text in order; `skip` bytes of the front belong to a character already
read. -/
def decodeAux : Nat → Text → List (Decoded × UInt8)
  | _, [] => []
  | skip + 1, _ :: rest => decodeAux skip rest
  | 0, first :: rest =>
    let (decoded, more) := decodeFrom first rest
    (decoded, first) :: decodeAux more rest

def decode (text : Text) : List (Decoded × UInt8) := decodeAux 0 text

def codePoints (text : Text) : List Nat := (decode text).map (·.1.point)

def isValid (text : Text) : Bool := (decode text).all (·.1.valid)

def ofCodePoints (points : List Nat) : Text := points.flatMap ofCodePoint

/-!
## Searching and cutting
-/

def startsWith (text part : Text) : Bool := part.isPrefixOf text

def endsWith (text part : Text) : Bool := part.isSuffixOf text

def find? (part : Text) : Text → Option Nat
  | [] => if part.isEmpty then some 0 else none
  | byte :: rest =>
    if startsWith (byte :: rest) part then some 0 else (find? part rest).map (· + 1)

def contains (text part : Text) : Bool := (find? part text).isSome

/-- The pieces between occurrences of a nonempty separator, found from the left; `skip` bytes of
the front belong to an occurrence already found. -/
def splitAux (separator : Text) : Nat → Text → Text × List Text
  | _, [] => ([], [])
  | skip + 1, _ :: rest => splitAux separator skip rest
  | 0, byte :: rest =>
    if startsWith (byte :: rest) separator then
      let (piece, pieces) := splitAux separator (separator.length - 1) rest
      ([], piece :: pieces)
    else
      let (piece, pieces) := splitAux separator 0 rest
      (byte :: piece, pieces)

def split (separator text : Text) : List Text :=
  let (piece, pieces) := splitAux separator 0 text
  piece :: pieces

def join (separator : Text) : List Text → Text
  | [] => []
  | [part] => part
  | part :: parts => part ++ separator ++ join separator parts

def replace (part replacement text : Text) : Text := join replacement (split part text)

def repeated (text : Text) (count : Nat) : Text := (List.replicate count text).flatten

/-!
## Blanks and case
-/

def isSpacePoint (point : Nat) : Bool :=
  (9 ≤ point && point ≤ 13) || point == 0x20 || point == 0x85 || point == 0xA0
    || point == 0x1680 || (0x2000 ≤ point && point ≤ 0x200A) || point == 0x2028
    || point == 0x2029 || point == 0x202F || point == 0x205F || point == 0x3000

def charactersAux : Nat → Text → List Text
  | 0, _ => []
  | _ + 1, [] => []
  | fuel + 1, first :: rest =>
    let (_, more) := decodeFrom first rest
    (first :: rest.take more) :: charactersAux fuel (rest.drop more)

def characters (text : Text) : List Text := charactersAux text.length text

def isSpaceCharacter : Text → Bool
  | [] => false
  | first :: rest =>
    let (decoded, _) := decodeFrom first rest
    decoded.valid && isSpacePoint decoded.point

def trim (text : Text) : Text :=
  (((characters text).dropWhile isSpaceCharacter).reverse.dropWhile isSpaceCharacter).reverse.flatten

def isLower (byte : UInt8) : Bool := 97 ≤ byte && byte ≤ 122

def isUpper (byte : UInt8) : Bool := 65 ≤ byte && byte ≤ 90

def isDigit (byte : UInt8) : Bool := 48 ≤ byte && byte ≤ 57

def isLetter (byte : UInt8) : Bool := isLower byte || isUpper byte || byte == 95

def capital (byte : UInt8) : UInt8 := if isLower byte then byte - 32 else byte

def small (byte : UInt8) : UInt8 := if isUpper byte then byte + 32 else byte

/-!
## Order
-/

abbrev compare : Text → Text → Ordering := Ord.compare

def le (left right : Text) : Bool := (compare left right).isLE

def lt (left right : Text) : Bool := compare left right == .lt

def sort (texts : List Text) : List Text := texts.mergeSort le

/-!
## Numbers
-/

def ofNat (number : Nat) : Text := (Nat.toDigits 10 number).map (fun c => UInt8.ofNat c.toNat)

def ofInt (number : Int) : Text :=
  if number < 0 then 45 :: ofNat number.natAbs else ofNat number.natAbs

def digitsValue (digits : Text) : Nat :=
  digits.foldl (fun total byte => total * 10 + (byte.toNat - 48)) 0

def hexDigit (value : Nat) : UInt8 :=
  UInt8.ofNat (if value < 10 then 48 + value else 87 + value)

/-- `width` hexadecimal digits of `number`, the lowest ones, most significant first. -/
def hex (width number : Nat) : Text :=
  (List.range width).reverse.map (fun place => hexDigit (number / Nat.pow 16 place % 16))

def hexValue? (byte : UInt8) : Option Nat :=
  if isDigit byte then some (byte.toNat - 48)
  else if 97 ≤ byte && byte ≤ 102 then some (byte.toNat - 87)
  else if 65 ≤ byte && byte ≤ 70 then some (byte.toNat - 55)
  else none

end Text

end Covenant
