import Covenant.Number.Binary
import Covenant.Text

/-!
# Decimal text of doubles

The digits of a number are the fewest that read back as the same number, and of those the nearest
to it. General notation is positional when the first significant digit stands between `10 ^ -4`
and `10 ^ 5`, and has an exponent of at least two digits otherwise.
-/

set_option autoImplicit false

namespace Covenant.Number

/-- Decimal digits `d₁ d₂ …` and the exponent of the first: `d₁.d₂… · 10 ^ exponent`. -/
structure Digits where
  digits : Text
  exponent : Int
  deriving DecidableEq, Repr

/-- The reals that round to a given number, as `low ≤ value · scale ≤ high` over a common
denominator. -/
structure Neighbourhood where
  low : Nat
  value : Nat
  high : Nat
  denominator : Nat
  closed : Bool

def Format.neighbourhood (format : Format) (mantissa : Nat) (exponent : Int) : Neighbourhood :=
  let narrow := mantissa = Nat.pow 2 (format.precision - 1) && exponent != format.least
  let value := 4 * mantissa
  let low := value - if narrow then 1 else 2
  let high := value + 2
  let place := exponent - 2
  if 0 ≤ place then
    let factor := Nat.pow 2 place.toNat
    ⟨low * factor, value * factor, high * factor, 1, mantissa % 2 = 0⟩
  else ⟨low, value, high, Nat.pow 2 (-place).toNat, mantissa % 2 = 0⟩

def Neighbourhood.holds (hood : Neighbourhood) (factor numerator : Nat) : Bool :=
  if hood.closed then hood.low * factor ≤ numerator && numerator ≤ hood.high * factor
  else hood.low * factor < numerator && numerator < hood.high * factor

/-- The point of the grid `10 ^ place` nearest to the value among those in the neighbourhood. -/
def Neighbourhood.onGrid? (hood : Neighbourhood) (place : Int) : Option Nat :=
  let (factor, unit) :=
    if 0 ≤ place then (1, hood.denominator * Nat.pow 10 place.toNat)
    else (Nat.pow 10 (-place).toNat, hood.denominator)
  let scaled := hood.value * factor
  let below := scaled / unit
  let above := below + 1
  let belowFits := hood.holds factor (below * unit)
  let aboveFits := hood.holds factor (above * unit)
  if belowFits && aboveFits then
    let down := scaled - below * unit
    let up := above * unit - scaled
    some (if down < up then below else if up < down then above
      else if below % 2 = 0 then below else above)
  else if belowFits then some below
  else if aboveFits then some above
  else none

def Neighbourhood.search (hood : Neighbourhood) : Nat → Int → Nat × Int
  | 0, place => ((hood.onGrid? place).getD 0, place)
  | fuel + 1, place =>
    match hood.onGrid? place with
    | some 0 => hood.search fuel (place - 1)
    | some point => (point, place)
    | none => hood.search fuel (place - 1)

def trimZeros (digits : Text) : Text := (digits.reverse.dropWhile (· == 48)).reverse

def placeEstimate (numerator denominator : Nat) : Int :=
  let bits : Int := (numerator.log2 : Int) - denominator.log2
  (bits * 30103) / 100000 + 1

def Format.shortest (format : Format) (mantissa : Nat) (exponent : Int) : Digits :=
  let hood := format.neighbourhood mantissa exponent
  let (point, place) := hood.search 25 (placeEstimate hood.value hood.denominator + 1)
  let digits := Text.ofNat point
  ⟨trimZeros digits, place + digits.length - 1⟩

def padZeros (width : Nat) (digits : Text) : Text :=
  List.replicate (width - digits.length) 48 ++ digits

def Digits.scientific (number : Digits) : Text :=
  let mantissa :=
    match number.digits with
    | [] => [48]
    | [digit] => [digit]
    | digit :: rest => digit :: 46 :: rest
  let sign : UInt8 := if number.exponent < 0 then 45 else 43
  mantissa ++ [101, sign] ++ padZeros 2 (Text.ofNat number.exponent.natAbs)

def Digits.positional (number : Digits) : Text :=
  if number.exponent < 0 then
    Text.ofString "0." ++ List.replicate ((-number.exponent).toNat - 1) 48 ++ number.digits
  else
    let whole := number.exponent.toNat + 1
    let front := number.digits.take whole
    let back := number.digits.drop whole
    let front := front ++ List.replicate (whole - front.length) 48
    if back.isEmpty then front else front ++ [46] ++ back

def Digits.general (number : Digits) (limit : Int) : Text :=
  if number.exponent < -4 ∨ limit ≤ number.exponent then number.scientific
  else number.positional

def generalLimit : Int := 6

def signText (negative : Bool) : Text := if negative then [45] else []

def Format.text (format : Format) (limit : Int) (number : Float) : Text :=
  match unpack number with
  | .notANumber => "NaN"
  | .infinite negative => if negative then "-Inf" else "+Inf"
  | .finite negative 0 _ => signText negative ++ [48]
  | .finite negative mantissa exponent =>
    let (mantissa, exponent) := (format.round? mantissa exponent).getD (mantissa, exponent)
    signText negative ++ (format.shortest mantissa exponent).general limit

def text (number : Float) : Text := Format.double.text generalLimit number

def singleText (number : Float) : Text := Format.single.text generalLimit number

def fixedText (places : Nat) (number : Float) : Text :=
  match unpack number with
  | .notANumber => "NaN"
  | .infinite negative => if negative then "-Inf" else "+Inf"
  | .finite negative mantissa exponent =>
    let scaled := mantissa * Nat.pow 10 places
    let whole :=
      if 0 ≤ exponent then scaled * Nat.pow 2 exponent.toNat
      else shiftRound scaled (-exponent).toNat
    let digits := padZeros (places + 1) (Text.ofNat whole)
    let front := digits.take (digits.length - places)
    let back := digits.drop (digits.length - places)
    signText negative ++ if places = 0 then front else front ++ [46] ++ back

/-!
## Reading
-/

inductive ReadError where
  | malformed
  | outOfRange
  deriving DecidableEq, Repr

def ofDecimal (negative : Bool) (digits : Nat) (exponent : Int) : Except ReadError Float :=
  let length : Int := (Nat.toDigits 10 digits).length
  let number : Float :=
    if digits = 0 then 0.0
    else if 310 < length + exponent then infinity false
    else if length + exponent < -330 then 0.0
    else Float.ofScientific digits (exponent < 0) exponent.natAbs
  if number.isInf then .error .outOfRange
  else .ok (if negative then -number else number)

def smallText (source : Text) : Text := source.map Text.small

/-- Whether underscores stand only between digits, or between a base prefix and a digit. `last` is
`48` after a digit, `95` after an underscore and `33` otherwise. -/
def underscoresFit (hexadecimal : Bool) : UInt8 → Text → Bool
  | last, [] => last != 95
  | last, byte :: rest =>
    if Text.isDigit byte || (hexadecimal && (Text.hexValue? byte).isSome) then
      underscoresFit hexadecimal 48 rest
    else if byte == 95 then last == 48 && underscoresFit hexadecimal 95 rest
    else last != 95 && underscoresFit hexadecimal 33 rest

def underscoresOkay : Text → Bool
  | 48 :: letter :: rest =>
    let small := Text.small letter
    if small == 98 || small == 111 then underscoresFit false 48 rest
    else if small == 120 then underscoresFit true 48 rest
    else underscoresFit false 94 (48 :: letter :: rest)
  | body => underscoresFit false 94 body

/-- The mantissa of a number's text: its digits read in a base, how many stand after the point,
and what follows. -/
structure Mantissa where
  value : Nat
  places : Nat
  sawDigit : Bool
  sawPoint : Bool
  sawUnderscore : Bool
  rest : Text

def readMantissa (base : Nat) : Text → Mantissa → Mantissa
  | [], state => { state with rest := [] }
  | byte :: rest, state =>
    if byte == 95 then readMantissa base rest { state with sawUnderscore := true }
    else if byte == 46 then
      if state.sawPoint then { state with rest := byte :: rest }
      else readMantissa base rest { state with sawPoint := true }
    else
      match Text.hexValue? byte with
      | some digit =>
        if digit < base then
          readMantissa base rest
            { state with
              value := state.value * base + digit
              places := if state.sawPoint then state.places + 1 else state.places
              sawDigit := true }
        else { state with rest := byte :: rest }
      | none => { state with rest := byte :: rest }

def readExponent? (source : Text) : Option (Int × Bool) :=
  let (negative, digits) :=
    match source with
    | 43 :: rest => (false, rest)
    | 45 :: rest => (true, rest)
    | _ => (false, source)
  match digits with
  | [] => none
  | first :: _ =>
    if !Text.isDigit first || !(digits.all fun byte => Text.isDigit byte || byte == 95) then none
    else
      let plain := digits.filter Text.isDigit
      let value := plain.foldl
        (fun total byte => if total < 10000 then total * 10 + (byte.toNat - 48) else total) 0
      some (signed negative value, digits.contains 95)

def readDigits (negative : Bool) (body : Text) : Except ReadError Float :=
  let hexadecimal := match body with
    | 48 :: letter :: _ :: _ => Text.small letter == 120
    | _ => false
  let start := if hexadecimal then body.drop 2 else body
  let base := if hexadecimal then 16 else 10
  let mantissa := readMantissa base start ⟨0, 0, false, false, false, []⟩
  let mark : UInt8 := if hexadecimal then 112 else 101
  let tail : Option (Int × Bool) :=
    match mantissa.rest with
    | [] => if hexadecimal then none else some (0, false)
    | letter :: rest => if Text.small letter == mark then readExponent? rest else none
  match tail with
  | none => .error .malformed
  | some (exponent, underscored) =>
    if !mantissa.sawDigit then .error .malformed
    else if (mantissa.sawUnderscore || underscored) && !underscoresOkay body then
      .error .malformed
    else if hexadecimal then
      let number :=
        if mantissa.value = 0 then 0.0
        else if exponent < -20000 then 0.0
        else if 20000 < exponent then infinity false
        else ofDyadic false mantissa.value (exponent - 4 * mantissa.places)
      if number.isInf then .error .outOfRange
      else .ok (if negative then -number else number)
    else ofDecimal negative mantissa.value (exponent - mantissa.places)

def read (source : Text) : Except ReadError Float :=
  let (negative, marked, body) :=
    match source with
    | 43 :: rest => (false, true, rest)
    | 45 :: rest => (true, true, rest)
    | _ => (false, false, source)
  let small := smallText body
  if small = "inf" ∨ small = "infinity" then .ok (infinity negative)
  else if small = "nan" ∧ !marked then .ok notANumber
  else readDigits negative body

/-!
## 64-bit integers

Doubles are cut to 64-bit integers, and integers are read from decimal text. A text is out of
range as soon as its digits so far do not fit in 64 bits, whatever follows them.
-/

def toWord (number : Float) : Int :=
  match Rounding.towardZero.toInt? number with
  | some whole => if -(0x8000000000000000) ≤ whole && whole < 0x8000000000000000 then whole else -(0x8000000000000000)
  | none => -(0x8000000000000000)

/-- Reads decimal digits into an unsigned 64-bit number; `total` is the value of those before. -/
def readUnsigned (total : Nat) : Text → Except ReadError Nat
  | [] => .ok total
  | byte :: rest =>
    if !Text.isDigit byte then .error .malformed
    else
      let next := total * 10 + (byte.toNat - 48)
      if 0x10000000000000000 ≤ next then .error .outOfRange else readUnsigned next rest

def readInt (source : Text) : Except ReadError Int := do
  let (negative, digits) := match source with
    | 43 :: rest => (false, rest)
    | 45 :: rest => (true, rest)
    | _ => (false, source)
  if digits.isEmpty then throw .malformed
  let magnitude ← readUnsigned 0 digits
  let number : Int := if negative then -magnitude else magnitude
  if -(0x8000000000000000) ≤ number && number < 0x8000000000000000 then return number else throw .outOfRange

end Covenant.Number
