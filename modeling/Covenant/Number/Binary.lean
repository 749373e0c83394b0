/-!
# Binary floating point

A double is `± mantissa · 2 ^ exponent`, an infinity or not a number. An exact `mantissa · 2 ^
exponent` is rounded to a format, and doubles are rounded to whole numbers on that view. A
single-precision number is kept as the double that equals it.
-/

set_option autoImplicit false

namespace Covenant.Number

inductive Unpacked where
  | notANumber
  | infinite (negative : Bool)
  | finite (negative : Bool) (mantissa : Nat) (exponent : Int)
  deriving DecidableEq, Repr

def unpack (number : Float) : Unpacked :=
  let bits := number.toBits.toNat
  let negative : Bool := 0x8000000000000000 ≤ bits
  let biased : Nat := bits / 0x10000000000000 % 2048
  let fraction := bits % 0x10000000000000
  if biased = 2047 then
    if fraction = 0 then .infinite negative else .notANumber
  else if biased = 0 then .finite negative fraction (-1074)
  else .finite negative (0x10000000000000 + fraction) ((biased : Int) - 1075)

structure Format where
  precision : Nat
  least : Int
  greatest : Int

def Format.double : Format := ⟨53, -1074, 971⟩

def Format.single : Format := ⟨24, -149, 104⟩

/-- `number / 2 ^ places`, to the nearest natural number and a half to the even neighbour. -/
def shiftRound (number places : Nat) : Nat :=
  let unit := Nat.pow 2 places
  let quotient := number / unit
  let remainder := number % unit
  if 2 * remainder < unit then quotient
  else if unit < 2 * remainder then quotient + 1
  else if places = 0 then quotient
  else quotient + quotient % 2

/-- The mantissa and exponent of the number of the format nearest to `mantissa · 2 ^ exponent`,
ties to even; nothing when it is too large. -/
def Format.round? (format : Format) (mantissa : Nat) (exponent : Int) : Option (Nat × Int) :=
  if mantissa = 0 then some (0, format.least)
  else
    let length : Int := mantissa.log2 + 1
    let last := max (length + exponent - format.precision) format.least
    let rounded :=
      if last ≤ exponent then mantissa * Nat.pow 2 (exponent - last).toNat
      else shiftRound mantissa (last - exponent).toNat
    let (rounded, last) :=
      if rounded = Nat.pow 2 format.precision then (Nat.pow 2 (format.precision - 1), last + 1)
      else (rounded, last)
    if format.greatest < last then none else some (rounded, last)

def signBits (negative : Bool) : Nat := if negative then 0x8000000000000000 else 0

def infinity (negative : Bool) : Float :=
  Float.ofBits (UInt64.ofNat (signBits negative + 2047 * 0x10000000000000))

def notANumber : Float := Float.ofBits 0x7FF8000000000000

def pack (negative : Bool) (mantissa : Nat) (exponent : Int) : Float :=
  let body :=
    if mantissa < 0x10000000000000 then mantissa
    else (exponent + 1075).toNat * 0x10000000000000 + (mantissa - 0x10000000000000)
  Float.ofBits (UInt64.ofNat (signBits negative + body))

def ofDyadic (negative : Bool) (mantissa : Nat) (exponent : Int) : Float :=
  match Format.double.round? mantissa exponent with
  | some (mantissa, exponent) => pack negative mantissa exponent
  | none => infinity negative

def ofInt (number : Int) : Float := ofDyadic (number < 0) number.natAbs 0

def toSingle (number : Float) : Float :=
  match unpack number with
  | .finite negative mantissa exponent =>
    match Format.single.round? mantissa exponent with
    | some (mantissa, exponent) => ofDyadic negative mantissa exponent
    | none => infinity negative
  | _ => number

def isNegative (number : Float) : Bool :=
  match unpack number with
  | .notANumber => false
  | .infinite negative => negative
  | .finite negative _ _ => negative

/-!
## Whole numbers
-/

inductive Rounding where
  | down
  | towardZero
  | nearestEven
  deriving DecidableEq, Repr

def Rounding.magnitude (rounding : Rounding) (negative : Bool) (mantissa : Nat)
    (exponent : Int) : Nat :=
  if 0 ≤ exponent then mantissa * Nat.pow 2 exponent.toNat
  else
    let places := (-exponent).toNat
    match rounding with
    | .towardZero => mantissa / Nat.pow 2 places
    | .nearestEven => shiftRound mantissa places
    | .down =>
      let unit := Nat.pow 2 places
      if negative then (mantissa + unit - 1) / unit else mantissa / unit

def signed (negative : Bool) (magnitude : Nat) : Int :=
  if negative then -(magnitude : Int) else magnitude

def Rounding.toInt? (rounding : Rounding) (number : Float) : Option Int :=
  match unpack number with
  | .finite negative mantissa exponent =>
    some (signed negative (rounding.magnitude negative mantissa exponent))
  | _ => none

/-- Rounds a double to a whole double; the sign of zero is kept, and what is not finite stays. -/
def Rounding.apply (rounding : Rounding) (number : Float) : Float :=
  match unpack number with
  | .finite negative mantissa exponent =>
    ofDyadic negative (rounding.magnitude negative mantissa exponent) 0
  | _ => number

def floor (number : Float) : Float := Rounding.down.apply number

def isWhole (number : Float) : Bool := floor number == number

end Covenant.Number
