import Covenant.Number.Binary

/-!
# Arithmetic on doubles

The remainder is exact. Powers are computed by repeated squaring on a mantissa in `[1/2, 1)` with
the exponent kept apart; a fractional exponent contributes `exp (fraction · log base)`, with the
logarithm and the exponential evaluated by fixed polynomials.
-/

set_option autoImplicit false

namespace Covenant.Number

def remainder (left right : Float) : Float :=
  match unpack left, unpack right with
  | .notANumber, _ | _, .notANumber => notANumber
  | .infinite _, _ => notANumber
  | .finite .., .infinite _ => left
  | .finite negative mantissa exponent, .finite _ divisor place =>
    if divisor = 0 then notANumber
    else
      let last := min exponent place
      let aligned := mantissa * Nat.pow 2 (exponent - last).toNat
      let unit := divisor * Nat.pow 2 (place - last).toNat
      ofDyadic negative (aligned % unit) last

def fusedMultiplyAdd (left right addend : Float) : Float :=
  match unpack left, unpack right, unpack addend with
  | .finite leftSign leftMantissa leftPlace, .finite rightSign rightMantissa rightPlace,
    .finite addendSign addendMantissa addendPlace =>
      if leftMantissa = 0 ∨ rightMantissa = 0 ∨ addendMantissa = 0 then left * right + addend
      else
        let place := leftPlace + rightPlace
        let last := min place addendPlace
        let product := signed (leftSign != rightSign)
          (leftMantissa * rightMantissa * Nat.pow 2 (place - last).toNat)
        let total := product + signed addendSign (addendMantissa * Nat.pow 2 (addendPlace - last).toNat)
        ofDyadic (total < 0) total.natAbs last
  | _, _, _ => left * right + addend

/-- A nonzero finite double as `fraction · 2 ^ exponent` with the fraction in `[1/2, 1)`. -/
def fractionExponent (number : Float) : Float × Int :=
  match unpack number with
  | .finite negative mantissa exponent =>
    if mantissa = 0 then (number, 0)
    else
      let length : Int := mantissa.log2 + 1
      (ofDyadic negative mantissa (-length), exponent + length)
  | _ => (number, 0)

def scale (number : Float) (places : Int) : Float :=
  match unpack number with
  | .finite negative mantissa exponent => ofDyadic negative mantissa (exponent + places)
  | _ => number

def logarithm (number : Float) : Float :=
  let (fraction, exponent) := fractionExponent number
  let (fraction, exponent) :=
    if fraction < 0.70710678118654752440 then (fraction * 2.0, exponent - 1)
    else (fraction, exponent)
  let f := fraction - 1.0
  let k := ofInt exponent
  let s := f / (2.0 + f)
  let s2 := s * s
  let s4 := s2 * s2
  let odd := s2 * (6.666666666666735130e-01 + s4 * (2.857142874366239149e-01
    + s4 * (1.818357216161805012e-01 + s4 * 1.479819860511658591e-01)))
  let even := s4 * (3.999999999940941908e-01 + s4 * (2.222219843214978396e-01
    + s4 * 1.531383769920937332e-01))
  let r := odd + even
  let half := 0.5 * f * f
  k * 6.93147180369123816490e-01
    - ((half - (s * (half + r) + k * 1.90821492927058770002e-10)) - f)

def exponentialCoefficients : List Float :=
  [1.9841269841269841270e-4, 1.3888888888888888889e-3, 8.3333333333333333333e-3,
    4.1666666666666666667e-2, 1.6666666666666666667e-1, 0.5, 1.0]

def exponential (number : Float) : Float :=
  let places := (Rounding.nearestEven.toInt? (number * 1.4426950408889634073599246810018920)).getD 0
  let k := ofInt places
  let reduced := fusedMultiplyAdd (-k) 0.69314718055966295651160180568695068359375 number
  let reduced := fusedMultiplyAdd (-k) 0.28235290563031577122588448175013436025525412068e-12 reduced
  let x := reduced * 0.0625
  let series := exponentialCoefficients.foldl
    (fun total coefficient => fusedMultiplyAdd x total coefficient) 2.4801587301587301587e-5
  let y := x * series
  let y := y * (y + 2.0)
  let y := y * (y + 2.0)
  let y := y * (y + 2.0)
  let y := fusedMultiplyAdd (y + 2.0) y 1.0
  scale y places

def isOddWhole (number : Float) : Bool :=
  isWhole number && match Rounding.towardZero.toInt? number with
    | some whole => whole % 2 != 0
    | none => false

/-- Multiplies `total · 2 ^ totalPlaces` by `(base · 2 ^ basePlaces) ^ exponent`, squaring `base`
once for each binary digit of the exponent. -/
def powerLoop : Nat → Nat → Float → Int → Float → Int → Float × Int
  | 0, _, _, _, total, totalPlaces => (total, totalPlaces)
  | fuel + 1, exponent, base, basePlaces, total, totalPlaces =>
    if exponent = 0 then (total, totalPlaces)
    else if basePlaces < -4096 ∨ 4096 < basePlaces then (total, totalPlaces + basePlaces)
    else
      let (total, totalPlaces) :=
        if exponent % 2 = 1 then (total * base, totalPlaces + basePlaces)
        else (total, totalPlaces)
      let square := base * base
      let (square, places) :=
        if square < 0.5 then (square + square, 2 * basePlaces - 1) else (square, 2 * basePlaces)
      powerLoop fuel (exponent / 2) square places total totalPlaces

def finitePower (base exponent : Float) : Float :=
  let size := exponent.abs
  let whole := Rounding.towardZero.apply size
  let fraction := size - whole
  if fraction != 0.0 && base < 0.0 then notANumber
  else if whole ≥ 9223372036854775808.0 then
    if base == -1.0 then 1.0
    else if (base.abs < 1.0) == (exponent > 0.0) then 0.0
    else infinity false
  else
    let count := ((Rounding.towardZero.toInt? whole).getD 0).toNat
    let (start, count) :=
      if fraction != 0.0 then
        if fraction > 0.5 then (exponential ((fraction - 1.0) * logarithm base), count + 1)
        else (exponential (fraction * logarithm base), count)
      else (1.0, count)
    let (mantissa, places) := fractionExponent base
    let (total, totalPlaces) := powerLoop 64 count mantissa places start 0
    if exponent < 0.0 then scale (1.0 / total) (-totalPlaces) else scale total totalPlaces

def power (base exponent : Float) : Float :=
  if exponent == 0.0 || base == 1.0 then 1.0
  else if exponent == 1.0 then base
  else if base.isNaN || exponent.isNaN then notANumber
  else if base == 0.0 then
    let oddNegative := isNegative base && isOddWhole exponent
    if exponent < 0.0 then infinity oddNegative
    else if oddNegative then base
    else 0.0
  else if exponent.isInf then
    if base == -1.0 then 1.0
    else if (base.abs < 1.0) == (exponent > 0.0) then 0.0
    else infinity false
  else if base.isInf then
    let odd := isNegative base && isOddWhole exponent
    if exponent < 0.0 then (if odd then -0.0 else 0.0) else infinity odd
  else if exponent == 0.5 then base.sqrt
  else if exponent == -0.5 then 1.0 / base.sqrt
  else finitePower base exponent

end Covenant.Number
