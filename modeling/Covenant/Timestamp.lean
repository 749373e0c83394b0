import Covenant.Text

/-!
# Timestamps

A point in time is read from an Internet date and time with its offset from universal time, and
printed in universal time to the second.
-/

set_option autoImplicit false

namespace Covenant

/-- Seconds since the first second of the year 1, universal time; a fraction is only noted. -/
structure Timestamp where
  seconds : Int
  hasFraction : Bool
  deriving DecidableEq, Repr

namespace Timestamp

def zero : Timestamp := ⟨0, false⟩

def isLeap (year : Int) : Bool := year % 4 == 0 && (year % 100 != 0 || year % 400 == 0)

def daysBefore (year : Int) : Int :=
  let past := year - 1
  past * 365 + past / 4 - past / 100 + past / 400

def monthLengths (year : Int) : List Int :=
  [31, if isLeap year then 29 else 28, 31, 30, 31, 30, 31, 31, 30, 31, 30, 31]

def dayNumber (year : Int) (month day : Nat) : Int :=
  daysBefore year + ((monthLengths year).take (month - 1)).foldl (· + ·) 0 + (day - 1)

def digits? (count : Nat) (source : Text) : Option (Nat × Text) :=
  let front := source.take count
  if front.length == count && front.all Text.isDigit then
    some (Text.digitsValue front, source.drop count)
  else none

def expect? (byte : UInt8) : Text → Option Text
  | first :: rest => if first == byte then some rest else none
  | [] => none

def readFraction : Text → Bool × Text
  | 46 :: rest =>
    let found := rest.takeWhile Text.isDigit
    (found.any (· != 48), rest.drop found.length)
  | source => (false, source)

def readOffset? : Text → Option Int
  | [90] => some 0
  | sign :: rest => do
      let (hours, rest) ← digits? 2 rest
      let rest ← expect? 58 rest
      let (minutes, rest) ← digits? 2 rest
      if !rest.isEmpty then none
      else if sign == 43 then some (hours * 3600 + minutes * 60 : Nat)
      else if sign == 45 then some (-((hours * 3600 + minutes * 60 : Nat) : Int))
      else none
  | [] => none

def read? (source : Text) : Option Timestamp := do
  let (year, rest) ← digits? 4 source
  let rest ← expect? 45 rest
  let (month, rest) ← digits? 2 rest
  let rest ← expect? 45 rest
  let (day, rest) ← digits? 2 rest
  let rest ← expect? 84 rest
  let (hour, rest) ← digits? 2 rest
  let rest ← expect? 58 rest
  let (minute, rest) ← digits? 2 rest
  let rest ← expect? 58 rest
  let (second, rest) ← digits? 2 rest
  let (hasFraction, rest) := readFraction rest
  let offset ← readOffset? rest
  let clock : Int := (hour * 3600 + minute * 60 + second : Nat)
  return ⟨dayNumber year month day * 86400 + clock - offset, hasFraction⟩

def monthDay : Nat → List Int → Int → Nat × Int
  | month, length :: lengths, day =>
    if day < length then (month, day + 1) else monthDay (month + 1) lengths (day - length)
  | month, [], day => (month, day + 1)

def yearOf (days : Int) : Int :=
  let guess := days * 400 / 146097 + 1
  if days < daysBefore guess then guess - 1
  else if daysBefore (guess + 1) ≤ days then guess + 1
  else guess

def padded (width : Nat) (number : Int) : Text :=
  let text := Text.ofNat number.natAbs
  (if number < 0 then [45] else []) ++ List.replicate (width - text.length) 48 ++ text

def print (time : Timestamp) : Text :=
  let days := time.seconds / 86400
  let clock := time.seconds % 86400
  let year := yearOf days
  let (month, day) := monthDay 1 (monthLengths year) (days - daysBefore year)
  padded 4 year ++ "-" ++ padded 2 month ++ "-" ++ padded 2 day
    ++ "T" ++ padded 2 (clock / 3600) ++ ":"
    ++ padded 2 (clock / 60 % 60) ++ ":" ++ padded 2 (clock % 60) ++ "Z"

end Timestamp

end Covenant
