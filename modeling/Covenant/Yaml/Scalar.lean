import Covenant.Number.Decimal
import Covenant.Timestamp
import Covenant.Yaml.Token

/-!
# Scalars

A plain scalar means a number, a truth value, a point in time or nothing at all if it is spelled
that way; everything else is text.
-/

set_option autoImplicit false

namespace Covenant.Yaml

inductive Scalar where
  | null
  | bool (value : Bool)
  | int (value : Int)
  | float (value : Float)
  | time (text : Text)
  | text (value : Text)

def Scalar.tag : Scalar → Text
  | .null => "!!null"
  | .bool _ => "!!bool"
  | .int _ => "!!int"
  | .float _ => "!!float"
  | .time _ => "!!timestamp"
  | .text _ => "!!str"

/-!
## Numbers
-/

def readDigits? (base : Nat) (digits : Text) : Option Nat :=
  if digits.isEmpty then none
  else digits.foldlM (fun total byte => do
    let digit ← Text.hexValue? byte
    if digit < base then some (total * base + digit) else none) 0

def readNatural? (source : Text) : Option Nat :=
  match source with
  | 48 :: letter :: digit :: rest =>
    let small := Text.small letter
    if small == 98 then readDigits? 2 (digit :: rest)
    else if small == 111 then readDigits? 8 (digit :: rest)
    else if small == 120 then readDigits? 16 (digit :: rest)
    else readDigits? 8 (letter :: digit :: rest)
  | 48 :: [] => some 0
  | 48 :: rest => readDigits? 8 rest
  | _ => readDigits? 10 source

/-- An integer if it fits in 64 bits; only unsigned texts may need all of them. -/
def fitting? (signed negative : Bool) (magnitude : Nat) : Option Int :=
  if negative then if magnitude ≤ 0x8000000000000000 then some (-magnitude) else none
  else if magnitude < 0x8000000000000000 || (!signed && magnitude < 0x10000000000000000) then some magnitude
  else none

def readSigned? (natural : Text → Option Nat) : Text → Option Int
  | 43 :: rest => natural rest >>= fitting? true false
  | 45 :: rest => natural rest >>= fitting? true true
  | source => natural source >>= fitting? false false

/-- Reads an integer. Behind a sign of base two or eight, a second sign may stand. -/
def readInteger? (source : Text) : Option Int :=
  (readSigned? readNatural? source).or <|
    match source with
    | 48 :: 98 :: rest => readSigned? (readDigits? 2) rest
    | 48 :: 111 :: rest => readSigned? (readDigits? 8) rest
    | _ => none

def isDecimal (source : Text) : Bool :=
  let body := match source with
    | 43 :: rest | 45 :: rest => rest
    | _ => source
  let whole := body.takeWhile Text.isDigit
  let (fraction, rest) : Option Text × Text := match body.drop whole.length with
    | 46 :: rest =>
      let digits := rest.takeWhile Text.isDigit
      (some digits, rest.drop digits.length)
    | rest => (none, rest)
  let mantissa := if whole.isEmpty then fraction.any (!·.isEmpty) else true
  let exponent := match rest with
    | [] => true
    | letter :: digits =>
      (letter == 101 || letter == 69)
        && match digits with
          | 43 :: digits | 45 :: digits => !digits.isEmpty && digits.all Text.isDigit
          | _ => !digits.isEmpty && digits.all Text.isDigit
  mantissa && exponent

/-!
## Points in time
-/

def readShort? : Text → Option (Nat × Text)
  | first :: second :: rest =>
    if !Text.isDigit first then none
    else if Text.isDigit second then some (Text.digitsValue [first, second], rest)
    else some (Text.digitsValue [first], second :: rest)
  | [first] => if Text.isDigit first then some (Text.digitsValue [first], []) else none
  | [] => none

def readClock? (source : Text) : Option (Text × Text) := do
  let (hour, rest) ← readShort? source
  let (minute, rest) ← Timestamp.expect? 58 rest >>= readShort?
  let (second, rest) ← Timestamp.expect? 58 rest >>= readShort?
  if 24 ≤ hour || 60 ≤ minute || 60 ≤ second then none
  let (fraction, rest) : Text × Text := match rest with
    | mark :: digit :: after =>
      if (mark == 46 || mark == 44) && Text.isDigit digit then
        let digits := (digit :: after).takeWhile Text.isDigit
        (digits, (digit :: after).drop digits.length)
      else ([], rest)
    | _ => ([], rest)
  let kept := Number.trimZeros (fraction.take 9)
  let clock := Timestamp.padded 2 hour ++ Text.ofString ":" ++ Timestamp.padded 2 minute
    ++ ":" ++ Timestamp.padded 2 second ++ if kept.isEmpty then [] else Text.ofString "." ++ kept
  return (clock, rest)

def readZone? : Text → Option Text
  | [90] => some "Z"
  | sign :: rest => do
      if sign != 43 && sign != 45 then none
      let (hours, rest) ← Timestamp.digits? 2 rest
      let rest ← Timestamp.expect? 58 rest
      let (minutes, rest) ← Timestamp.digits? 2 rest
      if 24 < hours || 60 < minutes || !rest.isEmpty then none
      let offset := hours * 60 + minutes
      return if offset = 0 then "Z"
        else sign :: Timestamp.padded 2 (offset / 60) ++ ":" ++ Timestamp.padded 2 (offset % 60)
  | [] => none

/-- The time of day behind a date: none, one with an offset behind a letter, or one without an
offset behind spaces. -/
def readDayTime? : Text → Option Text
  | [] => some "T00:00:00Z"
  | letter :: rest => do
      if letter == 84 || letter == 116 then
        let (clock, rest) ← readClock? rest
        return "T" ++ clock ++ (← readZone? rest)
      else if letter == 32 then
        let (clock, rest) ← readClock? (rest.dropWhile (· == 32))
        if rest.isEmpty then return "T" ++ clock ++ "Z" else none
      else none

def readTime? (source : Text) : Option Text := do
  let (year, rest) ← Timestamp.digits? 4 source
  let (month, rest) ← Timestamp.expect? 45 rest >>= readShort?
  let (day, rest) ← Timestamp.expect? 45 rest >>= readShort?
  let length ← if month = 0 then none else (Timestamp.monthLengths year)[month - 1]?
  if day = 0 || length < day then none
  let time ← readDayTime? rest
  return Timestamp.padded 4 year ++ "-" ++ Timestamp.padded 2 month
    ++ "-" ++ Timestamp.padded 2 day ++ time

/-!
## Meaning
-/

def words : List (Scalar × List String) :=
  [(.bool true, ["true", "True", "TRUE"]), (.bool false, ["false", "False", "FALSE"]),
    (.null, ["", "~", "null", "Null", "NULL"]), (.float (0.0 / 0.0), [".nan", ".NaN", ".NAN"]),
    (.float (1.0 / 0.0), [".inf", ".Inf", ".INF", "+.inf", "+.Inf", "+.INF"]),
    (.float (-1.0 / 0.0), ["-.inf", "-.Inf", "-.INF"])]

def readNumber? (source : Text) : Option Scalar :=
  let plain := source.filter (· != 95)
  (readTime? source).map .time
    |>.or ((readInteger? plain).map .int)
    |>.or (if isDecimal plain then (Number.read plain).toOption.map .float else none)

def Scalar.ofPlain (source : Text) : Scalar :=
  match words.find? (fun entry => entry.2.any (fun word => Text.ofString word == source)) with
  | some (meaning, _) => meaning
  | none =>
    match source with
    | [] => .null
    | first :: _ =>
      let found :=
        if first == 46 then (Number.read source).toOption.map Scalar.float
        else if Text.isDigit first || first == 43 || first == 45 then readNumber? source
        else none
      found.getD (.text source)

def Scalar.of (style : ScalarStyle) (source : Text) : Scalar :=
  if style = .plain then .ofPlain source else .text source

end Covenant.Yaml
