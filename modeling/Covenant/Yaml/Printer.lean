import Covenant.Text.Letter
import Covenant.Yaml.Datum

/-!
# Printing data

Data is printed in block style, four columns deeper for each level; a collection inside a list
begins on the line of its dash. Text is printed plain where it would be read back as the same text,
and quoted otherwise.
-/

set_option autoImplicit false

namespace Covenant.Yaml

/-!
## Scalars
-/

structure Analysis where
  multiline : Bool
  plainAllowed : Bool
  singleAllowed : Bool
  blockAllowed : Bool

def isPrinted (point : Nat) : Bool :=
  point == 10 || (0x20 ≤ point && point ≤ 0x7E)
    || (0xA0 ≤ point && point ≤ 0xFFFD && point != 0xFEFF)

def isIndicator (point : Nat) : Bool :=
  "#,[]\x7b\x7d&*!|>'\"%@`".toList.any (fun letter => letter.toNat == point)

def hasIndicators : Option Nat → List Nat → Bool
  | _, [] => false
  | before, point :: rest =>
    let spaceBehind := rest.isEmpty || rest.head?.any isBlank
    let stops := match before with
      | none =>
        isIndicator point || ((point == 63 || point == 58 || point == 45) && spaceBehind)
      | some previous =>
        (point == 58 && spaceBehind)
          || (point == 35 && (isBlank previous || isBreak previous || previous == 0))
    stops || hasIndicators (some point) rest

def hasPair (first second : Nat → Bool) : List Nat → Bool
  | left :: right :: rest => (first left && second right) || hasPair first second (right :: rest)
  | _ => false

def analyze (value : Text) : Analysis :=
  let points := Text.codePoints value
  if points.isEmpty then ⟨false, true, true, false⟩
  else
    let isSpace (point : Nat) : Bool := point == 32
    let edge := points.head?.any (fun point => isSpace point || isBreak point)
      || points.getLast?.any (fun point => isSpace point || isBreak point)
    let breaks := points.any isBreak
    let tabs := points.any (· == 9)
    let special := points.any (fun point => point != 9 && !isPrinted point)
    let breakSpace := hasPair isBreak isSpace points
    let spaceBreak := hasPair isSpace isBreak points
    let marks := points.take 3 == [45, 45, 45] || points.take 3 == [46, 46, 46]
    { multiline := breaks
      plainAllowed := !(edge || breakSpace || spaceBreak || tabs || special || breaks || marks
        || hasIndicators none points)
      singleAllowed := !(breakSpace || spaceBreak || tabs || special)
      blockAllowed := !(points.getLast?.any isSpace || spaceBreak || special) }

def doubleQuotedPoint (point : Nat) : Text :=
  if isPrinted point && !isBreak point && point != 34 && point != 92 then Text.ofCodePoint point
  else
    "\\" ++ match escapes.find? (·.2 == point) with
      | some (letter, _) => Text.ofCodePoint letter
      | none =>
        let (letter, width) : String × Nat :=
          if point ≤ 0xFF then ("x", 2) else if point ≤ 0xFFFF then ("u", 4) else ("U", 8)
        Text.ofString letter ++ (Text.hex width point).map Text.capital

def doubleQuoted (value : Text) : Text :=
  "\"" ++ (Text.codePoints value).flatMap doubleQuotedPoint ++ "\""

def singleQuoted (value : Text) : Text :=
  "'" ++ Text.replace "'" "''" value ++ "'"

def oldWords : List String :=
  ["y", "Y", "yes", "Yes", "YES", "on", "On", "ON", "n", "N", "no", "No", "NO", "off", "Off", "OFF"]

/-- The parts behind the first one of a number in base sixty: colons with one or two digits, and an
optional fraction. -/
def isSexagesimalRest : Bool → Text → Bool
  | found, [] => found
  | _, 58 :: high :: low :: rest =>
    if 48 ≤ high && high ≤ 53 && Text.isDigit low then isSexagesimalRest true rest
    else Text.isDigit high && isSexagesimalRest true (low :: rest)
  | _, [58, digit] => Text.isDigit digit
  | found, 46 :: rest => found && rest.all (fun byte => Text.isDigit byte || byte == 95)
  | _, _ => false

def isSexagesimal (value : Text) : Bool :=
  let body := match value with
    | 43 :: rest | 45 :: rest => rest
    | _ => value
  match body with
  | first :: rest =>
    Text.isDigit first
      && isSexagesimalRest false (rest.dropWhile (fun byte => Text.isDigit byte || byte == 95))
  | [] => false

def readsBack (value : Text) : Bool :=
  match Scalar.ofPlain value with
  | .text _ => !isSexagesimal value && !oldWords.any (fun word => Text.ofString word == value)
  | _ => false

/-- The mark of a block of lines: how deep it is if it starts with space, and what happens to line
breaks at its end. -/
def blockMark (value : Text) : Text :=
  let points := Text.codePoints value
  let depth : Text := if points.head?.any (fun point => point == 32 || isBreak point) then "4" else []
  let ending : Text := match points.reverse with
    | last :: before =>
      if !isBreak last then "-" else if before.isEmpty || before.head?.any isBreak then "+" else []
    | [] => "-"
  "|" ++ depth ++ ending

def spaces (count : Nat) : Text := List.replicate count 32

def blockLines (indent : Nat) (value : Text) : List Text :=
  let body := match value with
    | 10 :: rest => rest
    | _ => value
  let lines := Text.split "\n" body
  let kept := if lines.getLast? == some [] then lines.dropLast else lines
  kept.map (fun line => if line.isEmpty then [] else spaces indent ++ line)

def textLines (asKey : Bool) (indent : Nat) (value : Text) : Text × List Text :=
  let analysis := analyze value
  if Text.contains value "\n" then
    if analysis.blockAllowed && !asKey then (blockMark value, blockLines indent value)
    else (doubleQuoted value, [])
  else if !readsBack value then (doubleQuoted value, [])
  else if analysis.plainAllowed then (value, [])
  else if analysis.singleAllowed then (singleQuoted value, [])
  else (doubleQuoted value, [])

def floatText (value : Float) : Text :=
  if value.isNaN then ".nan"
  else if value.isInf then if value < 0.0 then "-.inf" else ".inf"
  else Number.text value

def Scalar.lines (asKey : Bool) (indent : Nat) : Scalar → Text × List Text
  | .null => ("null", [])
  | .bool value => (if value then "true" else "false", [])
  | .int value => (Text.ofInt value, [])
  | .float value => (floatText value, [])
  | .time normal => (normal, [])
  | .text value => textLines asKey indent value

/-!
## Order of keys
-/

/-- Numbers come before text and compare by value; truth values count as numbers. -/
def Scalar.number? : Scalar → Option Float
  | .bool value => some (if value then 1.0 else 0.0)
  | .int value => some (Number.ofInt value)
  | .float value => some value
  | _ => none

def Scalar.rank : Scalar → Nat
  | .bool _ => 1
  | .int value => if value < 0x8000000000000000 then 2 else 11
  | .float _ => 14
  | .null => 20
  | .text _ => 24
  | .time _ => 25

/-- The value of the digits in front, on top of a value, and how many there are. -/
def leadingNumber (value : Int) : List Nat → Int × Nat
  | [] => (value, 0)
  | point :: rest =>
    if Text.isDigitPoint point then
      let (total, count) := leadingNumber (value * 10 + (point - 48 : Int)) rest
      (total, count + 1)
    else (value, 0)

/-- Whether the digits right before a place hold one that is not zero. The latest stands first. -/
def hasNonzeroDigit : List Nat → Bool
  | [] => false
  | point :: before => Text.isDigitPoint point && (point != 48 || hasNonzeroDigit before)

/-- Numbers inside names compare by value, and letters come after other characters unless digits
stand in front. `before` holds the common start, the latest first. -/
def nameLess (before : List Nat) : List Nat → List Nat → Bool
  | [], right => !right.isEmpty
  | _ :: _, [] => false
  | left :: lefts, right :: rights =>
    if left == right then nameLess (left :: before) lefts rights
    else
      let leftLetter := Text.isLetterPoint left
      let rightLetter := Text.isLetterPoint right
      let digits := before.head?.any Text.isDigitPoint
      if leftLetter && rightLetter then left < right
      else if leftLetter || rightLetter then if digits then leftLetter else rightLetter
      else
        let start : Int := if (left == 48 || right == 48) && hasNonzeroDigit before then 1 else 0
        let (leftNumber, leftCount) := leadingNumber start (left :: lefts)
        let (rightNumber, rightCount) := leadingNumber start (right :: rights)
        if leftNumber != rightNumber then leftNumber < rightNumber
        else if leftCount != rightCount then leftCount < rightCount
        else left < right

def Scalar.less (left right : Scalar) : Bool :=
  match left.number?, right.number? with
  | some leftNumber, some rightNumber =>
    if leftNumber != rightNumber then leftNumber < rightNumber
    else if left.rank != right.rank then left.rank < right.rank
    else match left, right with
      | .int leftValue, .int rightValue => leftValue < rightValue
      | _, _ => false
  | _, _ =>
    match left, right with
    | .text leftText, .text rightText =>
      nameLess [] (Text.codePoints leftText) (Text.codePoints rightText)
    | _, _ => left.rank < right.rank

/-!
## Collections
-/

def deeper (indent : Nat) : Nat := 4 * ((indent + 4) / 4)

/-- A collection on lines of its own moved behind a mark that stands further left. -/
def behindMark (indent : Nat) (mark : String) : List Text → List Text
  | [] => []
  | first :: others =>
    (spaces indent ++ Text.ofString mark ++ first.drop (indent + 1)) :: others

/-- What is printed behind a mark or a key: something on the same line with lines behind it, or
lines that stand by themselves. -/
inductive Printed where
  | inline (text : Text) (others : List Text)
  | block (lines : List Text)

def itemLines (indent : Nat) : Printed → List Text
  | .inline text others => (spaces indent ++ "- " ++ text) :: others
  | .block lines => behindMark indent "-" lines

def longestKey : Nat := 128

def isSimpleKey : Scalar → Bool
  | .text value => !(analyze value).multiline && value.length ≤ longestKey
  | _ => true

def entryLines (indent : Nat) (key : Scalar) (value : Printed) : List Text :=
  if isSimpleKey key then
    let head := spaces indent ++ (key.lines true (deeper indent)).1 ++ ":"
    match value with
    | .inline text others => (head ++ " " ++ text) :: others
    | .block lines => head :: lines
  else
    let (text, others) := key.lines false (deeper indent)
    let head := (spaces indent ++ "? " ++ text) :: others
    head ++ match value with
      | .inline text others => (spaces indent ++ ": " ++ text) :: others
      | .block lines => behindMark indent ":" lines

def sortedLines (entries : List (Scalar × List Text)) : List Text :=
  (entries.mergeSort (fun left right => !right.1.less left.1)).flatMap (·.2)

mutual

def Datum.print (indent : Nat) : Datum → Printed
  | .scalar value =>
    let (text, others) := value.lines false indent
    .inline text others
  | .list [] => .inline "[]" []
  | .list (item :: items) => .block (Datum.printItems indent (item :: items))
  | .map _ [] => .inline "\x7b\x7d" []
  | .map _ (entry :: entries) =>
    .block (sortedLines (Datum.printEntries indent (entry :: entries)))

def Datum.printItems (indent : Nat) : List Datum → List Text
  | [] => []
  | item :: items => itemLines indent (item.print (indent + 2)) ++ Datum.printItems indent items

def Datum.printEntries (indent : Nat) : List (Scalar × Datum) → List (Scalar × List Text)
  | [] => []
  | (key, value) :: entries =>
    (key, entryLines indent key (value.print (deeper indent)))
      :: Datum.printEntries indent entries

end

end Covenant.Yaml
