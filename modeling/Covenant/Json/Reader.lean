import Covenant.Json

/-!
# Reading JSON

A document is read whole. Texts may escape characters as UTF-16 units. Half of a surrogate pair, and
bytes that are no characters, become the replacement character. Containers may be nested up to a
limit.
-/

set_option autoImplicit false

namespace Covenant.Json

def isBlank (byte : UInt8) : Bool := byte == 32 || byte == 9 || byte == 10 || byte == 13

def skipBlanks (text : Text) : Text := text.dropWhile isBlank

/-!
## Texts
-/

inductive Piece where
  | byte (byte : UInt8)
  | unit (unit : Nat)

def simpleEscape? (letter : UInt8) : Option UInt8 :=
  match letter.toNat with
  | 34 => some 34
  | 92 => some 92
  | 47 => some 47
  | 98 => some 8
  | 102 => some 12
  | 110 => some 10
  | 114 => some 13
  | 116 => some 9
  | _ => none

def unitOf? (a b c d : UInt8) : Option Nat := do
  let high ← Text.hexValue? a
  let next ← Text.hexValue? b
  let third ← Text.hexValue? c
  let low ← Text.hexValue? d
  return high * 4096 + next * 256 + third * 16 + low

def readPieces : Text → Option (List Piece × Text)
  | [] => none
  | 34 :: rest => some ([], rest)
  | 92 :: 117 :: a :: b :: c :: d :: rest => do
      let unit ← unitOf? a b c d
      let (pieces, after) ← readPieces rest
      return (.unit unit :: pieces, after)
  | 92 :: letter :: rest => do
      let byte ← simpleEscape? letter
      let (pieces, after) ← readPieces rest
      return (.byte byte :: pieces, after)
  | byte :: rest => do
      if byte < 32 || byte == 92 then none
      else
        let (pieces, after) ← readPieces rest
        return (.byte byte :: pieces, after)

def surrogatePair? (high low : Nat) : Option Nat :=
  if 0xD800 ≤ high && high < 0xDC00 && 0xDC00 ≤ low && low < 0xE000 then
    some (0x10000 + (high - 0xD800) * 0x400 + (low - 0xDC00))
  else none

def unitPoint (unit : Nat) : Nat :=
  if 0xD800 ≤ unit && unit < 0xE000 then Text.replacement else unit

/-- Joins pieces into a text; `run` holds the plain bytes just before, latest first. -/
def assemble (run : Text) : List Piece → Text
  | [] => flush run
  | .byte byte :: pieces => assemble (byte :: run) pieces
  | .unit high :: .unit low :: pieces =>
    match surrogatePair? high low with
    | some point => flush run ++ Text.ofCodePoint point ++ assemble [] pieces
    | none => flush run ++ Text.ofCodePoint (unitPoint high) ++ assemble [] (.unit low :: pieces)
  | .unit unit :: pieces => flush run ++ Text.ofCodePoint (unitPoint unit) ++ assemble [] pieces
where
  flush (run : Text) : Text := Text.ofCodePoints (Text.codePoints run.reverse)

def readText (source : Text) : Option (Text × Text) :=
  (readPieces source).map (fun (pieces, rest) => (assemble [] pieces, rest))

/-!
## Numbers
-/

def readDigitRun (source : Text) : Option (Text × Text) :=
  let digits := source.takeWhile Text.isDigit
  if digits.isEmpty then none else some (digits, source.drop digits.length)

def readWhole (source : Text) : Option (Text × Text) :=
  match source with
  | 48 :: rest => some ([48], rest)
  | _ => readDigitRun source

def readFraction (source : Text) : Option (Text × Text) :=
  match source with
  | 46 :: rest => (readDigitRun rest).map (fun (digits, after) => (46 :: digits, after))
  | _ => some ([], source)

def readExponent (source : Text) : Option (Text × Text) :=
  match source with
  | mark :: rest =>
    if mark == 101 || mark == 69 then
      match rest with
      | sign :: digits =>
        if sign == 43 || sign == 45 then
          (readDigitRun digits).map (fun (found, after) => (mark :: sign :: found, after))
        else (readDigitRun rest).map (fun (found, after) => (mark :: found, after))
      | [] => none
    else some ([], source)
  | [] => some ([], [])

def readNumber (source : Text) : Option (Text × Text) := do
  let (sign, unsigned) := match source with
    | 45 :: rest => (([45] : Text), rest)
    | _ => (([] : Text), source)
  let (whole, rest) ← readWhole unsigned
  let (fraction, rest) ← readFraction rest
  let (exponent, rest) ← readExponent rest
  return (sign ++ whole ++ fraction ++ exponent, rest)

/-!
## Documents
-/

def nestingLimit : Nat := 10000

def expectWord (word : String) (source : Text) : Option Text :=
  let bytes := Text.ofString word
  if Text.startsWith source bytes then some (source.drop bytes.length) else none

section

variable {α : Type} (read : Text → Option (α × Text)) (closing : UInt8)

/-- Reads up to `count` parts with commas between them, and the closing byte behind the last. -/
def readParts : Nat → Text → Option (List α × Text)
  | 0, _ => none
  | count + 1, source => do
      let (part, rest) ← read source
      match skipBlanks rest with
      | [] => none
      | byte :: more =>
        if byte == 44 then
          let (parts, after) ← readParts count more
          return (part :: parts, after)
        else if byte == closing then return ([part], more)
        else none

def readContainer (source : Text) : Option (List α × Text) :=
  match skipBlanks source with
  | [] => none
  | byte :: after =>
    if byte == closing then some ([], after) else readParts read closing source.length source

end

def readMember (read : Text → Option (Json × Text)) (source : Text) :
    Option ((Text × Json) × Text) :=
  match skipBlanks source with
  | 34 :: start => do
      let (name, rest) ← readText start
      match skipBlanks rest with
      | 58 :: rest =>
        let (value, after) ← read rest
        return ((name, value), after)
      | _ => none
  | _ => none

def readValue (room : Nat) (source : Text) : Option (Json × Text) :=
  match skipBlanks source with
  | 34 :: rest => (readText rest).map (fun (value, after) => (.text value, after))
  | 91 :: rest =>
    match room with
    | 0 => none
    | room + 1 =>
      (readContainer (readValue room) 93 rest).map (fun (items, after) => (.list items, after))
  | 123 :: rest =>
    match room with
    | 0 => none
    | room + 1 =>
      (readContainer (readMember (readValue room)) 125 rest).map
        (fun (members, after) => (.object members, after))
  | 116 :: rest => (expectWord "rue" rest).map (fun after => (.bool true, after))
  | 102 :: rest => (expectWord "alse" rest).map (fun after => (.bool false, after))
  | 110 :: rest => (expectWord "ull" rest).map (fun after => (.null, after))
  | start => (readNumber start).map (fun (literal, after) => (.number literal, after))

def read (source : Text) : Option Json :=
  match readValue nestingLimit source with
  | some (json, rest) => if (skipBlanks rest).isEmpty then some json else none
  | none => none

end Covenant.Json
