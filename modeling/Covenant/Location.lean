import Covenant.Number.Decimal
import Covenant.Text.Quoted

/-!
# Source locations

A location is a file and a line. It is written with a colon between them; since file names may
hold colons, the last one counts when it is read back.
-/

set_option autoImplicit false

namespace Covenant

structure Location where
  file : Text
  line : Int
  deriving DecidableEq, Repr

namespace Location

def unknown : Location := ⟨[], 0⟩

def text (location : Location) : Text :=
  if location.file.isEmpty then []
  else location.file ++ ":" ++ Text.ofInt location.line

inductive SplitError where
  | noLine
  | badLine (line : Text) (cause : Number.ReadError)
  deriving DecidableEq, Repr

def SplitError.message (location : Text) : SplitError → Text
  | .noLine => "location " ++ Text.quoted location ++ " has no line"
  | .badLine line cause =>
    let reason := match cause with
      | .malformed => "invalid syntax"
      | .outOfRange => "value out of range"
    "location " ++ Text.quoted location ++ ": strconv.Atoi: parsing "
      ++ Text.quoted line ++ ": " ++ Text.ofString reason

def atLastColon? (text : Text) : Option (Text × Text) :=
  let line := (text.reverse.takeWhile (· != 58)).reverse
  if line.length == text.length then none
  else some (text.take (text.length - line.length - 1), line)

/-- Reads a location. Where the line cannot be read, the file is still known and the line is
zero. -/
def split (text : Text) : Location × Option SplitError :=
  match atLastColon? text with
  | none => (⟨text, 0⟩, some .noLine)
  | some (file, line) =>
    match Number.readInt line with
    | .ok number => (⟨file, number⟩, none)
    | .error cause => (⟨file, 0⟩, some (.badLine line cause))

end Location

end Covenant
