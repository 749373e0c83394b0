import Covenant.Text

/-!
# Records of comma-separated fields

A field in quotes may hold commas, line breaks, and quotes that are written twice; elsewhere a quote
is a fault. Empty lines in front of a record are passed over, and what follows the record is not
looked at.
-/

set_option autoImplicit false

namespace Covenant.Csv

inductive Fault where
  | bareQuote
  | strayQuote
  deriving DecidableEq, Repr

inductive RecordError where
  | absent
  | faulty (fault : Fault) (start line column : Nat)
  deriving DecidableEq, Repr

def Fault.message : Fault → Text
  | .bareQuote => "bare \" in non-quoted field"
  | .strayQuote => "extraneous or missing \" in quoted-field"

def RecordError.message : RecordError → Text
  | .absent => "EOF"
  | .faulty fault start line column =>
    let place := "parse error on line " ++ Text.ofNat line
      ++ ", column " ++ Text.ofNat column ++ ": " ++ fault.message
    if start = line then place
    else "record on line " ++ Text.ofNat start ++ "; " ++ place

/-- The lines of a source, each with its line break in normal form. A return at the very end is
dropped. -/
def linesOf (source : Text) : List Text :=
  let parts := Text.split "\n" source
  let normal (line : Text) : Text := if line.getLast? == some 13 then line.dropLast else line
  let ended := parts.dropLast.map (fun line => normal line ++ [10])
  let last := normal (parts.getLastD [])
  if (parts.getLastD []).isEmpty then ended else ended ++ [last]

def body (line : Text) : Text := if line.getLast? == some 10 then line.dropLast else line

structure Place where
  start : Nat
  line : Nat
  column : Nat

def Place.fail {α : Type} (place : Place) (fault : Fault) : Except RecordError α :=
  .error (.faulty fault place.start place.line place.column)

def Place.skip (place : Place) (count : Nat) : Place :=
  { place with column := place.column + count }

mutual

/-- Reads the fields from the start of one; `line` is what is left of the line, and `others` are
the lines behind it. -/
def readFields (fuel : Nat) (others : List Text) (place : Place) (line : Text) :
    Except RecordError (List Text) :=
  match fuel with
  | 0 => .error .absent
  | fuel + 1 =>
    match line with
    | 34 :: rest => readQuoted fuel others (place.skip 1) [] rest
    | _ =>
      let field := (line.takeWhile (· != 44))
      let hasNext := field.length < line.length
      let field := if hasNext then field else body field
      match field.findIdx? (· == 34) with
      | some position => (place.skip position).fail .bareQuote
      | none =>
        if hasNext then
          (field :: ·) <$> readFields fuel others (place.skip (field.length + 1))
            (line.drop (field.length + 1))
        else .ok [field]

/-- Reads the rest of a quoted field and the fields behind it; `done` is what was read of it. -/
def readQuoted (fuel : Nat) (others : List Text) (place : Place) (done : Text) (line : Text) :
    Except RecordError (List Text) :=
  match fuel with
  | 0 => .error .absent
  | fuel + 1 =>
    let inside := line.takeWhile (· != 34)
    if inside.length < line.length then
      let after := line.drop (inside.length + 1)
      let place := place.skip (inside.length + 1)
      match after with
      | 34 :: rest => readQuoted fuel others (place.skip 1) (done ++ inside ++ [34]) rest
      | 44 :: rest => ((done ++ inside) :: ·) <$> readFields fuel others (place.skip 1) rest
      | [] | [10] => .ok [done ++ inside]
      | _ => { place with column := place.column - 1 }.fail .strayQuote
    else if line.isEmpty then place.fail .strayQuote
    else
      match others with
      | [] => (place.skip line.length).fail .strayQuote
      | next :: others =>
        readQuoted fuel others ⟨place.start, place.line + 1, 1⟩ (done ++ line) next

end

def readRecord (source : Text) : Except RecordError (List Text) :=
  let lines := linesOf source
  let empty := lines.takeWhile (fun line => line.isEmpty || line == [10])
  match lines.drop empty.length with
  | [] => .error .absent
  | line :: others =>
    readFields (2 * source.length + 2) others ⟨empty.length + 1, empty.length + 1, 1⟩ line

end Covenant.Csv
