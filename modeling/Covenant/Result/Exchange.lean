import Covenant.Json.Reader
import Covenant.Number.Decimal
import Covenant.Result

/-!
# Results as JSON

Results are written and read as JSON objects. Absent and null members leave the zero value;
unknown members are ignored, and names are matched without regard to case. A member of the wrong
type makes the whole document unreadable.
-/

set_option autoImplicit false

namespace Covenant

/-!
## Writing
-/

def Json.textUnlessEmpty (name : String) (value : Text) : List (Text × Json) :=
  if value.isEmpty then [] else [(Text.ofString name, .text value)]

def FailureNote.toJson (note : FailureNote) : Json :=
  let arguments := note.arguments.mergeSort (fun left right => Text.le left.1 right.1)
  .object ([(Text.ofString "kind", Json.text note.kind),
    (Text.ofString "message", Json.text note.message)]
    ++ if arguments.isEmpty then []
      else [(Text.ofString "args",
        Json.object (arguments.map (fun (name, value) => (name, .text value))))])

def Target.toJson (target : Target) : Json :=
  .object (Json.textUnlessEmpty "package" target.package
    ++ [(Text.ofString "function", Json.text target.function)]
    ++ Json.textUnlessEmpty "location" target.location)

def TestResult.toJson (result : TestResult) : Json :=
  let required : List (Text × Json) :=
    [("id", .text result.id), ("target", result.target.toJson),
      ("verdict", .text result.verdict.label), ("cases", .ofInt result.cases),
      ("executed", .ofInt result.executed), ("skipped", .ofInt result.skipped),
      ("timed_out", .ofInt result.timedOut)]
  let failure : List (Text × Json) :=
    (result.failure.map (fun note => (Text.ofString "failure", note.toJson))).toList
  let complexity : List (Text × Json) :=
    if result.complexity = 0 then [] else [("complexity", .ofInt result.complexity)]
  let warnings : List (Text × Json) :=
    if result.warnings.isEmpty then [] else [("warnings", .list (result.warnings.map .text))]
  let duration : List (Text × Json) := [("duration_ms", .ofInt result.duration)]
  .object (required ++ failure ++ complexity ++ warnings ++ duration)

def Exchange.encode (results : List TestResult) : Text :=
  (Json.list (results.map (·.toJson))).print

/-!
## Reading
-/

namespace Exchange

/-- A name without regard to case; two further letters are folded into ASCII. -/
def fold (name : Text) : Text :=
  Text.ofCodePoints ((Text.codePoints name).map fun point =>
    if 65 ≤ point && point ≤ 90 then point + 32
    else if point = 0x17F then 115
    else if point = 0x212A then 107
    else point)

def isNamed (name : String) (member : Text) : Bool := fold member == Text.ofString name

def readText (earlier : Text) : Json → Option Text
  | .null => some earlier
  | .text value => some value
  | _ => none

def readInt (earlier : Int) : Json → Option Int
  | .null => some earlier
  | .number literal => (Number.readInt literal).toOption
  | _ => none

def readTexts : List Text → List Json → Option (List Text)
  | _, [] => some []
  | earlier, json :: rest => do
      let value ← readText (earlier.headD []) json
      let values ← readTexts earlier.tail rest
      return value :: values

def insert (name value : Text) (entries : List (Text × Text)) : List (Text × Text) :=
  entries.filter (fun entry => entry.1 != name) ++ [(name, value)]

def readMembers {α : Type} (set : α → Text → Json → Option α) (record : α)
    (members : List (Text × Json)) : Option α :=
  members.foldlM (fun record (name, value) => set record name value) record

def setFailure (note : FailureNote) (name : Text) (json : Json) : Option FailureNote :=
  if isNamed "kind" name then do return { note with kind := ← readText note.kind json }
  else if isNamed "message" name then do
    return { note with message := ← readText note.message json }
  else if isNamed "args" name then
    match json with
    | .null => some { note with arguments := [] }
    | .object members => do
        let arguments ← members.foldlM (fun entries (key, value) => do
          return insert key (← readText [] value) entries) note.arguments
        return { note with arguments := arguments }
    | _ => none
  else some note

def setTarget (target : Target) (name : Text) (json : Json) : Option Target :=
  if isNamed "package" name then do return { target with package := ← readText target.package json }
  else if isNamed "function" name then do
    return { target with function := ← readText target.function json }
  else if isNamed "location" name then do
    return { target with location := ← readText target.location json }
  else some target

def setResult (result : TestResult) (name : Text) (json : Json) : Option TestResult :=
  if isNamed "id" name then do return { result with id := ← readText result.id json }
  else if isNamed "target" name then
    match json with
    | .null => some result
    | .object members => do
        return { result with target := ← readMembers setTarget result.target members }
    | _ => none
  else if isNamed "verdict" name then do
    return { result with verdict := .ofLabel (← readText result.verdict.label json) }
  else if isNamed "cases" name then do return { result with cases := ← readInt result.cases json }
  else if isNamed "executed" name then do
    return { result with executed := ← readInt result.executed json }
  else if isNamed "skipped" name then do
    return { result with skipped := ← readInt result.skipped json }
  else if isNamed "timed_out" name then do
    return { result with timedOut := ← readInt result.timedOut json }
  else if isNamed "failure" name then
    match json with
    | .null => some { result with failure := none }
    | .object members => do
        let note ← readMembers setFailure (result.failure.getD ⟨[], [], []⟩) members
        return { result with failure := some note }
    | _ => none
  else if isNamed "complexity" name then do
    return { result with complexity := ← readInt result.complexity json }
  else if isNamed "warnings" name then
    match json with
    | .null => some { result with warnings := [] }
    | .list items => do
        return { result with warnings := ← readTexts result.warnings items }
    | _ => none
  else if isNamed "duration_ms" name then do
    return { result with duration := ← readInt result.duration json }
  else some result

def blank : TestResult :=
  { id := [], target := ⟨[], [], []⟩, verdict := .ofLabel [], cases := 0, executed := 0
    skipped := 0, timedOut := 0, failure := none, complexity := 0, warnings := [], duration := 0 }

def readResult : Json → Option TestResult
  | .null => some blank
  | .object members => readMembers setResult blank members
  | _ => none

def readResults : Json → Option (Option (List TestResult))
  | .null => some none
  | .list items => do
      let results ← items.mapM readResult
      return some results
  | _ => none

inductive ReadFailure where
  | noOutput
  | malformed
  deriving DecidableEq, Repr

def decode (source : Text) : Except ReadFailure (Option (List TestResult)) :=
  if (Text.trim source).isEmpty then .error .noOutput
  else
    match (Json.read source).bind readResults with
    | some results => .ok results
    | none => .error .malformed

end Exchange

end Covenant
