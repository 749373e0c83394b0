import Covenant.Report
import Covenant.Text.Capital

/-!
# Reports as text

A report is printed as lines and table rows: to be read at once, or to be browsed function by
function. Highlighted text shows tabs as four spaces.
-/

set_option autoImplicit false

namespace Covenant.Report

inductive Line where
  | text (line : Text)
  | row (cells : List Text)

def trimEnd (line : Text) : Text := (line.reverse.dropWhile (· == 32)).reverse

def linesOf (text : Text) : List Line := (Text.split "\n" text).map (fun line => .text (trimEnd line))

def highlighted (text : Text) : Text :=
  Text.replace [9] (List.replicate 4 32) (Text.replace "\r\n" "\n" text)

def cell (text : Text) : Text := Text.trim (highlighted text)

def complexityCell (complexity : Int) : Text :=
  if 0 < complexity then Text.ofInt complexity else "-"

def nameWidth : Nat := 36

/-- Long names lose their beginning. -/
def shortName (name : Text) : Text :=
  if nameWidth < name.length then
    "..." ++ name.drop (name.length - nameWidth + 3)
  else name

/-- The last two elements of a path. -/
def shortPath (path : Text) : Text :=
  let parts := Text.split "/" path
  if parts.length ≤ 2 then path else Text.join "/" (parts.drop (parts.length - 2))

def resultRow (result : TestResult) : Line :=
  .row ([Text.capitals result.verdict.label, shortName result.target.function,
    Text.ofInt result.executed, Text.ofInt result.skipped, Text.ofInt result.timedOut,
    complexityCell result.complexity].map cell)

def failureLines (result : TestResult) : List Line :=
  match result.failure with
  | none => []
  | some note =>
    let arguments := note.arguments.mergeSort (fun left right => Text.le left.1 right.1)
    linesOf ("  " ++ result.target.function ++ " (" ++ note.kind ++ ")")
      ++ (if result.target.location.isEmpty then []
        else linesOf (highlighted ("    " ++ shortPath result.target.location)))
      ++ (Text.split "\n" note.message).map
        (fun line => .text (trimEnd ("    " ++ line))) ++ if arguments.isEmpty then []
        else linesOf (highlighted ("    args: " ++ Text.join ", "
          (arguments.map (fun (name, value) => name ++ "=" ++ value))))

def sectionLines (title : String) (lines : List Line) : List Line :=
  if lines.isEmpty then [] else .text [] :: .text title :: lines

def warningLines (report : Report) : List Line :=
  let ofResults := report.results.flatMap fun result =>
    result.warnings.map (fun warning => result.target.function ++ ": " ++ warning)
  (ofResults ++ report.metadata.warnings.getD []).flatMap
    (fun warning => linesOf ("  " ++ warning))

def closingLines (summary : Summary) : List Line :=
  let counts := Text.ofInt summary.functions ++ " function(s) verified: "
    ++ Text.ofInt summary.passed ++ " passed, " ++ Text.ofInt summary.untested
    ++ " untested, " ++ Text.ofInt summary.failed ++ " failed ("
    ++ Text.ofInt summary.executed ++ " cases)"
  [.text [], .text counts]
    ++ if summary.untestedNames.isEmpty then []
      else linesOf (highlighted ("WARNING: The following functions were untested: "
        ++ Text.join ", " summary.untestedNames))

def textLines (report : Report) (showPassed : Bool) : List Line :=
  let title :=
    if report.metadata.target.isEmpty then Text.ofString "paranoid verify"
    else report.metadata.target
  let shown := report.results.filter (fun result => showPassed || result.verdict != .passed)
  let table : List Line :=
    if !shown.isEmpty then
      .row ["VERDICT", "FUNCTION", "RUN", "SKIP", "T/O", "CC"] :: shown.map resultRow
    else if !report.results.isEmpty then [.text "    All functions passed."]
    else []
  linesOf (highlighted (Text.ofString "=== " ++ title ++ Text.ofString " ===")) ++ table
    ++ sectionLines "Failures:" (report.results.flatMap failureLines)
    ++ sectionLines "Warnings:" (warningLines report)
    ++ closingLines report.summary ++ [.text []]

def browsedResult (result : TestResult) : List Line :=
  let heading := highlighted ("[" ++ Text.capitals result.verdict.label
    ++ "]") ++ " " ++ highlighted result.target.qualifiedName
  let numbers := [Text.ofInt result.cases, Text.ofInt result.executed, Text.ofInt result.skipped,
    Text.ofInt result.timedOut, complexityCell result.complexity, Text.ofInt result.duration]
  linesOf heading
    ++ (if result.target.location.isEmpty then []
      else linesOf (highlighted ("    " ++ result.target.location)))
    ++ [.row ["CASES", "RUN", "SKIP", "T/O", "CC", "MS"], .row numbers]
    ++ (match result.failure with
      | none => []
      | some note =>
        linesOf (highlighted ("    " ++ note.kind)) ++ (Text.split "\n" note.message).map
            (fun line => .text (trimEnd ("    " ++ line)))) ++ result.warnings.flatMap
      (fun warning => linesOf (highlighted ("    warning: " ++ warning))) ++ [.text []]

def browsedLines (report : Report) (showPassed : Bool) : List Line :=
  let summary := report.summary
  let shown := report.results.filter (fun result => showPassed || result.verdict != .passed)
  let hidden := report.results.length - shown.length
  [.text ("Paranoid Verify: " ++ Text.ofInt summary.functions
    ++ " function(s), " ++ Text.ofInt summary.passed ++ " passed, "
    ++ Text.ofInt summary.untested ++ " untested, " ++ Text.ofInt summary.failed
    ++ " failed"), .text [], .text []] ++ shown.flatMap browsedResult ++ (if hidden = 0 then []
      else [.text (Text.ofNat hidden ++ " passing function(s) hidden.")]) ++ [.text []]

end Covenant.Report
