import Covenant.Result.Exchange
import Covenant.Timestamp

/-!
# Reports

A report holds the results of a run, sorted, with their summary and the circumstances of the run.
It is printed as JSON or as text.
-/

set_option autoImplicit false

namespace Covenant

structure Metadata where
  runId : Text
  version : Text
  languageVersion : Text
  target : Text
  timestamp : Timestamp
  duration : Int
  warnings : Option (List Text)

structure Report where
  results : List TestResult
  summary : Summary
  metadata : Metadata

namespace Report

def formatVersion : Text := "1.0.0"

/-- The report on results, which are sorted and summed up. -/
def build (results : List TestResult) (metadata : Metadata) : Report :=
  let sorted := TestResult.sort results
  ⟨sorted, .ofResults sorted, metadata⟩

def summaryJson (summary : Summary) : Json :=
  .object [("functions", .ofInt summary.functions), ("passed", .ofInt summary.passed),
    ("untested", .ofInt summary.untested), ("failed", .ofInt summary.failed),
    ("executed", .ofInt summary.executed),
    ("untested_names", .list (summary.untestedNames.map .text))]

def metadataJson (metadata : Metadata) : Json :=
  let warnings : Json := match metadata.warnings with
    | some warnings => .list (warnings.map .text)
    | none => .null
  let timestamp : List (Text × Json) :=
    if metadata.timestamp = .zero then [] else [("timestamp", .text metadata.timestamp.print)]
  .object ([(Text.ofString "run_id", Json.text metadata.runId),
    ("paranoid_version", Json.text metadata.version),
    ("go_version", Json.text metadata.languageVersion),
    ("target", Json.text metadata.target),
    ("warnings", warnings),
    ("duration_ms", Json.ofInt (metadata.duration.tdiv 1000000))] ++ timestamp)

def toJson (report : Report) : Json :=
  .object [("version", .text formatVersion), ("results", .list (report.results.map (·.toJson))),
    ("summary", summaryJson report.summary), ("metadata", metadataJson report.metadata)]

end Report

end Covenant
