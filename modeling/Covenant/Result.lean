import Covenant.Digest
import Covenant.HostType

/-!
# Results

The outcome of testing one function with generated values, and the summary of a run.
-/

set_option autoImplicit false

namespace Covenant

/-- What testing a function showed. Results that are read from elsewhere may carry other words. -/
inductive Verdict where
  | passed
  | untested
  | failed
  | other (label : Text)
  deriving DecidableEq, Repr

namespace Verdict

def label : Verdict → Text
  | .passed => "passed"
  | .untested => "untested"
  | .failed => "failed"
  | .other label => label

def ofLabel (label : Text) : Verdict :=
  if label == "passed" then .passed
  else if label == "untested" then .untested
  else if label == "failed" then .failed
  else .other label

def rank : Verdict → Nat
  | .failed => 0
  | .untested => 1
  | .passed => 2
  | .other _ => 3

end Verdict

structure FailureNote where
  kind : Text
  message : Text
  arguments : List (Text × Text)

structure Target where
  package : Text
  function : Text
  location : Text

def Target.qualifiedName (target : Target) : Text :=
  if target.package.isEmpty then target.function
  else target.package ++ ":" ++ target.function

structure TestResult where
  id : Text
  target : Target
  verdict : Verdict
  cases : Int
  executed : Int
  skipped : Int
  timedOut : Int
  failure : Option FailureNote
  complexity : Int
  warnings : List Text
  duration : Int

def Target.identifier (target : Target) : Text :=
  let whole := target.package ++ ":" ++ target.function ++ ":" ++ target.location
  "fn-" ++ ((Digest.sha256 whole).take 4).flatMap (fun byte => Text.hex 2 byte.toNat)

namespace TestResult

/-- Results are ordered by the rank of the verdict, and then by the name of the function. -/
def order : TestResult → TestResult → Ordering :=
  compareLex (compareOn (·.verdict.rank)) (compareOn (·.target.function))

def sort (results : List TestResult) : List TestResult :=
  results.mergeSort (fun left right => (order left right).isLE)

end TestResult

structure Summary where
  functions : Int
  passed : Int
  untested : Int
  failed : Int
  executed : Int
  untestedNames : List Text

namespace Summary

def empty : Summary := ⟨0, 0, 0, 0, 0, []⟩

/-- Counts one more result: what it executed, and its verdict. -/
def add (summary : Summary) (result : TestResult) : Summary :=
  let executed := IntKind.int.wrap (summary.executed + result.executed)
  match result.verdict with
  | .passed => { summary with executed := executed, passed := summary.passed + 1 }
  | .untested =>
    { summary with
      executed := executed
      untested := summary.untested + 1
      untestedNames := summary.untestedNames ++ [result.target.function] }
  | .failed => { summary with executed := executed, failed := summary.failed + 1 }
  | .other _ => { summary with executed := executed }

def ofResults (results : List TestResult) : Summary :=
  results.foldl add { empty with functions := results.length }

def exitStatus (summary : Summary) : Int :=
  if 0 < summary.failed then 1 else if 0 < summary.untested then 2 else 0

end Summary

end Covenant
