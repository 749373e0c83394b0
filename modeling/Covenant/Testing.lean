import Covenant.Contract.Call
import Covenant.Result
import Covenant.Testing.Product

/-!
# Generated tests

A function under contract is called with every combination of the samples of its argument types. A
combination that a precondition rejects is skipped, one that does not end in time is abandoned and
counted apart, and the first other failure ends the test.
-/

set_option autoImplicit false

namespace Covenant.Testing

structure Tally where
  cases : Nat
  executed : Nat
  skipped : Nat
  timedOut : Nat
  warnings : List Text

def Tally.empty : Tally := ⟨0, 0, 0, 0, []⟩

/-- Gives a sample an identity, so that writing into it shows in later cases. -/
def adopt (value : Value) (memory : Memory) : Value × Memory :=
  let (object, next) := memory.allocate
  match value with
  | .list type 0 items =>
    match type.underlying with
    | .slice _ => (.list type object items, next)
    | _ => (value, memory)
  | .dict type 0 entries => (.dict type object entries, next)
  | .pointer type 0 target => (.pointer type object target, next)
  | _ => (value, memory)

def adoptAll : List Value → Memory → List Value × Memory
  | [], memory => ([], memory)
  | value :: values, memory =>
    let (value, memory) := adopt value memory
    let (values, memory) := adoptAll values memory
    (value :: values, memory)

inductive CaseOutcome where
  | executed
  | skipped
  | timedOut
  | failed (cause : Failure)

def CaseOutcome.of (contract : Contract) (limit : Int) : Except Failure Value → CaseOutcome
  | .ok _ => .executed
  | .error (.crash reason) => .failed (.panicked contract.name reason)
  | .error .unending => if 0 < limit then .timedOut else .failed .unending
  | .error failure =>
    if failure.isEntryConditions then .skipped
    else if failure.isTimeout then .timedOut
    else .failed failure

def Tally.count (tally : Tally) : CaseOutcome → Tally
  | .executed => { tally with executed := tally.executed + 1 }
  | .skipped => { tally with skipped := tally.skipped + 1 }
  | .timedOut => { tally with timedOut := tally.timedOut + 1 }
  | .failed _ => tally

/-- A call that a test no longer waits for. Its guarded end is left, which comes after so many more
cases, or with the end of the test. -/
structure Abandoned where
  wait : Nat
  call : Record

structure Progress where
  tally : Tally
  memory : Memory
  remembered : List Record
  abandoned : List Abandoned

section

variable (world : World) (contract : Contract) (snapshot : Snapshot)

/-- Runs the guarded end of an abandoned call, the outcome of which is lost. -/
def Progress.conclude (progress : Progress) (late : Abandoned) : Progress :=
  let ended := { contract with remembered := progress.remembered }.conclude world snapshot
    late.call progress.memory
  { progress with memory := ended.memory, remembered := ended.remembered }

def Progress.settle (due : Abandoned → Bool) (progress : Progress) : Progress :=
  (progress.abandoned.filter due).foldl (conclude world contract snapshot)
    { progress with
      abandoned := (progress.abandoned.filter (!due ·)).map
        fun late => { late with wait := late.wait - 1 } }

/-- What becomes of a case: how it is counted, the state that its call leaves, and what is left of
a call that was abandoned. -/
structure Case where
  outcome : CaseOutcome
  memory : Memory
  remembered : List Record
  abandoned : List Abandoned

/-- How long a test has to go on without a call that outlasts its time limit. -/
def delay? (arguments : Bindings) (memory : Memory) : Option Nat :=
  if 0 < snapshot.maxRuntime then world.host.delay? snapshot.maxRuntime arguments memory else none

def Case.of (arguments : Bindings) (progress : Progress) : Case :=
  let current : Contract := { contract with remembered := progress.remembered }
  match delay? world snapshot arguments progress.memory with
  | some wait =>
    let (reached, memory) := current.approach world snapshot arguments progress.memory
    ⟨.timedOut, memory, progress.remembered, (reached.map (Abandoned.mk wait)).toList⟩
  | none =>
    let called := current.callBound world snapshot arguments progress.memory
    ⟨.of contract snapshot.maxRuntime called.outcome, called.memory, called.remembered, []⟩

def runCase (cancelled : Bool) (arguments : Bindings) (progress : Progress) :
    Option Failure × Progress :=
  if cancelled then (some .cancelled, progress)
  else
    let made := Case.of world contract snapshot arguments progress
    let failure := match made.outcome with
      | .failed cause =>
        let present := arguments.map (fun (name, value) => (name, made.memory.view value))
        some (.failedCase contract.name present cause)
      | _ => none
    (failure, Progress.settle world contract snapshot (·.wait == 0)
      ⟨progress.tally.count made.outcome, made.memory, made.remembered,
        progress.abandoned ++ made.abandoned⟩)

end

inductive Samples where
  | ready (samples : List (Text × List Value)) (memory : Memory)
  | missing (warning : Text)
  | failed (failure : Failure)

def generateAll (world : World) (name : Text) :
    List (Text × Predicate) → Memory → Samples
  | [], memory => .ready [] memory
  | (label, type) :: rest, memory =>
    match (memory.viewPredicate type).generate world with
    | .error (.crash reason) => .failed (.crash reason)
    | .error failure =>
      if failure.isNoGenerator || failure.isUnboundSelf then
        .missing (label ++ ": " ++ failure.message)
      else .failed (.within (name ++ ": generating " ++ label) failure)
    | .ok values =>
      let (values, memory) := adoptAll values memory
      match generateAll world name rest memory with
      | .ready others memory => .ready ((label, values) :: others) memory
      | outcome => outcome

def test (world : World) (contract : Contract) (snapshot : Snapshot) (cancelled : Bool)
    (memory : Memory) : Option Failure × Progress :=
  let still (tally : Tally) : Progress := ⟨tally, memory, contract.remembered, []⟩
  match contract.argumentTypes with
  | none => (some (.within contract.name .noAnnotations), still .empty)
  | some types =>
    let sorted := types.mergeSort (fun left right => Text.le left.1 right.1)
    match generateAll world contract.name sorted memory with
    | .failed failure => (some failure, still .empty)
    | .missing warning => (none, still { Tally.empty with warnings := [warning] })
    | .ready samples memory =>
      let cases := productSize (samples.map (·.2.length))
      if cases = 0 then
        (none, ⟨{ Tally.empty with warnings := ["a type generated no values"] }, memory,
          contract.remembered, []⟩)
      else
        let (failure, progress) := product (samples.map (·.2))
          (fun tuple => runCase world contract snapshot cancelled ((samples.map (·.1)).zip tuple))
          ⟨{ Tally.empty with cases := cases }, memory, contract.remembered, []⟩
        (failure, progress.settle world contract snapshot fun _ => true)

/-!
## Results
-/

/-- The kind under which a failure is reported: contract failures first, in the order of the
checks. -/
def kindOf (failure : Failure) : Text :=
  let holds (test : Failure → Bool) : Bool := failure.chain.any test
  if holds (fun | .argumentType .. => true | _ => false) then "ArgumentTypeError"
  else if holds (fun | .entryConditions .. => true | _ => false) then "EntryConditionsError"
  else if holds (fun | .returnType .. => true | _ => false) then "ReturnTypeError"
  else if holds (fun | .exitConditions .. => true | _ => false) then "ExitConditionsError"
  else if holds (fun | .objectModified .. => true | _ => false) then "ObjectModifiedError"
  else if holds (fun | .internal _ => true | _ => false) then "InternalError"
  else if holds (fun | .panicked .. => true | _ => false) then "Panic"
  else "Error"

def noteOf (failure : Failure) : FailureNote :=
  match failure with
  | .failedCase _ arguments cause =>
    ⟨kindOf failure, cause.message,
      (arguments.sorted).map (fun (name, value) => (name, value.caseText))⟩
  | _ => ⟨kindOf failure, failure.message, []⟩

def lacksAnnotations (failure : Failure) : Bool :=
  failure.chain.any (fun | .noAnnotations => true | _ => false)

def resultOf (contract : Contract) (location : Location) (failure : Option Failure)
    (tally : Tally) : TestResult :=
  let target : Target := ⟨[], contract.name, location.text⟩
  let base : TestResult :=
    { id := target.identifier, target := target, verdict := .passed, cases := tally.cases
      executed := tally.executed, skipped := tally.skipped, timedOut := tally.timedOut
      failure := none, complexity := 0, warnings := tally.warnings, duration := 0 }
  match failure with
  | some found =>
    if lacksAnnotations found then
      { base with
        verdict := .untested, warnings := tally.warnings ++ [Failure.noAnnotations.message] }
    else { base with verdict := .failed, failure := some (noteOf found) }
  | none => if tally.executed = 0 then { base with verdict := .untested } else base

def tallyText (result : TestResult) : Text :=
  "Tested " ++ Text.ofInt result.executed ++ " values for " ++ result.target.function ++ "\n"
    ++ match result.failure with
      | some note =>
        "FAILED " ++ result.target.function ++ ": " ++ note.message ++ "\n"
      | none => []

def summaryText (target : Text) (results : List TestResult) : Text :=
  let summary := Summary.ofResults results
  let place := if target.isEmpty then Text.ofString "registry" else target
  Text.ofString "Tested " ++ Text.ofInt summary.functions ++ Text.ofString " functions in " ++ place
    ++ Text.ofString ".\n"
    ++ if summary.untestedNames.isEmpty then []
      else Text.ofString "WARNING: The following functions were untested: "
        ++ Text.join ", " summary.untestedNames ++ Text.ofString "\n"

def runText (target : Text) (results : List TestResult) : Text :=
  results.flatMap tallyText ++ summaryText target results

end Covenant.Testing
