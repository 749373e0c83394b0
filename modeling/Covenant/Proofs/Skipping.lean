import Covenant.Proofs.Exploration
import Covenant.Proofs.Pipeline

/-!
# When a generated case is skipped

A case is skipped when a precondition of the tested function is false or cannot be evaluated on its
arguments, and also when user code passes on the precondition failure of another function. A case
that does not end in time is counted apart, and any other failure ends the test.
-/

set_option autoImplicit false

namespace Covenant.Testing

open Stateful
open Contract (Satisfied outerScope)

section

variable (world : World) (contract : Contract)

/-- A precondition is false or cannot be evaluated, after those before it held. -/
def ClauseFails (scope : Condition.Scope) (memory : Memory) : Prop :=
  ∃ done clause rest middle outcome final, contract.requires = done ++ clause :: rest ∧
    Satisfied world scope done memory middle ∧
    (clause.holds world scope).run middle = (outcome, final) ∧
    (outcome = .ok false ∨ ∃ cause, outcome = .error cause ∧ cause ≠ .unending)

/-- Arguments that the types of a contract accept are rejected by one of its preconditions. -/
def Rejected (snapshot : Snapshot) (arguments : Bindings) (memory : Memory) : Prop :=
  snapshot.enabled = true ∧ ∃ bound,
    contract.parameters.bindNamed memory.allocate.1 memory.allocate.2.allocate.1 arguments =
      .ok bound ∧
    (Contract.checkAccepts world contract bound).run memory.afterBinding =
      (.ok (), memory.afterBinding) ∧
    ClauseFails world contract ((outerScope snapshot).push bound) memory.afterBinding

/-- The cause that a test gives for a failed call: a crash is one of the tested function. -/
def causeOf : Failure → Failure
  | .crash reason => .panicked contract.name reason
  | failure => failure

/-- User code makes a call fail with a failure of the given origin that it met elsewhere. -/
def Visit.PassesOn (snapshot : Snapshot) (visit : Visit) (origin : Origin) : Prop :=
  ¬Rejected world contract snapshot visit.arguments visit.before.memory ∧
    ∃ failure, (visit.called world contract snapshot).outcome = .error failure ∧
      failure.restsOn origin = true

/-- What a test makes of a call. -/
structure Judged (snapshot : Snapshot) (visit : Visit) : Prop where
  executed : visit.made.outcome = .executed ↔ visit.InTime world snapshot ∧
    ∃ returned, (visit.called world contract snapshot).outcome = .ok returned
  skipped : visit.made.outcome = .skipped ↔ visit.InTime world snapshot ∧
    (Rejected world contract snapshot visit.arguments visit.before.memory ∨
      visit.PassesOn world contract snapshot .precondition)
  timedOut : visit.made.outcome = .timedOut ↔ ¬visit.InTime world snapshot ∨
    (visit.called world contract snapshot).outcome = .error .unending ∧ 0 < snapshot.maxRuntime ∨
    visit.PassesOn world contract snapshot .timeLimit ∧
      ¬visit.PassesOn world contract snapshot .precondition
  failed : ∀ cause, visit.made.outcome = .failed cause ↔ visit.InTime world snapshot ∧
    ¬Rejected world contract snapshot visit.arguments visit.before.memory ∧
    ¬visit.PassesOn world contract snapshot .precondition ∧
    ¬visit.PassesOn world contract snapshot .timeLimit ∧
    ∃ failure, (visit.called world contract snapshot).outcome = .error failure ∧
      causeOf contract failure = cause ∧ ¬(failure = .unending ∧ 0 < snapshot.maxRuntime)

end

section

variable {world : World} {contract : Contract} {snapshot : Snapshot} {memory : Memory}

theorem clauseFails_iff (scope : Condition.Scope) (bound : Bindings) :
    ClauseFails world contract scope memory ↔ ∃ failure,
      Contract.RequirementFails world contract scope bound memory failure ∧
        failure.restsOn .precondition = true := by
  constructor
  · rintro ⟨done, clause, rest, middle, outcome, final, split, satisfied, ran, fails⟩
    have refused : ∃ failure, contract.entryFailure? bound clause final outcome = some failure ∧
        failure.restsOn .precondition = true := by
      rcases fails with same | ⟨cause, same, ends⟩
      · subst same
        exact ⟨_, rfl, rfl⟩
      · subst same
        cases cause with
        | unending => exact absurd rfl ends
        | _ => exact ⟨_, rfl, rfl⟩
    obtain ⟨failure, refused, rests⟩ := refused
    exact ⟨failure, ⟨done, clause, rest, middle, outcome, final, split, satisfied, ran, refused⟩,
      rests⟩
  · rintro ⟨failure, ⟨done, clause, rest, middle, outcome, final, split, satisfied, ran, refused⟩,
      rests⟩
    refine ⟨done, clause, rest, middle, outcome, final, split, satisfied, ran, ?_⟩
    unfold Contract.entryFailure? at refused
    split at refused <;> cases refused
    · exact .inl rfl
    · cases rests
    · next cause ends => exact .inr ⟨cause, rfl, fun same => ends same⟩

theorem Rejected.fails {arguments : Bindings} (remembered : List Record)
    (rejected : Rejected world contract snapshot arguments memory) :
    ∃ failure, ({ contract with remembered := remembered }.callBound world snapshot arguments
      memory).outcome = .error failure ∧ failure.restsOn .precondition = true := by
  obtain ⟨enabled, bound, given, accepted, fails⟩ := rejected
  obtain ⟨failure, required, rests⟩ := (clauseFails_iff _ bound).mp fails
  obtain ⟨final, refused⟩ := Contract.checkRequires_run_eq_error_iff.mpr required
  let current : Contract := { contract with remembered := remembered }
  have acceptedNow : (Contract.checkAccepts world current bound).run memory.afterBinding =
      (.ok (), memory.afterBinding) := accepted
  have refusedNow : (Contract.checkRequires world current (outerScope snapshot) bound).run
      memory.afterBinding = (.error failure, final) := refused
  have prepared : (Contract.prepare world current snapshot bound).run memory.allocate.2.allocate.2 =
      (.error failure, final) := by
    rw [Contract.prepare, ← Memory.afterBinding, run_bind_of_ok acceptedNow,
      run_bind_of_error refusedNow]
  have ran : (Contract.callBound world current snapshot arguments memory).outcome =
      .error failure := by
    have givenNow : current.parameters.bindNamed memory.allocate.1 memory.allocate.2.allocate.1
        arguments = .ok bound := given
    simp only [Contract.callBound, Contract.runWith, givenNow, Contract.run, enabled, prepared,
      Bool.not_true, Bool.false_eq_true, ↓reduceIte]
  exact ⟨failure, ran, rests⟩

variable {failure : Failure} {limit : Int}

theorem rejected_of_restsOn (user : world.Spares .precondition) {arguments : Bindings}
    {remembered : List Record}
    (failed : ({ contract with remembered := remembered }.callBound world snapshot arguments
      memory).outcome = .error failure) (rests : failure.restsOn .precondition = true) :
    Rejected world contract snapshot arguments memory := by
  obtain ⟨bound, given, enabled, accepted, refused⟩ :=
    Contract.callBound_restsOn user (by decide) _ failed rests
  refine ⟨enabled, bound, given, accepted, (clauseFails_iff _ bound).mpr ⟨failure, ?_, rests⟩⟩
  exact Contract.checkRequires_run_eq_error_iff.mp ⟨_, Prod.ext refused rfl⟩

theorem of_error_skipped (rests : failure.restsOn .precondition = true) :
    CaseOutcome.of contract limit (.error failure) = .skipped := by
  cases failure with
  | crash reason => cases rests
  | unending => cases rests
  | _ => exact if_pos (Failure.isEntryConditions_eq.trans rests)

theorem of_error_timedOut (rests : failure.restsOn .precondition = false)
    (late : failure.restsOn .timeLimit = true ∨ failure = .unending ∧ 0 < limit) :
    CaseOutcome.of contract limit (.error failure) = .timedOut := by
  rcases late with late | ⟨rfl, positive⟩
  · rw [← Failure.isEntryConditions_eq] at rests
    rw [← Failure.isTimeout_eq] at late
    cases failure with
    | crash reason => cases late
    | unending => cases late
    | _ => simp [CaseOutcome.of, rests, late]
  · exact if_pos positive

theorem of_error_failed (rests : failure.restsOn .precondition = false)
    (ends : failure.restsOn .timeLimit = false) (inTime : ¬(failure = .unending ∧ 0 < limit)) :
    CaseOutcome.of contract limit (.error failure) = .failed (causeOf contract failure) := by
  rw [← Failure.isEntryConditions_eq] at rests
  rw [← Failure.isTimeout_eq] at ends
  cases failure with
  | crash reason => rfl
  | unending => exact if_neg fun positive => inTime ⟨rfl, positive⟩
  | _ => simp [CaseOutcome.of, rests, ends, causeOf]

theorem judged_of (arguments : Bindings) (progress : Progress) :
    Judged world contract snapshot (.of world contract snapshot arguments progress) := by
  have sorted : (Visit.of world contract snapshot arguments progress).made.outcome = _ :=
    outcome_of arguments progress
  generalize made : Visit.of world contract snapshot arguments progress = visit at sorted
  have rejects (rejected : Rejected world contract snapshot visit.arguments visit.before.memory) :
      ∃ failure, (visit.called world contract snapshot).outcome = .error failure ∧
        failure.restsOn .precondition = true := rejected.fails visit.before.remembered
  have inTime : visit.InTime world snapshot ↔
      delay? world snapshot arguments progress.memory = none := by
    rw [← made]
    rfl
  cases delayed : delay? world snapshot arguments progress.memory with
  | some wait =>
    rw [delayed] at sorted inTime
    constructor <;> simp [sorted, inTime]
  | none =>
    rw [delayed] at sorted inTime
    have waited : visit.InTime world snapshot := inTime.mpr rfl
    -- Preconditions come first; time matters only to a failure that rests on none.
    cases ended : (visit.called world contract snapshot).outcome with
    | ok returned =>
      have accepted : ¬Rejected world contract snapshot visit.arguments visit.before.memory := by
        intro rejected
        obtain ⟨_, failed, _⟩ := rejects rejected
        rw [ended] at failed
        cases failed
      have executed : visit.made.outcome = .executed := by
        rw [sorted, ended]
        rfl
      constructor <;> simp [executed, waited, ended, accepted, Visit.PassesOn]
    | error failure =>
      have passes (origin : Origin) : visit.PassesOn world contract snapshot origin ↔
          ¬Rejected world contract snapshot visit.arguments visit.before.memory ∧
            failure.restsOn origin = true := by
        simp [Visit.PassesOn, ended]
      cases rests : failure.restsOn .precondition with
      | true =>
        have skipped : visit.made.outcome = .skipped := by
          rw [sorted, ended]
          exact of_error_skipped rests
        have other : failure ≠ .unending := by
          intro same
          rw [same] at rests
          cases rests
        by_cases rejected : Rejected world contract snapshot visit.arguments visit.before.memory <;>
          constructor <;> simp [skipped, waited, ended, passes, rests, other, rejected]
      | false =>
        have accepted : ¬Rejected world contract snapshot visit.arguments visit.before.memory := by
          intro rejected
          obtain ⟨_, failed, found⟩ := rejects rejected
          rw [ended] at failed
          cases failed
          rw [rests] at found
          cases found
        by_cases late : failure.restsOn .timeLimit = true ∨
          failure = .unending ∧ 0 < snapshot.maxRuntime
        · have timedOut : visit.made.outcome = .timedOut := by
            rw [sorted, ended]
            exact of_error_timedOut rests late
          constructor <;> simp [timedOut, waited, ended, passes, rests, accepted]
          · exact late.symm
          · intro ends
            exact late.resolve_left (by simp [ends])
        · obtain ⟨ends, inTime⟩ := not_or.mp late
          have failed : visit.made.outcome = .failed (causeOf contract failure) := by
            rw [sorted, ended]
            exact of_error_failed rests (by simpa using ends) inTime
          constructor <;> simp [failed, waited, ended, passes, rests, accepted, ends]
          all_goals exact fun same => Int.not_lt.mp fun positive => inTime ⟨same, positive⟩

/-!
## Tests
-/

theorem failed_visit {cases : List Bindings} {progress : Progress} {visit : Visit}
    {cause : Failure} (member : visit ∈ visits world contract snapshot cases progress)
    (failed : visit.made.outcome = .failed cause) :
    (visits world contract snapshot cases progress).getLast? = some visit ∧
      (runCases world contract snapshot cases progress).1 =
        some (.failedCase contract.name visit.present cause) := by
  induction cases generalizing progress with
  | nil => cases member
  | cons arguments rest ih =>
    rw [runCases_cons]
    rw [visits] at member ⊢
    cases ended : (Visit.of world contract snapshot arguments progress).failure? contract with
    | none =>
      rw [ended] at member
      rcases List.mem_cons.mp member with same | later
      · rw [← same, failure?_eq_some_iff.mpr ⟨cause, failed, rfl⟩] at ended
        cases ended
      · obtain ⟨last, result⟩ := ih later
        rw [Option.elim_none, List.getLast?_cons, last]
        exact ⟨rfl, result⟩
    | some found =>
      rw [ended] at member
      rw [← List.mem_singleton.mp member] at ended ⊢
      exact ⟨rfl, ended.symm.trans (failure?_eq_some_iff.mpr ⟨cause, failed, rfl⟩)⟩

variable (world contract snapshot memory)

def calls : List Visit :=
  match contract.argumentTypes with
  | none => []
  | some types =>
    match generateAll world contract.name
      (types.mergeSort (fun left right => Text.le left.1 right.1)) memory with
    | .ready samples ready =>
      visits world contract snapshot (combinations samples)
        (opening samples ready contract.remembered)
    | _ => []

theorem test_cases :
    (calls world contract snapshot memory = [] ∧
      (test world contract snapshot false memory).2.tally.counted = 0) ∨
    ∃ cases progress, progress.tally.counted = 0 ∧
      calls world contract snapshot memory = visits world contract snapshot cases progress ∧
      (test world contract snapshot false memory).1 =
        (runCases world contract snapshot cases progress).1 ∧
      (test world contract snapshot false memory).2.tally =
        (runCases world contract snapshot cases progress).2.tally := by
  unfold calls test
  cases contract.argumentTypes with
  | none => exact .inl ⟨rfl, rfl⟩
  | some types =>
    dsimp only
    cases generateAll world contract.name
      (types.mergeSort (fun left right => Text.le left.1 right.1)) memory with
    | failed failure => exact .inl ⟨rfl, rfl⟩
    | missing warning => exact .inl ⟨rfl, rfl⟩
    | ready samples start =>
      dsimp only
      split
      · next empty =>
        rw [productSize_eq_prod, ← sizes, ← length_combinations, List.length_eq_zero_iff] at empty
        rw [empty]
        exact .inl ⟨rfl, rfl⟩
      · rw [product_combinations, productSize_eq_prod]
        exact .inr ⟨combinations samples, opening samples start _, rfl, rfl, rfl,
          settle_tally _ _⟩

def CaseOutcome.isSkipped : CaseOutcome → Bool
  | .skipped => true
  | _ => false

theorem skipped_countAll (made : List Visit) (tally : Tally) :
    (tally.countAll made).skipped =
      tally.skipped + made.countP (fun visit => visit.made.outcome.isSkipped) := by
  have one (tally : Tally) (outcome : CaseOutcome) : (tally.count outcome).skipped =
      tally.skipped + if outcome.isSkipped then 1 else 0 := by
    cases outcome <;> rfl
  induction made generalizing tally with
  | nil => rfl
  | cons visit made ih =>
    rw [Tally.countAll, List.foldl_cons, ← Tally.countAll, ih, one, List.countP_cons,
      Nat.add_right_comm, Nat.add_assoc]

theorem test_skipped : (test world contract snapshot false memory).2.tally.skipped =
    (calls world contract snapshot memory).countP
      (fun visit => visit.made.outcome.isSkipped) := by
  rcases test_cases world contract snapshot memory with
    ⟨none, zero⟩ | ⟨_, progress, zero, same, _, tally⟩
  · rw [none]
    exact (Nat.add_eq_zero_iff.mp (Nat.add_eq_zero_iff.mp zero).1).2
  · have fresh : progress.tally.skipped = 0 :=
      (Nat.add_eq_zero_iff.mp (Nat.add_eq_zero_iff.mp zero).1).2
    rw [tally, (runCases_accounts _ progress).tally, skipped_countAll, fresh, Nat.zero_add, same]

/-- A case is skipped exactly when its call ends in time and a precondition of the tested function
rejects its arguments, or user code passes on a precondition failure that it met elsewhere. Where
user code passes on none, only the function's own preconditions skip. A case that outlasts the limit
is counted apart, and any other failed call is the last one and makes the test fail. -/
theorem cases_skipped_iff_rejected_or_passed_on :
    (test world contract snapshot false memory).2.tally.skipped =
        (calls world contract snapshot memory).countP
          (fun visit => visit.made.outcome.isSkipped) ∧
      ∀ visit ∈ calls world contract snapshot memory,
        Judged world contract snapshot visit ∧
        (world.Spares .precondition → ¬visit.PassesOn world contract snapshot .precondition) ∧
        (world.Spares .timeLimit → ¬visit.PassesOn world contract snapshot .timeLimit) ∧
        ∀ cause, visit.made.outcome = .failed cause →
          (calls world contract snapshot memory).getLast? = some visit ∧
          (test world contract snapshot false memory).1 =
            some (.failedCase contract.name visit.present cause) := by
  refine ⟨test_skipped world contract snapshot memory, ?_⟩
  intro visit member
  rcases test_cases world contract snapshot memory with
    ⟨none, _⟩ | ⟨_, progress, _, same, ended, _⟩
  · rw [none] at member
    cases member
  · rw [same] at member ⊢
    refine ⟨?_, ?_, ?_, ?_⟩
    · rw [exists_of_mem_visits member]
      exact judged_of visit.arguments visit.before
    · rintro user ⟨accepted, failure, failed, rests⟩
      exact accepted (rejected_of_restsOn user failed rests)
    · rintro patient ⟨_, failure, failed, rests⟩
      have ends := (Contract.callBound_spares patient (by decide) _ (by decide) snapshot
        visit.arguments visit.before.memory).of_error failed
      rw [rests] at ends
      cases ends
    · intro cause failed
      rw [ended]
      exact failed_visit member failed

end

theorem cases_skipped_iff_rejected_or_passed_on_risky :
    let world : World := ⟨Workspace.sevenHost, []⟩
    let snapshot : Snapshot := ⟨true, 0, 2, []⟩
    world.Spares .precondition ∧ world.Spares .timeLimit ∧
      (test world Workspace.risky snapshot false .empty).2.tally.skipped = 1 ∧
      (calls world Workspace.risky snapshot .empty).countP
        (fun visit => visit.made.outcome.isSkipped) = 1 ∧
      ∀ visit ∈ calls world Workspace.risky snapshot .empty,
        Judged world Workspace.risky snapshot visit ∧
        ¬visit.PassesOn world Workspace.risky snapshot .precondition ∧
        ¬visit.PassesOn world Workspace.risky snapshot .timeLimit := by
  intro world snapshot
  have user (origin : Origin) : world.Spares origin := by
    refine ⟨Workspace.sevenHost_spares, ?_⟩
    intro type info known
    cases known
  have one : (test world Workspace.risky snapshot false .empty).2.tally.skipped = 1 := by
    decide +kernel
  obtain ⟨skipped, judged⟩ :=
    cases_skipped_iff_rejected_or_passed_on world Workspace.risky snapshot .empty
  refine ⟨user _, user _, one, skipped.symm.trans one, fun visit member => ?_⟩
  obtain ⟨right, own, inTime, _⟩ := judged visit member
  exact ⟨right, own (user _), inTime (user _)⟩

/-- Where another contract makes its function fail, no precondition of its own is needed to skip the
cases of a function that passes the failure on. -/
theorem precondition_of_another_function_skips :
    let failure := Failure.within "outer" (.entryConditions "inner" "n > 9" [] none)
    let world : World := ⟨Workspace.failingHost failure, []⟩
    let snapshot : Snapshot := ⟨true, 0, 2, []⟩
    let tested := test world Workspace.failing snapshot false .empty
    Workspace.failing.requires.length = 0 ∧
      (Workspace.failing.callBound world snapshot [("n", .ofWord 1)] .empty).outcome.isOk = false ∧
      tested.1.isNone = true ∧ tested.2.tally.skipped = 2 := by
  decide +kernel

end Covenant.Testing
