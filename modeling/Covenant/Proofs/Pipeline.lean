import Covenant.Proofs.Checks
import Covenant.Sample

/-!
# The stages of a call

A call goes through its stages in one order and stops at the first that fails. Keeping track of the
stages that a call begins shows how often and when the function itself is invoked.
-/

set_option autoImplicit false

namespace Covenant.Contract

open Stateful
open Condition (Evaluation)
open Condition.Evaluation

inductive Stage where
  | arguments
  | preconditions
  /-- Arguments are converted, and digests are taken of those that must stay unchanged. -/
  | conversion
  | invocation
  | immutability
  | returnType
  | postconditions
  deriving DecidableEq, Repr

def Stage.order : List Stage :=
  [.arguments, .preconditions, .conversion, .invocation, .immutability, .returnType,
    .postconditions]

def Stage.upTo (stage : Stage) : List Stage :=
  Stage.order.take (Stage.order.idxOf stage + 1)

/-- What a call has come to between two stages. -/
structure Progress where
  memory : Memory
  remembered : List Record
  digests : List (Text × UInt64)
  arguments : List Value
  returned : Value

def Progress.start (contract : Contract) (memory : Memory) : Progress :=
  ⟨memory, contract.remembered, [], [], .nil⟩

variable {world : World} {contract : Contract} {snapshot : Snapshot} {bound : Bindings}

section

variable (world contract snapshot bound)

def Progress.withRun {α : Type} (progress : Progress) (ended : Except Failure α × Memory)
    (change : α → Progress → Progress) : Except Failure Unit × Progress :=
  match ended with
  | (.ok result, memory) => (.ok (), change result { progress with memory := memory })
  | (.error failure, memory) => (.error failure, { progress with memory := memory })

def Stage.perform (progress : Progress) : Stage → Except Failure Unit × Progress
  | .arguments =>
    progress.withRun ((checkAccepts world contract bound).run progress.memory)
      (fun _ changed => changed)
  | .preconditions =>
    progress.withRun
      ((checkRequires world contract (outerScope snapshot) bound).run progress.memory)
      (fun _ changed => changed)
  | .conversion =>
    progress.withRun ((convertBound world contract bound).run progress.memory)
      (fun arguments changed => { changed with
        digests := digestsOf world contract bound progress.memory, arguments := arguments })
  | .invocation =>
    progress.withRun (Condition.enter world contract.function progress.arguments
        progress.memory)
      (fun returned changed => { changed with returned := returned })
  | .immutability =>
    progress.withRun
      ((checkDigests world contract bound progress.digests).run progress.memory)
      (fun _ changed => changed)
  | .returnType =>
    progress.withRun ((checkReturns world contract progress.returned).run progress.memory)
      (fun _ changed => changed)
  | .postconditions =>
    let ended := conclude world contract snapshot (record bound progress.returned)
      progress.memory
    (ended.outcome,
      { progress with memory := ended.memory, remembered := ended.remembered })

structure Followed where
  begun : List Stage
  outcome : Except Failure Unit
  progress : Progress

def Followed.after (stage : Stage) (rest : Followed) : Followed :=
  ⟨stage :: rest.begun, rest.outcome, rest.progress⟩

def follow : List Stage → Progress → Followed
  | [], progress => ⟨[], .ok (), progress⟩
  | stage :: stages, progress =>
    match stage.perform world contract snapshot bound progress with
    | (.error failure, changed) => ⟨[stage], .error failure, changed⟩
    | (.ok _, changed) => (follow stages changed).after stage

/-- The stages that the settings ask for: without checks the function is only called. -/
def planned : List Stage :=
  if snapshot.enabled then Stage.order else [.conversion, .invocation]

def staged (memory : Memory) : Followed :=
  follow world contract snapshot bound (planned snapshot) (.start contract memory)

def Followed.called (followed : Followed) : Called :=
  ⟨followed.outcome.map (fun _ => followed.progress.returned), followed.progress.memory,
    followed.progress.remembered⟩

end

/-!
## Following stages
-/

variable {changed progress : Progress} {stage : Stage} {stages : List Stage}

theorem begun_isPrefix (stages : List Stage) (progress : Progress) :
    (follow world contract snapshot bound stages progress).begun <+: stages := by
  induction stages generalizing progress with
  | nil => exact List.nil_prefix
  | cons stage stages ih =>
    rcases ran : stage.perform world contract snapshot bound progress with
      ⟨failure | _, changed⟩
    · rw [follow, ran]
      exact ⟨stages, rfl⟩
    · rw [follow, ran]
      exact (List.prefix_cons_inj stage).mpr (ih changed)

@[simp] theorem called_after (stage : Stage) (rest : Followed) :
    (rest.after stage).called = rest.called := rfl

theorem invoke_run (memory : Memory) :
    (invoke world contract bound).run memory =
      match (convertBound world contract bound).run memory with
      | (.ok arguments, middle) => Condition.enter world contract.function arguments middle
      | (.error failure, middle) => (.error failure, middle) := by
  rw [invoke, run_bind]
  rcases (convertBound world contract bound).run memory with ⟨failure | arguments, middle⟩ <;> rfl

theorem staged_called (memory : Memory) :
    (staged world contract snapshot bound memory).called =
      run world contract snapshot bound memory := by
  cases enabled : snapshot.enabled with
  | false =>
    simp only [staged, planned, run, enabled, Bool.false_eq_true, ↓reduceIte, Bool.not_false,
      follow, Stage.perform, Progress.start, invoke_run]
    rcases (convertBound world contract bound).run memory with ⟨failure | arguments, middle⟩
    · rfl
    · simp only [Progress.withRun]
      rcases Condition.enter world contract.function arguments middle with
        ⟨failure | returned, after⟩ <;> rfl
  | true =>
    simp only [staged, planned, run, enabled, ↓reduceIte, Bool.not_true, Bool.false_eq_true,
      follow, Stage.order, Stage.perform, Progress.start, prepare, run_bind, invoke_run, run_get]
    rcases (checkAccepts world contract bound).run memory with ⟨failure | _, memory⟩
    · rfl
    simp only [Progress.withRun, called_after]
    rcases (checkRequires world contract (outerScope snapshot) bound).run memory with
      ⟨failure | _, memory⟩
    · rfl
    simp only [called_after]
    rcases (convertBound world contract bound).run memory with ⟨failure | arguments, middle⟩
    · rfl
    simp only [called_after]
    rcases Condition.enter world contract.function arguments middle with
      ⟨failure | returned, after⟩
    · rfl
    simp only [called_after]
    rcases (checkDigests world contract bound
        (digestsOf world contract bound memory)).run after with ⟨failure | _, after⟩
    · rfl
    simp only [called_after]
    rcases (checkReturns world contract returned).run after with ⟨failure | _, after⟩
    · rfl
    simp only [called_after, run_pure]
    cases ended : (conclude world contract snapshot (record bound returned) after).outcome <;> rfl

/-!
## Where a call ends
-/

variable {memory : Memory}

section

variable (world contract snapshot bound memory)

/-- The function may be invoked: the declared argument types accept the values, every precondition
is truthy, which leads to another memory, and every value converts there. -/
structure Admitted (middle : Memory) (arguments : List Value) : Prop where
  accepted : ArgumentsAccepted world contract bound memory
  satisfied : Satisfied world ((outerScope snapshot).push bound) contract.requires memory middle
  converts : Converts world contract bound middle arguments

/-- The function was invoked in one memory and returned a value in another. -/
def Answered (middle after : Memory) (returned : Value) : Prop :=
  ∃ arguments, Admitted world contract snapshot bound memory middle arguments ∧
    Condition.enter world contract.function arguments middle = (.ok returned, after)

/-- A call returns what its function returned: the function was admitted and did not fail, no
argument that must stay unchanged was modified, the return type accepts the value, and all
postconditions hold. -/
def Succeeds (returned : Value) : Prop :=
  ∃ middle after, Answered world contract snapshot bound memory middle after returned ∧
    (∀ label, ¬ Modified world contract bound middle after label) ∧
    ReturnAccepted world contract returned after ∧
    (conclude world contract snapshot (record bound returned) after).outcome = .ok ()

/-- A stage fails after all stages before it passed. -/
inductive FailsAt : Stage → Failure → Prop where
  | arguments {failure} :
      ArgumentsFail world contract bound memory failure → FailsAt .arguments failure
  | preconditions {failure} :
      ArgumentsAccepted world contract bound memory →
      RequirementFails world contract ((outerScope snapshot).push bound) bound memory failure →
      FailsAt .preconditions failure
  | conversion {middle failure} :
      ArgumentsAccepted world contract bound memory →
      Satisfied world ((outerScope snapshot).push bound) contract.requires memory middle →
      ConversionFails world contract bound middle failure → FailsAt .conversion failure
  | invocation {middle after arguments failure} :
      Admitted world contract snapshot bound memory middle arguments →
      Condition.enter world contract.function arguments middle = (.error failure, after) →
      FailsAt .invocation failure
  | immutability {middle after returned failure} :
      Answered world contract snapshot bound memory middle after returned →
      ImmutabilityFails world contract bound middle after failure →
      FailsAt .immutability failure
  | returnType {middle after returned failure} :
      Answered world contract snapshot bound memory middle after returned →
      (∀ label, ¬ Modified world contract bound middle after label) →
      ReturnFails world contract returned after failure → FailsAt .returnType failure
  | postconditions {middle after returned failure} :
      Answered world contract snapshot bound memory middle after returned →
      (∀ label, ¬ Modified world contract bound middle after label) →
      ReturnAccepted world contract returned after →
      (conclude world contract snapshot (record bound returned) after).outcome =
        .error failure →
      FailsAt .postconditions failure

end

variable {middle after : Memory} {arguments : List Value} {failure : Failure} {returned : Value}

theorem planned_of_disabled (disabled : snapshot.enabled = false) :
    planned snapshot = [.conversion, .invocation] := by
  rw [planned, disabled]
  rfl

theorem count_begun_le_one (once : stages.Nodup) (progress : Progress)
    (stage : Stage) :
    (follow world contract snapshot bound stages progress).begun.count stage ≤ 1 :=
  List.nodup_iff_count_le_one.mp (once.sublist (begun_isPrefix stages progress).sublist) stage

/-- Failed preconditions are reported as such, whether false or impossible to evaluate. -/
theorem RequirementFails.entryConditions {scope : Condition.Scope}
    (fails : RequirementFails world contract scope bound memory failure)
    (ends : failure ≠ .unending) :
    ∃ clause arguments cause, clause ∈ contract.requires ∧
      failure = .entryConditions contract.name clause.source arguments cause := by
  obtain ⟨done, clause, rest, middle, outcome, final, split, _, _, refused⟩ := fails
  have member : clause ∈ contract.requires := by
    rw [split]
    simp
  rcases outcome with cause | truth
  · cases cause <;> cases refused <;>
      first | exact absurd rfl ends | exact ⟨clause, _, _, member, rfl⟩
  · cases truth <;> cases refused
    exact ⟨clause, _, _, member, rfl⟩

section

variable (shaped : contract.Shaped) (complete : contract.Complete bound)

include shaped complete

theorem conversion_cases (memory : Memory) :
    (∃ arguments, Converts world contract bound memory arguments) ∨
      ∃ failure, ConversionFails world contract bound memory failure := by
  rcases ran : (convertBound world contract bound).run memory with ⟨failure | arguments, final⟩
  · exact .inr ⟨failure, ((convertBound_run_eq_error_iff shaped complete).mp ran).2⟩
  · exact .inl ⟨arguments, ((convertBound_run_eq_ok_iff shaped complete).mp ran).2⟩

theorem succeeds_or_failsAt (memory : Memory) :
    (∃ returned, Succeeds world contract snapshot bound memory returned) ∨
      ∃ stage failure, FailsAt world contract snapshot bound memory stage failure := by
  rcases accepts : (checkAccepts world contract bound).run memory with ⟨failure | _, _⟩
  case error =>
    exact .inr ⟨_, _, .arguments ((checkAccepts_run_eq_error_iff shaped complete).mp accepts).2⟩
  have accepted := ((checkAccepts_run_eq_ok_iff shaped complete).mp accepts).2
  rcases requires : (checkRequires world contract (outerScope snapshot) bound).run memory with
    ⟨failure | _, middle⟩
  case error =>
    exact .inr ⟨_, _, .preconditions accepted (checkRequires_run_eq_error_iff.mp ⟨_, requires⟩)⟩
  have satisfied := checkRequires_run_eq_ok_iff.mp requires
  rcases conversion_cases shaped complete middle with
    ⟨arguments, converts⟩ | ⟨failure, unconverted⟩
  case inr => exact .inr ⟨_, failure, .conversion accepted satisfied unconverted⟩
  have admitted : Admitted world contract snapshot bound memory middle arguments :=
    ⟨accepted, satisfied, converts⟩
  rcases entered : Condition.enter world contract.function arguments middle with
    ⟨failure | returned, after⟩
  case error => exact .inr ⟨_, failure, .invocation admitted entered⟩
  have answered : Answered world contract snapshot bound memory middle after returned :=
    ⟨arguments, admitted, entered⟩
  have different := complete.different shaped
  rcases digests : (checkDigests world contract bound
      (digestsOf world contract bound middle)).run after with ⟨failure | _, _⟩
  case error =>
    exact .inr ⟨_, _, .immutability answered
      ((checkDigests_run_eq_error_iff different).mp digests).2⟩
  have unmodified := ((checkDigests_run_eq_ok_iff different).mp digests).2
  rcases returns : (checkReturns world contract returned).run after with ⟨failure | _, _⟩
  case error =>
    exact .inr ⟨_, _, .returnType answered unmodified (checkReturns_run_eq_error_iff.mp returns).2⟩
  have returnAccepted := (checkReturns_run_eq_ok_iff.mp returns).2
  cases concluded : (conclude world contract snapshot (record bound returned) after).outcome with
  | error failure =>
    exact .inr ⟨_, failure, .postconditions answered unmodified returnAccepted concluded⟩
  | ok _ => exact .inl ⟨returned, middle, after, answered, unmodified, returnAccepted, concluded⟩

theorem Admitted.passes (admitted : Admitted world contract snapshot bound memory middle arguments) :
    (checkAccepts world contract bound).run memory = (.ok (), memory) ∧
      (checkRequires world contract (outerScope snapshot) bound).run memory = (.ok (), middle) ∧
      (convertBound world contract bound).run middle = (.ok arguments, middle) :=
  ⟨(checkAccepts_run_eq_ok_iff shaped complete).mpr ⟨rfl, admitted.accepted⟩,
    checkRequires_run_eq_ok_iff.mpr admitted.satisfied,
    (convertBound_run_eq_ok_iff shaped complete).mpr ⟨rfl, admitted.converts⟩⟩

end

section

variable (world contract snapshot bound memory)

/-- What a call does where the engine is enabled. -/
structure Checked : Prop where
  ordered : (staged world contract snapshot bound memory).begun <+: Stage.order
  invokedOnce : (staged world contract snapshot bound memory).begun.count .invocation ≤ 1
  invoked_iff : .invocation ∈ (staged world contract snapshot bound memory).begun ↔
    ∃ middle arguments, Admitted world contract snapshot bound memory middle arguments
  returns_iff : ∀ returned, (run world contract snapshot bound memory).outcome = .ok returned ↔
    Succeeds world contract snapshot bound memory returned
  fails_iff : ∀ failure, (run world contract snapshot bound memory).outcome = .error failure ↔
    ∃ stage, FailsAt world contract snapshot bound memory stage failure
  last : ∀ stage failure, FailsAt world contract snapshot bound memory stage failure →
    (staged world contract snapshot bound memory).begun = stage.upTo
  entry : ∀ failure, FailsAt world contract snapshot bound memory .preconditions failure →
    failure ≠ .unending → ∃ clause arguments cause, clause ∈ contract.requires ∧
      failure = .entryConditions contract.name clause.source arguments cause

/-- What a call does where the engine is disabled: the function is called, and nothing else. -/
structure Unchecked : Prop where
  ordered : (staged world contract snapshot bound memory).begun <+: [.conversion, .invocation]
  invokedOnce : (staged world contract snapshot bound memory).begun.count .invocation ≤ 1
  invoked_iff : .invocation ∈ (staged world contract snapshot bound memory).begun ↔
    ∃ arguments, Converts world contract bound memory arguments
  returns_iff : ∀ returned, (run world contract snapshot bound memory).outcome = .ok returned ↔
    ∃ arguments after, Converts world contract bound memory arguments ∧
      Condition.enter world contract.function arguments memory = (.ok returned, after)
  fails_iff : ∀ failure, (run world contract snapshot bound memory).outcome = .error failure ↔
    ConversionFails world contract bound memory failure ∨
      ∃ arguments after, Converts world contract bound memory arguments ∧
        Condition.enter world contract.function arguments memory = (.error failure, after)
  remembered : (run world contract snapshot bound memory).remembered = contract.remembered

end

theorem FailsAt.admitted (fails : FailsAt world contract snapshot bound memory stage failure)
    (reached : .invocation ∈ stage.upTo) :
    ∃ middle arguments, Admitted world contract snapshot bound memory middle arguments := by
  cases fails with
  | arguments _ | preconditions _ _ | conversion _ _ _ => exact absurd reached (by decide)
  | invocation admitted _ => exact ⟨_, _, admitted⟩
  | immutability answered _ | returnType answered _ _ | postconditions answered _ _ _ =>
    obtain ⟨arguments, admitted, _⟩ := answered
    exact ⟨_, arguments, admitted⟩

attribute [local simp] follow Stage.order Stage.upTo Stage.perform Progress.start Progress.withRun
  Followed.after Followed.called Except.map

section

variable (shaped : contract.Shaped) (complete : contract.Complete bound)
  (enabled : snapshot.enabled = true)

include shaped complete enabled

theorem FailsAt.ends (fails : FailsAt world contract snapshot bound memory stage failure) :
    (staged world contract snapshot bound memory).begun = stage.upTo ∧
      (run world contract snapshot bound memory).outcome = .error failure := by
  have different := complete.different shaped
  rw [← staged_called, staged, planned, if_pos enabled]
  cases fails with
  | arguments refused =>
    have failed := (checkAccepts_run_eq_error_iff shaped complete).mpr ⟨rfl, refused⟩
    simp [failed]
  | preconditions accepted unsatisfied =>
    have passed := (checkAccepts_run_eq_ok_iff shaped complete).mpr ⟨rfl, accepted⟩
    obtain ⟨final, failed⟩ := checkRequires_run_eq_error_iff.mpr unsatisfied
    simp [passed, failed]
  | conversion accepted satisfied unconverted =>
    have passed := (checkAccepts_run_eq_ok_iff shaped complete).mpr ⟨rfl, accepted⟩
    have satisfied := checkRequires_run_eq_ok_iff.mpr satisfied
    have failed := (convertBound_run_eq_error_iff shaped complete).mpr ⟨rfl, unconverted⟩
    simp [passed, satisfied, failed]
  | invocation admitted entered => simp [admitted.passes shaped complete, entered]
  | immutability answered modified =>
    obtain ⟨arguments, admitted, entered⟩ := answered
    have failed := (checkDigests_run_eq_error_iff different).mpr ⟨rfl, modified⟩
    simp [admitted.passes shaped complete, entered, failed]
  | returnType answered unmodified returnRefused =>
    obtain ⟨arguments, admitted, entered⟩ := answered
    have kept := (checkDigests_run_eq_ok_iff different).mpr ⟨rfl, unmodified⟩
    have failed := checkReturns_run_eq_error_iff.mpr ⟨rfl, returnRefused⟩
    simp [admitted.passes shaped complete, entered, kept, failed]
  | postconditions answered unmodified returnAccepted concluded =>
    obtain ⟨arguments, admitted, entered⟩ := answered
    have kept := (checkDigests_run_eq_ok_iff different).mpr ⟨rfl, unmodified⟩
    have accepted := checkReturns_run_eq_ok_iff.mpr ⟨rfl, returnAccepted⟩
    simp [admitted.passes shaped complete, entered, kept, accepted, concluded]

theorem Succeeds.ends (succeeds : Succeeds world contract snapshot bound memory returned) :
    (run world contract snapshot bound memory).outcome = .ok returned := by
  obtain ⟨middle, after, ⟨arguments, admitted, entered⟩, unmodified, returnAccepted, concluded⟩ :=
    succeeds
  have kept := (checkDigests_run_eq_ok_iff (complete.different shaped)).mpr ⟨rfl, unmodified⟩
  have accepted := checkReturns_run_eq_ok_iff.mpr ⟨rfl, returnAccepted⟩
  rw [← staged_called, staged, planned, if_pos enabled]
  simp [admitted.passes shaped complete, entered, kept, accepted, concluded]

theorem checked_of_enabled (memory : Memory) :
    Checked world contract snapshot bound memory where
  ordered := by
    rw [staged, planned, if_pos enabled]
    exact begun_isPrefix _ _
  invokedOnce := by
    rw [staged, planned, if_pos enabled]
    exact count_begun_le_one (by decide) _ _
  invoked_iff := by
    constructor
    · intro begun
      rcases succeeds_or_failsAt shaped complete memory with
        ⟨_, middle, _, ⟨arguments, admitted, _⟩, _⟩ | ⟨stage, failure, fails⟩
      · exact ⟨middle, arguments, admitted⟩
      · rw [(fails.ends shaped complete enabled).1] at begun
        exact fails.admitted begun
    · rintro ⟨middle, arguments, admitted⟩
      rw [staged, planned, if_pos enabled]
      rcases entered : Condition.enter world contract.function arguments middle with
        ⟨failure | returned, after⟩
      · simp [admitted.passes shaped complete, entered]
      · simp [admitted.passes shaped complete, entered]
  returns_iff := by
    intro returned
    constructor
    · intro succeeded
      rcases succeeds_or_failsAt shaped complete memory with
        ⟨other, succeeds⟩ | ⟨stage, failure, fails⟩
      · rw [succeeds.ends shaped complete enabled] at succeeded
        cases succeeded
        exact succeeds
      · rw [(fails.ends shaped complete enabled).2] at succeeded
        cases succeeded
    · exact fun succeeds => succeeds.ends shaped complete enabled
  fails_iff := by
    intro failure
    constructor
    · intro failed
      rcases succeeds_or_failsAt shaped complete memory with
        ⟨returned, succeeds⟩ | ⟨stage, other, fails⟩
      · rw [succeeds.ends shaped complete enabled] at failed
        cases failed
      · rw [(fails.ends shaped complete enabled).2] at failed
        cases failed
        exact ⟨stage, fails⟩
    · rintro ⟨stage, fails⟩
      exact (fails.ends shaped complete enabled).2
  last := fun _ _ fails => (fails.ends shaped complete enabled).1
  entry := by
    rintro failure (_ | ⟨_, unsatisfied⟩) ends
    exact unsatisfied.entryConditions ends

end

section

variable (shaped : contract.Shaped) (complete : contract.Complete bound)
  (disabled : snapshot.enabled = false)

include shaped complete disabled

theorem unchecked_of_converts (converts : Converts world contract bound memory arguments) :
    .invocation ∈ (staged world contract snapshot bound memory).begun ∧
      (run world contract snapshot bound memory).outcome =
        (Condition.enter world contract.function arguments memory).1 := by
  have converted := (convertBound_run_eq_ok_iff shaped complete).mpr ⟨rfl, converts⟩
  constructor
  · rw [staged, planned_of_disabled disabled]
    rcases entered : Condition.enter world contract.function arguments memory with
      ⟨failure | returned, after⟩
    · simp [converted, entered]
    · simp [converted, entered]
  · simp only [run, disabled, Bool.not_false, ↓reduceIte, invoke_run, converted]

theorem unchecked_of_conversionFails (fails : ConversionFails world contract bound memory failure) :
    .invocation ∉ (staged world contract snapshot bound memory).begun ∧
      (run world contract snapshot bound memory).outcome = .error failure := by
  have failed := (convertBound_run_eq_error_iff shaped complete).mpr ⟨rfl, fails⟩
  constructor
  · rw [staged, planned_of_disabled disabled]
    simp [failed]
  · simp only [run, disabled, Bool.not_false, ↓reduceIte, invoke_run, failed]

theorem unchecked_of_disabled (memory : Memory) :
    Unchecked world contract snapshot bound memory where
  ordered := by
    rw [staged, planned_of_disabled disabled]
    exact begun_isPrefix _ _
  invokedOnce := by
    rw [staged, planned_of_disabled disabled]
    exact count_begun_le_one (by decide) _ _
  invoked_iff := by
    constructor
    · intro begun
      rcases conversion_cases shaped complete memory with converts | ⟨failure, fails⟩
      · exact converts
      · exact absurd begun (unchecked_of_conversionFails shaped complete disabled fails).1
    · rintro ⟨arguments, converts⟩
      exact (unchecked_of_converts shaped complete disabled converts).1
  returns_iff := by
    intro returned
    constructor
    · intro succeeded
      rcases conversion_cases shaped complete memory with ⟨arguments, converts⟩ | ⟨failure, fails⟩
      · rw [(unchecked_of_converts shaped complete disabled converts).2] at succeeded
        exact ⟨arguments, _, converts, Prod.ext succeeded rfl⟩
      · rw [(unchecked_of_conversionFails shaped complete disabled fails).2] at succeeded
        cases succeeded
    · rintro ⟨arguments, after, converts, entered⟩
      rw [(unchecked_of_converts shaped complete disabled converts).2, entered]
  fails_iff := by
    intro failure
    constructor
    · intro failed
      rcases conversion_cases shaped complete memory with ⟨arguments, converts⟩ | ⟨other, fails⟩
      · rw [(unchecked_of_converts shaped complete disabled converts).2] at failed
        exact .inr ⟨arguments, _, converts, Prod.ext failed rfl⟩
      · rw [(unchecked_of_conversionFails shaped complete disabled fails).2] at failed
        cases failed
        exact .inl fails
    · rintro (fails | ⟨arguments, after, converts, entered⟩)
      · exact (unchecked_of_conversionFails shaped complete disabled fails).2
      · rw [(unchecked_of_converts shaped complete disabled converts).2, entered]
  remembered := by
    simp only [run, disabled, Bool.not_false, ↓reduceIte]
    rfl

end

/-- A call of a declared contract with one value for each parameter goes through its stages in
order. Where the engine is enabled the function is invoked at most once, namely when the argument
types, the preconditions and the conversions let it; the call returns the function's own result
exactly when all later stages pass as well, and otherwise it ends with the failure of the earliest
failing stage. Where the engine is disabled the function is only called. -/
theorem call_goes_through_stages (world : World) (contract : Contract) (snapshot : Snapshot)
    (bound : Bindings) (memory : Memory) (built : Built world.host contract)
    (complete : contract.Complete bound) :
    (staged world contract snapshot bound memory).called =
        run world contract snapshot bound memory ∧
      (snapshot.enabled = true → Checked world contract snapshot bound memory) ∧
      (snapshot.enabled = false → Unchecked world contract snapshot bound memory) :=
  ⟨staged_called memory,
    fun enabled => checked_of_enabled built.shaped complete enabled memory,
    fun disabled => unchecked_of_disabled built.shaped complete disabled memory⟩

/-!
## A guarded negation
-/

def negation : Contract :=
  (Contract.wrap Sample.host (.function Sample.intFunction (.host "Neg"))
    [.parameters ["n"], .immutable [], .accepts [.predicate (.number .natural0)],
      .requires "n < 100", .returns (.predicate (.number .integer)),
      .ensures "n <= n` --> return >= return`"]).toOption.get (by decide +kernel)

theorem negation_built : Built Sample.host negation := .wrap (eq_ok_get_toOption _)

theorem negation_complete (value : Value) : negation.Complete [("n", value)] := by
  have names : negation.parameters.names = [Text.ofString "n"] := by decide +kernel
  rw [Complete, names]
  exact .refl _

/-- A call that goes through all stages, and one that stops before the function is invoked. -/
theorem call_goes_through_stages_negation :
    Built Sample.host negation ∧ negation.Complete [("n", .ofWord 7)] ∧
      negation.Complete [("n", .ofWord 700)] ∧
      (staged ⟨Sample.host, []⟩ negation ⟨true, 0, 2, []⟩ [("n", .ofWord 7)] .empty).begun =
        Stage.order ∧
      (staged ⟨Sample.host, []⟩ negation ⟨true, 0, 2, []⟩ [("n", .ofWord 700)] .empty).begun =
        Stage.preconditions.upTo ∧
      Checked ⟨Sample.host, []⟩ negation ⟨true, 0, 2, []⟩ [("n", .ofWord 7)] .empty ∧
      Checked ⟨Sample.host, []⟩ negation ⟨true, 0, 2, []⟩ [("n", .ofWord 700)] .empty := by
  refine ⟨negation_built, negation_complete _, negation_complete _, by decide +kernel,
    by decide +kernel, ?_, ?_⟩
  · exact (call_goes_through_stages ⟨Sample.host, []⟩ negation _ _ _ negation_built
      (negation_complete _)).2.1 rfl
  · exact (call_goes_through_stages ⟨Sample.host, []⟩ negation _ _ _ negation_built
      (negation_complete _)).2.1 rfl

end Covenant.Contract
