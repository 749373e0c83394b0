import Covenant.Proofs.Postcondition
import Covenant.Proofs.Session
import Covenant.Sample

/-!
# What functions remember

The cache of a function changes in two ways only: it is emptied on request, and an accepted call is
added to its end, after which the oldest calls beyond the limit of that call are dropped. It
therefore always is the end of the history of accepted calls.
-/

set_option autoImplicit false

namespace Covenant

open List

open Stateful

/-!
## One call
-/

namespace Contract

/-- The record of a call that returned a value, where the engine is enabled and some postcondition
is about other calls. -/
def acceptedRecord? (contract : Contract) (snapshot : Snapshot) (bound? : Option Bindings)
    (outcome : Except Failure Value) : Option Record := do
  let bound ← bound?
  let returned ← outcome.toOption
  if snapshot.enabled && contract.isTemporal then some (record bound returned) else none

/-- The cache after a call: the latest calls up to the limit, with an accepted one at the end. -/
def retain (limit : Int) (remembered : List Record) : Option Record → List Record
  | none => remembered
  | some current => (remembered ++ [current]).rtake limit.toNat

variable {world : World} {contract : Contract} {snapshot : Snapshot}

@[simp] theorem acceptedRecord?_error (bound? : Option Bindings) (failure : Failure) :
    contract.acceptedRecord? snapshot bound? (.error failure) = none := by
  cases bound? <;> rfl

theorem acceptedRecord?_ok (bound : Bindings) (returned : Value) :
    contract.acceptedRecord? snapshot (some bound) (.ok returned) =
      if snapshot.enabled && contract.isTemporal then some (record bound returned) else none := rfl

theorem run_remembered (nonnegative : 0 ≤ snapshot.maxCache) (bound : Bindings)
    (memory : Memory) :
    (run world contract snapshot bound memory).remembered =
      retain snapshot.maxCache contract.remembered (contract.acceptedRecord? snapshot (some bound)
        (run world contract snapshot bound memory).outcome) := by
  cases enabled : snapshot.enabled with
  | false =>
    have unrecorded (outcome : Except Failure Value) :
        contract.acceptedRecord? snapshot (some bound) outcome = none := by
      cases outcome with
      | error failure => rfl
      | ok returned => simp [acceptedRecord?_ok, enabled]
    rw [unrecorded]
    simp only [run, enabled, Bool.not_false, ↓reduceIte]
    rfl
  | true =>
    cases prepared : (prepare world contract snapshot bound).run memory with
    | mk outcome middle =>
      cases outcome with
      | error failure => simp [run, enabled, prepared, retain]
      | ok returned =>
        rcases conclude_cases world contract snapshot (record bound returned) middle with
          ⟨failure, final, _, ended⟩ | ⟨final, _, ended⟩
        · simp [run, enabled, prepared, ended, retain, Except.map]
        · rcases ended with ⟨plain, ended⟩ | ⟨temporal, _, ended⟩ | ⟨_, negative, _⟩
          · simp [run, enabled, prepared, ended, retain, plain, acceptedRecord?_ok,
              Except.map]
          · simp [run, enabled, prepared, ended, retain, temporal, acceptedRecord?_ok,
              Except.map]
          · omega

def bound? (contract : Contract) (arguments : List Value) (named : Bindings) (memory : Memory) :
    Option Bindings :=
  let (listId, memory) := memory.allocate
  let (dictId, _) := memory.allocate
  (contract.parameters.bind listId dictId arguments named).toOption

def boundByName? (contract : Contract) (named : Bindings) (memory : Memory) : Option Bindings :=
  let (listId, memory) := memory.allocate
  let (dictId, _) := memory.allocate
  (contract.parameters.bindNamed listId dictId named).toOption

variable {bind : ObjectId → ObjectId → Except Failure Bindings}

theorem runWith_remembered (nonnegative : 0 ≤ snapshot.maxCache) (memory : Memory) :
    (contract.runWith world snapshot bind memory).remembered =
      retain snapshot.maxCache contract.remembered (contract.acceptedRecord? snapshot
        (bind memory.allocate.1 memory.allocate.2.allocate.1).toOption
        (contract.runWith world snapshot bind memory).outcome) := by
  simp only [runWith]
  cases bind memory.allocate.1 memory.allocate.2.allocate.1 with
  | error failure => rfl
  | ok bound => exact run_remembered nonnegative bound _

/-- A call is recorded when it returns a value, the engine is enabled and some postcondition is
about other calls. -/
theorem acceptedRecord?_isSome_iff {bound? : Option Bindings} {outcome : Except Failure Value}
    (bound : ∀ returned, outcome = .ok returned → bound?.isSome = true) :
    (contract.acceptedRecord? snapshot bound? outcome).isSome = true ↔
      (∃ returned, outcome = .ok returned) ∧ snapshot.enabled = true ∧
        contract.isTemporal = true := by
  cases outcome with
  | error failure => simp
  | ok returned =>
    obtain ⟨names, rfl⟩ := Option.isSome_iff_exists.mp (bound returned rfl)
    rw [acceptedRecord?_ok]
    cases snapshot.enabled <;> cases contract.isTemporal <;> simp

theorem isSome_of_runWith {memory : Memory} {returned : Value}
    (succeeded : (contract.runWith world snapshot bind memory).outcome = .ok returned) :
    (bind memory.allocate.1 memory.allocate.2.allocate.1).toOption.isSome = true := by
  simp only [runWith] at succeeded
  cases bound : bind memory.allocate.1 memory.allocate.2.allocate.1 with
  | error failure =>
    rw [bound] at succeeded
    cases succeeded
  | ok _ => rfl

end Contract

/-!
## Operations
-/

namespace Workspace

/-- An operation on the functions and settings of a workspace. -/
inductive Operation where
  | call (id : Text) (arguments : List Value) (named : Bindings)
  | callBound (id : Text) (named : Bindings) (cancelled : Bool)
  | forget (id : Text)
  | redeclare (id source : Text) (clauses : List Clause)
  | wrap (id : Text) (function : Value) (clauses : List Clause)
  | bindClass (id : Text) (type : Option HostType) (methods : List (Text × Option Text))
  | declareClass (declaration : ClassDeclaration)
  | assign (store name : Text) (value : Value)
  | assignAll (store : Text) (values : Bindings)
  | overlay (id origin name : Text) (value : Value)

namespace Operation

/-- Performs an operation; its answer does not matter here, only whether it fails. -/
def perform : Operation → Session Unit
  | .call id arguments named => (fun _ => ()) <$> Workspace.call id arguments named
  | .callBound id named cancelled => (fun _ => ()) <$> Workspace.callBound id named cancelled
  | .forget id => Workspace.forget id
  | .redeclare id source clauses => (fun _ => ()) <$> Workspace.rewrap id source clauses
  | .wrap id function clauses => (fun _ => ()) <$> Workspace.wrap id function clauses
  | .bindClass id type methods => (fun _ => ()) <$> Workspace.bindClass id type methods
  | .declareClass declaration => Workspace.declareClass declaration
  | .assign store name value => Workspace.set store name value
  | .assignAll store values => Workspace.setAll store values
  | .overlay id origin name value => (fun _ => ()) <$> Workspace.overlay id origin name value

def outcome (workspace : Workspace) (operation : Operation) : Except Failure Unit :=
  (operation.perform.run workspace).1

def after (workspace : Workspace) (operation : Operation) : Workspace :=
  (operation.perform.run workspace).2

def calls (workspace : Workspace) (number : Nat) : Operation → Bool
  | .call id .. | .callBound id .. => workspace.functions.lookup id == some number
  | _ => false

/-- Whether an operation makes the function of a number forget its calls. -/
def resets (workspace : Workspace) (number : Nat) : Operation → Bool
  | .forget id => workspace.functions.lookup id == some number
  | _ => false

/-- The record of an accepted call of a function that an operation makes: the arguments as they were
bound, with the returned value. -/
def accepted? (workspace : Workspace) (number : Nat) (operation : Operation) : Option Record := do
  let contract ← workspace.contractAt? number
  let snapshot := workspace.snapshotOf contract
  let record? := contract.acceptedRecord? snapshot
  if operation.calls workspace number then
    match operation with
    | .call _ arguments named =>
      record? (contract.bound? arguments named workspace.memory)
        (contract.call workspace.world snapshot arguments named workspace.memory).outcome
    | .callBound _ named false =>
      record? (contract.boundByName? named workspace.memory)
        (contract.callBound workspace.world snapshot named workspace.memory).outcome
    | _ => none
  else none

end Operation

def afterAll (workspace : Workspace) (operations : List Operation) : Workspace :=
  operations.foldl Operation.after workspace

def remembered (workspace : Workspace) (number : Nat) : List Record :=
  ((workspace.contractAt? number).map Contract.remembered).getD []

def limit (workspace : Workspace) (number : Nat) : Int :=
  ((workspace.contractAt? number).map
    (fun contract => (workspace.snapshotOf contract).maxCache)).getD 0

/-- The accepted calls since the function last forgot its calls, after those that it remembered at
the start. -/
def history (number : Nat) (workspace : Workspace) (before : List Record) :
    List Operation → List Record
  | [] => before
  | operation :: operations =>
    history number (operation.after workspace)
      (if operation.resets workspace number then []
        else before ++ (operation.accepted? workspace number).toList) operations

/-!
## One operation
-/

section

variable {workspace : Workspace} {number : Nat} {contract : Contract}

namespace Operation

theorem perform_callBound (id : Text) (keywords : Bindings) :
    perform (.callBound id keywords false) = (fun _ => ()) <$> callWith id
      (fun world found snapshot memory => found.callBound world snapshot keywords memory) := by
  simp only [perform, Workspace.callBound, Bool.false_eq_true, ↓reduceIte]

variable {id : Text} {operation : Operation}
  {step : World → Contract → Snapshot → Memory → Contract.Called}

theorem accepted?_of_not_calls (other : operation.calls workspace number = false) :
    operation.accepted? workspace number = none := by
  unfold accepted?
  cases workspace.contractAt? number <;> simp [other]

theorem accepted?_of_resets (reset : operation.resets workspace number = true) :
    operation.accepted? workspace number = none := by
  cases operation with
  | forget id => exact accepted?_of_not_calls rfl
  | _ => cases reset

/-- The function of a number remembers what the operation leaves of its calls. -/
def Leaves (operation : Operation) (workspace : Workspace) (number : Nat)
    (contract : Contract) : Prop :=
  ∃ changed, (operation.after workspace).contractAt? number = some changed ∧
    changed.remembered =
      if operation.resets workspace number then []
      else Contract.retain (workspace.snapshotOf contract).maxCache contract.remembered
        (operation.accepted? workspace number)

variable (known : workspace.contractAt? number = some contract)

include known

theorem accepted?_of_call (named : workspace.functions.lookup id = some number)
    (arguments : List Value) (keywords : Bindings) :
    accepted? workspace number (.call id arguments keywords) =
      contract.acceptedRecord? (workspace.snapshotOf contract)
        (contract.bound? arguments keywords workspace.memory)
        (contract.call workspace.world (workspace.snapshotOf contract) arguments keywords
          workspace.memory).outcome := by
  simp [accepted?, known, calls, named]

theorem accepted?_of_callBound
    (named : workspace.functions.lookup id = some number) (keywords : Bindings) :
    accepted? workspace number (.callBound id keywords false) =
      contract.acceptedRecord? (workspace.snapshotOf contract)
        (contract.boundByName? keywords workspace.memory)
        (contract.callBound workspace.world (workspace.snapshotOf contract) keywords
          workspace.memory).outcome := by
  simp [accepted?, known, calls, named]

theorem after_of_keepsRemembered (keeps : MovesAlong (KeepsRemembered number) operation.perform)
    (noCall : operation.calls workspace number = false)
    (noReset : operation.resets workspace number = false) :
    operation.Leaves workspace number contract := by
  rw [Leaves, accepted?_of_not_calls noCall, noReset]
  exact keeps workspace contract known

theorem after_of_callWith (performs : operation.perform = (fun _ => ()) <$> callWith id step)
    (noReset : operation.resets workspace number = false)
    (other : workspace.functions.lookup id ≠ some number →
      operation.accepted? workspace number = none)
    (adds : workspace.functions.lookup id = some number →
      (step workspace.world contract (workspace.snapshotOf contract)
        workspace.memory).remembered =
      Contract.retain (workspace.snapshotOf contract).maxCache contract.remembered
        (operation.accepted? workspace number)) :
    operation.Leaves workspace number contract := by
  rw [Leaves, after, performs, run_map, noReset]
  refine ⟨_, (callWith_updates workspace id step).contractAt? known, ?_⟩
  by_cases named : workspace.functions.lookup id = some number
  · rw [if_pos named]
    exact adds named
  · rw [if_neg named, other named]
    rfl

theorem after_contractAt?
    (nonnegative : 0 ≤ (workspace.snapshotOf contract).maxCache) (operation : Operation) :
    operation.Leaves workspace number contract := by
  cases operation with
  | call id arguments keywords =>
    refine after_of_callWith known rfl rfl (fun other => ?_) (fun named => ?_)
    · exact accepted?_of_not_calls (by simp [calls, other])
    · rw [accepted?_of_call known named]
      exact Contract.runWith_remembered nonnegative workspace.memory
  | callBound id keywords cancelled =>
    cases cancelled with
    | true =>
      refine ⟨contract, known, ?_⟩
      simp [resets, accepted?, known, Contract.retain]
    | false =>
      refine after_of_callWith known (perform_callBound id keywords) rfl (fun other => ?_)
        (fun named => ?_)
      · exact accepted?_of_not_calls (by simp [calls, other])
      · rw [accepted?_of_callBound known named]
        exact Contract.runWith_remembered nonnegative workspace.memory
  | forget id =>
    refine ⟨_, (forget_updates workspace id).contractAt? known, ?_⟩
    rw [accepted?_of_not_calls rfl]
    by_cases named : workspace.functions.lookup id = some number <;>
      simp [resets, named, Contract.retain]
  | redeclare id source clauses =>
    exact after_of_keepsRemembered known (.map (rewrap_keepsRemembered id source clauses)) rfl rfl
  | wrap id function clauses =>
    exact after_of_keepsRemembered known (.map (wrap_keepsRemembered id function clauses)) rfl rfl
  | bindClass id type methods =>
    exact after_of_keepsRemembered known (.map (bindClass_keepsRemembered id type methods))
      rfl rfl
  | declareClass declaration =>
    exact after_of_keepsRemembered known (.modify fun _ => keepsRemembered_of_same ⟨rfl, rfl, rfl⟩)
      rfl rfl
  | assign store name value =>
    exact after_of_keepsRemembered known
      ((set_sameContracts store name value).imp keepsRemembered_of_same) rfl rfl
  | assignAll store values =>
    exact after_of_keepsRemembered known
      ((setAll_sameContracts store values).imp keepsRemembered_of_same) rfl rfl
  | overlay id origin name value =>
    exact after_of_keepsRemembered known
      (.map ((overlay_sameContracts id origin name value).imp keepsRemembered_of_same)) rfl rfl

theorem outcome_eq_ok_iff_of_callWith
    (performs : operation.perform = (fun _ => ()) <$> callWith id step)
    (named : workspace.functions.lookup id = some number) :
    operation.outcome workspace = .ok () ↔
      ∃ returned, (step workspace.world contract (workspace.snapshotOf contract)
        workspace.memory).outcome = .ok returned := by
  rw [outcome, performs, run_map, callWith_run named known]
  cases (step workspace.world contract (workspace.snapshotOf contract)
      workspace.memory).outcome with
  | error failure => exact ⟨nofun, nofun⟩
  | ok returned => exact ⟨fun _ => ⟨returned, rfl⟩, fun _ => rfl⟩

/-- A record is taken of the calls that succeed where the engine is enabled and some postcondition
is about other calls. -/
theorem accepted?_isSome_iff (operation : Operation) :
    (operation.accepted? workspace number).isSome = true ↔
      operation.calls workspace number = true ∧ operation.outcome workspace = .ok () ∧
        (workspace.snapshotOf contract).enabled = true ∧ contract.isTemporal = true := by
  cases called : operation.calls workspace number with
  | false => simp [accepted?_of_not_calls called]
  | true =>
    cases operation with
    | call id arguments keywords =>
      have named : workspace.functions.lookup id = some number := by simpa [calls] using called
      rw [accepted?_of_call known named, outcome_eq_ok_iff_of_callWith known rfl named,
        eq_self, true_and]
      exact Contract.acceptedRecord?_isSome_iff fun _ => Contract.isSome_of_runWith
    | callBound id keywords cancelled =>
      have named : workspace.functions.lookup id = some number := by simpa [calls] using called
      cases cancelled with
      | true =>
        have refused : outcome workspace (.callBound id keywords true) =
            .error .cancelled := rfl
        simp [accepted?, known, refused]
      | false =>
        rw [accepted?_of_callBound known named,
          outcome_eq_ok_iff_of_callWith known (perform_callBound id keywords) named, eq_self,
          true_and]
        exact Contract.acceptedRecord?_isSome_iff fun _ => Contract.isSome_of_runWith
    | _ => cases called

end Operation

end

/-!
## Whole runs
-/

section

variable {workspace : Workspace} {number : Nat}

variable {contract : Contract} {before : List Record} {operations : List Operation}

theorem remembered_of_contractAt? (known : workspace.contractAt? number = some contract) :
    workspace.remembered number = contract.remembered := by
  rw [remembered, known]
  rfl

theorem limit_of_contractAt? (known : workspace.contractAt? number = some contract) :
    workspace.limit number = (workspace.snapshotOf contract).maxCache := by
  rw [limit, known]
  rfl

theorem Operation.after_remembered (known : (workspace.contractAt? number).isSome = true)
    (nonnegative : 0 ≤ workspace.limit number) (operation : Operation) :
    ((operation.after workspace).contractAt? number).isSome = true ∧
      (operation.after workspace).remembered number =
        if operation.resets workspace number then []
        else Contract.retain (workspace.limit number) (workspace.remembered number)
          (operation.accepted? workspace number) := by
  obtain ⟨contract, known⟩ := Option.isSome_iff_exists.mp known
  rw [limit_of_contractAt? known] at nonnegative ⊢
  obtain ⟨changed, changedKnown, same⟩ := after_contractAt? known nonnegative operation
  rw [changedKnown, remembered_of_contractAt? changedKnown, remembered_of_contractAt? known, same]
  exact ⟨rfl, rfl⟩

/-- A cache that ends a history still does when both are continued. -/
theorem retain_suffix {limit : Int} {kept : List Record} (suffix : kept <:+ before)
    (record? : Option Record) :
    Contract.retain limit kept record? <:+ before ++ record?.toList := by
  cases record? with
  | none => simpa [Contract.retain] using suffix
  | some current =>
    obtain ⟨older, rfl⟩ := suffix
    refine (drop_suffix _ _).trans ⟨older, ?_⟩
    simp

/-- The limit of the function is not negative at any point of a run. -/
def LimitsNonnegative (number : Nat) (start : Workspace) (operations : List Operation) : Prop :=
  ∀ count ≤ operations.length, 0 ≤ (start.afterAll (operations.take count)).limit number

instance (number : Nat) (start : Workspace) (operations : List Operation) :
    Decidable (LimitsNonnegative number start operations) :=
  inferInstanceAs (Decidable (∀ count ≤ operations.length, _))

theorem LimitsNonnegative.tail {operation : Operation}
    (nonnegative : LimitsNonnegative number workspace (operation :: operations)) :
    LimitsNonnegative number (operation.after workspace) operations :=
  fun count inside => nonnegative (count + 1) (Nat.succ_le_succ inside)

theorem LimitsNonnegative.take (nonnegative : LimitsNonnegative number workspace operations)
    (place : Nat) : LimitsNonnegative number workspace (operations.take place) := by
  intro count inside
  rw [length_take] at inside
  rw [take_take, Nat.min_eq_left (by omega)]
  exact nonnegative count (by omega)

theorem afterAll_remembered {start : Workspace} (known : (start.contractAt? number).isSome = true)
    (nonnegative : LimitsNonnegative number start operations)
    (suffix : start.remembered number <:+ before) :
    ((start.afterAll operations).contractAt? number).isSome = true ∧
      (start.afterAll operations).remembered number <:+
        history number start before operations := by
  induction operations generalizing start before with
  | nil => exact ⟨known, suffix⟩
  | cons operation operations ih =>
    obtain ⟨stillKnown, changed⟩ :=
      operation.after_remembered known (nonnegative 0 (Nat.zero_le _))
    refine ih stillKnown nonnegative.tail ?_
    rw [changed]
    split
    · exact nil_suffix
    · exact retain_suffix suffix _

end

/-- What one operation does to the calls that a function remembers. -/
structure Transition (number : Nat) (before : Workspace) (operation : Operation)
    (after : Workspace) : Prop where
  /-- The accepted calls are those that succeed while the engine is enabled and some postcondition
  is about other calls. -/
  recorded : ∃ contract, before.contractAt? number = some contract ∧
    ((operation.accepted? before number).isSome = true ↔
      operation.calls before number = true ∧ operation.outcome before = .ok () ∧
        (before.snapshotOf contract).enabled = true ∧ contract.isTemporal = true)
  reset : operation.resets before number = true →
    operation.accepted? before number = none ∧ after.remembered number = []
  /-- An accepted call comes last, and as many calls stay as its limit allows. -/
  accepted : ∀ current, operation.accepted? before number = some current →
    after.remembered number =
      (before.remembered number ++ [current]).rtake (before.limit number).toNat
  bounded : ∀ current, operation.accepted? before number = some current →
    (after.remembered number).length ≤ before.limit number
  /-- Everything else leaves the cache unchanged. -/
  unchanged : operation.resets before number = false →
    operation.accepted? before number = none →
    after.remembered number = before.remembered number

theorem Operation.transition {number : Nat} {before : Workspace}
    (known : (before.contractAt? number).isSome = true)
    (nonnegative : 0 ≤ before.limit number) (operation : Operation) :
    Transition number before operation (operation.after before) := by
  have changed := (operation.after_remembered known nonnegative).2
  have appended (current : Record) (accepted : operation.accepted? before number = some current) :
      (operation.after before).remembered number =
        (before.remembered number ++ [current]).rtake (before.limit number).toNat := by
    have noReset : ¬ operation.resets before number = true := by
      intro reset
      rw [operation.accepted?_of_resets reset] at accepted
      cases accepted
    rw [changed, if_neg noReset, accepted]
    rfl
  refine ⟨?_, ?_, appended, ?_, ?_⟩
  · obtain ⟨contract, contractKnown⟩ := Option.isSome_iff_exists.mp known
    exact ⟨contract, contractKnown, operation.accepted?_isSome_iff contractKnown⟩
  · intro reset
    rw [changed, if_pos reset]
    exact ⟨operation.accepted?_of_resets reset, rfl⟩
  · intro current accepted
    rw [appended current accepted, List.rtake.eq_def, length_drop]
    omega
  · intro noReset unaccepted
    rw [changed, unaccepted, noReset]
    rfl

/-- Over every sequence of operations each one changes the calls that a function remembers in
exactly one way: a reset empties the cache, an accepted call becomes the latest remembered one
within the limit of that call, and everything else leaves the cache unchanged. So the cache holds
accepted calls only, in the order of the calls: it ends the history since the last reset. -/
theorem remembered_after_each_operation (number : Nat) (start : Workspace)
    (known : (start.contractAt? number).isSome = true) (operations : List Operation)
    (nonnegative : LimitsNonnegative number start operations) (place : Nat)
    (operation : Operation) (placed : operations[place]? = some operation) :
    Transition number (start.afterAll (operations.take place)) operation
        (start.afterAll (operations.take (place + 1))) ∧
      (start.afterAll (operations.take (place + 1))).remembered number <:+
        history number start (start.remembered number) (operations.take (place + 1)) := by
  have inside : place < operations.length := (List.getElem?_eq_some_iff.mp placed).1
  have stepped : start.afterAll (operations.take (place + 1)) =
      operation.after (start.afterAll (operations.take place)) := by
    simp only [afterAll, List.take_add_one, placed, Option.toList_some, List.foldl_append,
      List.foldl_cons, List.foldl_nil]
  constructor
  · rw [stepped]
    exact operation.transition
      (afterAll_remembered known (nonnegative.take place) List.suffix_rfl).1
      (nonnegative place (Nat.le_of_lt inside))
  · exact (afterAll_remembered known (nonnegative.take (place + 1)) List.suffix_rfl).2

/-!
## A session
-/

/-- A workspace in which doubling keeps the order of any two calls. -/
def doublingWorkspace : Workspace :=
  ((Workspace.wrap "double" (.function Sample.intFunction (.host "Double"))
    [.parameters ["n"], .ensures "n <= n` --> return <= return`"]).run
    (Workspace.initial Sample.host)).2

/-- Calls with a shrinking limit; the second is refused for its argument, the last one is made
while the engine is disabled. -/
def doublingSession : List Operation :=
  [.call "double" [.ofWord 3] [], .call "double" [.ofText "three"] [],
    .callBound "double" [("n", .ofWord 4)] false, .assign "global" "max_cache" (.ofWord 1),
    .call "double" [] [("n", .ofWord 5)], .redeclare "twice" "double" [.requires "n > 0"],
    .call "twice" [.ofWord 0] [], .assign "global" "enabled" (.ofBool false),
    .call "double" [.ofWord 6] [], .forget "twice"]

/-- The fifth operation is accepted and leaves one call of three. -/
theorem remembered_after_each_operation_doubling :
    (doublingWorkspace.contractAt? 0).isSome = true ∧
      LimitsNonnegative 0 doublingWorkspace doublingSession ∧
      (Operation.accepted? (doublingWorkspace.afterAll (doublingSession.take 4)) 0
        (.call "double" [] [("n", .ofWord 5)])).isSome = true ∧
      ((doublingWorkspace.afterAll (doublingSession.take 4)).remembered 0).length = 2 ∧
      ((doublingWorkspace.afterAll (doublingSession.take 9)).remembered 0).length = 1 ∧
      Transition 0 (doublingWorkspace.afterAll (doublingSession.take 4))
        (.call "double" [] [("n", .ofWord 5)])
        (doublingWorkspace.afterAll (doublingSession.take 5)) ∧
      (doublingWorkspace.afterAll (doublingSession.take 5)).remembered 0 <:+
        history 0 doublingWorkspace (doublingWorkspace.remembered 0)
          (doublingSession.take 5) := by
  have known : (doublingWorkspace.contractAt? 0).isSome = true := by decide +kernel
  have nonnegative : LimitsNonnegative 0 doublingWorkspace doublingSession := by decide +kernel
  refine ⟨known, nonnegative, by decide +kernel, by decide +kernel, by decide +kernel, ?_⟩
  exact remembered_after_each_operation 0 doublingWorkspace known doublingSession nonnegative 4
    _ rfl

end Workspace

end Covenant
