import Covenant.Condition.Hook
import Covenant.Proofs.Checks
import Covenant.Proofs.Origins
import Covenant.Proofs.Taxonomy

/-!
# Where the failures of calls come from

Conditions, the conditions of classes and calls under contract fail with what user code fails with
and with what they find themselves. Of the failures that one check alone makes, a call adds only
those of its own preconditions.
-/

set_option autoImplicit false

namespace Covenant

open List

open Stateful
open Condition (Evaluation)

variable {memory : Memory} {failure : Failure}

variable {origin : Origin}

/-- A step does not fail because of a check, whatever the memory holds. -/
def RunSpares (origin : Origin) {α : Type} (step : Evaluation α) : Prop :=
  ∀ memory, Spares origin (step.run memory).1

namespace RunSpares

variable {α β : Type}

theorem pure (value : α) : RunSpares origin (pure value : Evaluation α) := fun _ => .ok value

variable {failure : Failure}

theorem throw (other : failure.restsOn origin = false) :
    RunSpares origin (throw failure : Evaluation α) := fun _ => .error other

theorem bind {first : Evaluation α} {next : α → Evaluation β} (begins : RunSpares origin first)
    (goesOn : ∀ value, RunSpares origin (next value)) : RunSpares origin (first >>= next) := by
  intro memory
  have spares := begins memory
  rw [run_bind]
  cases ran : first.run memory with
  | mk outcome middle =>
    rw [ran] at spares
    cases outcome with
    | error failure => exact spares
    | ok value => exact goesOn value middle

theorem get : RunSpares origin (get : Evaluation Memory) := fun _ => .ok _

theorem truth (value : Value) : RunSpares origin (Evaluation.truth value) := fun _ => .ok _

theorem forM {step : α → Evaluation Unit} {items : List α}
    (each : ∀ item ∈ items, RunSpares origin (step item)) :
    RunSpares origin (items.forM step) := by
  induction items with
  | nil => exact .pure ()
  | cons item items ih =>
    refine .bind (each item mem_cons_self) fun _ => ?_
    exact ih fun other member => each other (mem_cons_of_mem item member)

theorem mapM {step : α → Evaluation β} {items : List α}
    (each : ∀ item, RunSpares origin (step item)) : RunSpares origin (items.mapM step) := by
  induction items with
  | nil => exact .pure []
  | cons item items ih =>
    rw [mapM_cons]
    exact .bind (each item) fun _ => .bind ih fun _ => .pure _

theorem first_failed {first : Evaluation α} {next : α → Evaluation β}
    (goesOn : ∀ value, RunSpares origin (next value))
    (failed : ((first >>= next).run memory).1 = .error failure)
    (rests : failure.restsOn origin = true) : (first.run memory).1 = .error failure := by
  rw [run_bind] at failed
  cases ran : first.run memory with
  | mk outcome middle =>
    rw [ran] at failed
    cases outcome with
    | error other =>
      cases failed
      rfl
    | ok value =>
      have spared := (goesOn value middle).of_error failed
      rw [rests] at spared
      cases spared

end RunSpares

/-!
## User code
-/

/-- The functions and methods of the host do not fail because of a check of the engine. -/
structure Host.Spares (origin : Origin) (host : Host) : Prop where
  call : ∀ name arguments memory failure,
    (host.call name arguments memory).1 = .failed failure → failure.restsOn origin = false
  callMethod : ∀ receiver name arguments memory failure,
    (host.callMethod receiver name arguments memory).1 = .failed failure →
      failure.restsOn origin = false

/-- Neither the host nor its classes fail because of a check of the engine. -/
structure World.Spares (origin : Origin) (world : World) : Prop where
  host : world.host.Spares origin
  hooks : world.HooksSpare origin

namespace Condition

theorem ofReply_spares {reply : Reply}
    (other : ∀ failure, reply = .failed failure → failure.restsOn origin = false) :
    Spares origin (ofReply reply) := by
  cases reply with
  | returned results => exact .ok _
  | failed failure => exact .error (other failure rfl)
  | crashed value => exact .made rfl
  | hung => exact .made rfl

variable {world : World} (user : world.Spares origin)

include user

theorem hostMethod_spares (receiver : Value) (name : Text) (arguments : List Value)
    (memory : Memory) :
    Spares origin (ofReply (world.host.callMethod receiver name arguments memory).1) :=
  ofReply_spares fun failure failed =>
    user.host.callMethod receiver name arguments memory failure failed

theorem callMethod_spares (other : origin ≠ .receiver) (receiver : Value) (name : Text)
    (arguments : List Value) (memory : Memory) :
    Spares origin (callMethod world receiver name arguments memory).1 := by
  have ofHost := hostMethod_spares user receiver name arguments memory
  unfold callMethod
  split
  · exact (callPredicate_spares user.hooks (Predicate.allows_of_ne other _) name arguments).map _
  · split
    · exact .made rfl
    · exact ofHost
  · split
    · split
      · exact .ok _
      · exact ofHost
    · exact .ok _
    · exact ofHost

theorem enter_spares (other : origin ≠ .receiver) (function : Value) (arguments : List Value)
    (memory : Memory) : Spares origin (enter world function arguments memory).1 := by
  unfold enter
  split
  · exact ofReply_spares fun failure failed => user.host.call _ arguments memory failure failed
  · exact callMethod_spares user other _ _ arguments memory
  · exact .made rfl

end Condition

/-!
## Conditions
-/

namespace Condition

theorem Expr.eval_spares {world : World} (user : world.Spares origin) (other : origin ≠ .receiver)
    (scope : Scope) (expr : Expr) : RunSpares origin (expr.eval world scope) := by
  intro memory
  cases ended : ((expr.eval world scope).run memory).1 with
  | ok value => exact .ok value
  | error failure =>
    rcases (expr.eval_actsWithin world scope).fails memory failure ended with
      computed | ⟨call, _, returned⟩
    · exact .made (Failure.isPlain_of_isComputed computed)
    · exact .error ((enter_spares user other _ call.arguments call.memory).of_error returned)

section

variable {world : World} (user : world.Spares origin) (other : origin ≠ .receiver)

include user other

theorem value_spares (scope : Scope) (condition : Condition) :
    RunSpares origin (condition.value world scope) := by
  intro memory
  cases ended : ((condition.value world scope).run memory).1 with
  | ok value => exact .ok value
  | error failure =>
    rcases value_run_eq_error ended with ⟨detail, rfl⟩ | ⟨_, failed⟩
    · exact .made rfl
    · exact .error ((Expr.eval_spares user other scope condition.expr memory).of_error failed)

theorem holds_spares (scope : Scope) (condition : Condition) :
    RunSpares origin (condition.holds world scope) :=
  .bind (value_spares user other scope condition) fun value => .truth value

end

end Condition

/-!
## Declared classes
-/

theorem ClassDeclaration.check_spares {world : World} (user : world.Spares origin)
    (other : origin ≠ .receiver) (condition : Condition) (value : Value) :
    Spares origin (check world condition value) := by
  have decided := Condition.holds_spares user other
    (Condition.Scope.root.push [("v", value)]) condition Memory.empty
  unfold check
  extract_lets scope
  split
  · exact .ok ()
  · exact .made rfl
  · next failed => exact .error (decided.of_error failed)

variable {declarations : List ClassDeclaration}

theorem ClassTable.mem_of_mem_registered {inner : World} {classes : ClassTable}
    {entry : HostType × ClassInfo} (member : entry ∈ declarations.foldl (fun classes declaration =>
      classes.register declaration.type (declaration.info inner)) classes) :
    entry ∈ classes ∨ ∃ declaration ∈ declarations, entry.2 = declaration.info inner := by
  induction declarations generalizing classes with
  | nil => exact .inl member
  | cons declaration declarations ih =>
    rcases ih member with registered | ⟨found, listed, same⟩
    · rcases mem_cons.mp registered with same | kept
      · exact .inr ⟨declaration, mem_cons_self, congrArg Prod.snd same⟩
      · exact .inl (mem_of_mem_filter kept)
    · exact .inr ⟨found, mem_cons_of_mem declaration listed, same⟩

/-- Classes fail because of a check only where their host or their declared samples do. -/
theorem World.of_spares {host : Host} (user : host.Spares origin) (other : origin ≠ .receiver)
    (samples : ∀ declaration ∈ declarations, ∀ made ∈ declaration.samples,
      Covenant.Spares origin made) : (World.of host declarations).Spares origin := by
  unfold World.of
  generalize World.hookDepth = depth
  induction depth with
  | zero =>
    refine ⟨user, ?_⟩
    intro type info known
    cases known
  | succ depth ih =>
    refine ⟨user, ?_⟩
    intro type info known
    obtain ⟨before, after, split, _⟩ := lookup_eq_some_iff.mp known
    have member : (type, info) ∈ (declare host declarations (depth + 1)).classes :=
      split ▸ mem_append_right before mem_cons_self
    rcases ClassTable.mem_of_mem_registered member with impossible | ⟨declaration, listed, same⟩
    · cases impossible
    · dsimp only at same
      subst same
      refine ⟨?_, samples declaration listed⟩
      -- Conditions at one depth run in the world of the depth below.
      intro test own value
      obtain ⟨condition, _, same⟩ := Option.map_eq_some_iff.mp own
      rw [← same]
      exact ClassDeclaration.check_spares ih other condition value

/-!
## Checks of a call
-/

/-- The memory in which a call is checked: the collections of its arguments have identities. -/
def Memory.afterBinding (memory : Memory) : Memory := memory.allocate.2.allocate.2

namespace Contract

theorem explain_spares {broken : Failure → Failure} {context : Text}
    {tested : Except Failure Unit}
    (keeps : ∀ cause, (broken cause).restsOn origin = cause.restsOn origin)
    (spares : Spares origin tested) : Spares origin (tested.mapError (explain broken context)) := by
  cases tested with
  | ok => exact .ok ()
  | error cause =>
    refine .error ?_
    unfold explain
    split
    · exact spares
    · exact spares
    · split
      · exact (keeps cause).trans spares
      · exact Failure.restsOn_within.trans spares

theorem inconsistent_restsOn (contract : Contract) :
    contract.inconsistent.restsOn origin = false := by
  cases origin <;> rfl

section

variable {world : World} (hooks : world.HooksSpare origin) {contract : Contract}

include hooks

theorem checkEntry_spares {types : List (Text × Predicate)}
    (allows : ∀ entry ∈ types, ∀ memory : Memory, (memory.viewPredicate entry.2).Allows origin)
    (entry : Text × Value) : RunSpares origin (checkEntry world contract types entry) := by
  intro memory
  obtain ⟨label, value⟩ := entry
  simp only [checkEntry]
  split
  · next type declared =>
    rw [checkArgument_run]
    have plain := allows (label, type) (Bindings.mem_of_lookup declared) memory
    exact explain_spares (fun _ => Failure.restsOn_argumentType) (plain.test_spares hooks _)
  · exact .error contract.inconsistent_restsOn

theorem checkAccepts_spares
    (allows : ∀ entry ∈ contract.argumentTypes.getD [], ∀ memory : Memory,
      (memory.viewPredicate entry.2).Allows origin) (bound : Bindings) :
    RunSpares origin (checkAccepts world contract bound) := by
  unfold checkAccepts
  cases types : contract.argumentTypes with
  | none => exact .pure ()
  | some entries =>
    rw [types] at allows
    dsimp only
    split
    · exact .forM fun entry _ => checkEntry_spares hooks allows entry
    · exact .throw contract.inconsistent_restsOn

theorem checkReturns_spares
    (allows : ∀ type ∈ contract.returnType, ∀ memory : Memory,
      (memory.viewPredicate type).Allows origin) (returned : Value) :
    RunSpares origin (checkReturns world contract returned) := by
  intro memory
  cases type : contract.returnType with
  | none =>
    rw [checkReturns_run_of_none type]
    exact .ok ()
  | some declared =>
    rw [checkReturns_run_of_some type]
    exact explain_spares (fun _ => Failure.restsOn_returnType)
      ((allows declared type memory).test_spares hooks _)

end

theorem convertArgument_spares (world : World) (contract : Contract) (bound : Bindings)
    (place : Parameter × HostType) :
    RunSpares origin (convertArgument world contract bound place) := by
  intro memory
  obtain ⟨parameter, type⟩ := place
  rw [convertArgument_run]
  extract_lets present
  have converts : Spares origin (present.convert world.host type) :=
    Value.convert_spares world.host type present
  cases converted : present.convert world.host type with
  | ok value => exact .ok _
  | error cause =>
    have other := converts.of_error converted
    refine .error ?_
    unfold conversionFailure
    split
    · exact other
    · exact Failure.restsOn_argumentType.trans other

theorem checkDigests_spares (world : World) (contract : Contract) (bound : Bindings)
    (before : List (Text × UInt64)) :
    RunSpares origin (checkDigests world contract bound before) := by
  intro memory
  rw [checkDigests_run]
  cases bound.sorted.find? (differs world before memory) with
  | none => exact .ok ()
  | some entry => exact .made rfl

theorem bindNamed_spares (parameters : Parameters) (listId dictId : ObjectId) (named : Bindings) :
    Spares origin (parameters.bindNamed listId dictId named) := by
  have requires (missing : List Text) : Spares origin (Parameters.requireAll missing) := by
    unfold Parameters.requireAll
    split
    · exact .ok ()
    · exact .made rfl
  unfold Parameters.bindNamed
  split
  · exact .made rfl
  · exact .bind (requires _) fun _ _ => .ok _

theorem lookBindings_spares (bindings : Bindings) : RunSpares origin (lookBindings bindings) :=
  fun _ => .ok _

section

variable {world : World} (user : world.Spares origin) (other : origin ≠ .receiver)
  (contract : Contract)

include user other

theorem invoke_spares (bound : Bindings) : RunSpares origin (invoke world contract bound) :=
  .bind (.mapM fun place => convertArgument_spares world contract bound place)
    fun _ => Condition.enter_spares user other _ _

theorem ensureArrangement_spares (scope : Condition.Scope) (condition : Condition)
    (arrangement : Arrangement) :
    RunSpares origin (ensureArrangement world contract.name scope condition arrangement) := by
  refine .bind (Condition.holds_spares user other _ condition) fun holds => ?_
  split
  · exact .pure ()
  · exact .bind (lookBindings_spares _) fun _ =>
      .bind (.mapM fun _ => lookBindings_spares _) fun _ =>
        .throw (Failure.restsOn_of_isPlain rfl)

omit user other in
theorem remember_spares (limit : Int) (remembered : List Record) (current : Record) :
    Spares origin (remember limit remembered current).1 := by
  unfold remember
  extract_lets calls surplus
  split
  · split
    · exact .made rfl
    · exact .ok _
  · exact .ok _

theorem conclude_spares (snapshot : Snapshot) (current : Record) (memory : Memory) :
    Spares origin (conclude world contract snapshot current memory).outcome := by
  have ensures : RunSpares origin
      (checkEnsures world contract (outerScope snapshot) current) :=
    .forM fun _ _ => .forM fun _ _ => ensureArrangement_spares user other contract _ _ _
  have checked := ensures memory
  unfold conclude
  split
  · next failed => exact .error (checked.of_error (congrArg Prod.fst failed))
  · split
    · split
      · exact .ok ()
      · next failed => exact .error ((remember_spares _ _ _).of_error (congrArg Prod.fst failed))
    · exact .ok ()

theorem run_restsOn {snapshot : Snapshot} {bound : Bindings}
    (failed : (run world contract snapshot bound memory).outcome = .error failure)
    (rests : failure.restsOn origin = true) :
    snapshot.enabled = true ∧ (checkAccepts world contract bound).run memory = (.ok (), memory) ∧
      ((checkRequires world contract (outerScope snapshot) bound).run memory).1 =
        .error failure := by
  have spared {α : Type} {result : Except Failure α} (spares : Spares origin result)
      (same : result = .error failure) : False := by
    have rested := spares.of_error same
    rw [rests] at rested
    cases rested
  -- From the last check backwards, whatever is not a precondition spares the check.
  unfold run at failed
  cases enabled : snapshot.enabled with
  | false =>
    rw [enabled] at failed
    exact (spared (invoke_spares user other contract bound memory) failed).elim
  | true =>
    rw [enabled] at failed
    refine ⟨rfl, ?_⟩
    have prepared : ((prepare world contract snapshot bound).run memory).1 = .error failure := by
      cases ran : (prepare world contract snapshot bound).run memory with
      | mk outcome middle =>
        simp only [ran, Bool.not_true, Bool.false_eq_true, ↓reduceIte] at failed
        cases outcome with
        | error found => exact failed
        | ok returned =>
          have concluded := conclude_spares user other contract snapshot
            (record bound returned) middle
          exact (spared (concluded.map fun _ => returned) failed).elim
    unfold prepare at prepared
    have accepts : Spares origin ((checkAccepts world contract bound).run memory).1 :=
      checkAccepts_spares user.hooks (fun _ _ _ => Predicate.allows_of_ne other _) bound memory
    cases ran : (checkAccepts world contract bound).run memory with
    | mk outcome middle =>
      rw [ran] at accepts
      cases outcome with
      | error found =>
        rw [run_bind_of_error ran] at prepared
        cases prepared
        exact (spared accepts rfl).elim
      | ok =>
        have same : middle = memory := checkAccepts_leavesMemory.run_eq ran
        rw [same] at ran
        rw [run_bind_of_ok ran] at prepared
        refine ⟨by rw [same], RunSpares.first_failed (fun _ => ?_) prepared rests⟩
        exact .bind .get fun _ => .bind (invoke_spares user other contract bound) fun _ =>
          .bind (checkDigests_spares world contract bound _) fun _ =>
            .bind (checkReturns_spares user.hooks
              (fun _ _ _ => Predicate.allows_of_ne other _) _) fun _ => .pure _

omit user other in
theorem entryFailure?_restsOn (ordinary : origin ≠ .precondition) {bound : Bindings}
    {clause : Condition} {outcome : Except Failure Bool} (decided : Spares origin outcome)
    (refused : contract.entryFailure? bound clause memory outcome = some failure) :
    failure.restsOn origin = false := by
  unfold entryFailure? at refused
  split at refused <;> cases refused
  · exact Failure.restsOn_entryConditions ordinary
  · exact Failure.restsOn_of_isPlain rfl
  · exact (Failure.restsOn_entryConditions ordinary).trans decided

theorem checkRequires_spares (ordinary : origin ≠ .precondition) (scope : Condition.Scope)
    (bound : Bindings) : RunSpares origin (checkRequires world contract scope bound) := by
  refine .forM fun clause _ memory => ?_
  cases ran : (checkRequired world contract (scope.push bound) bound clause).run memory with
  | mk result final =>
    cases result with
    | ok => exact .ok ()
    | error failure =>
      obtain ⟨outcome, evaluated, refused⟩ := checkRequired_run_eq_error_iff.mp ran
      have decided := Condition.holds_spares user other (scope.push bound) clause memory
      rw [evaluated] at decided
      exact .error (entryFailure?_restsOn contract ordinary decided refused)

/-- A call by name makes of the failures of a check only those of its own preconditions, on the
arguments that it is called with. -/
theorem callBound_restsOn {snapshot : Snapshot} {named : Bindings}
    (failed : (callBound world contract snapshot named memory).outcome = .error failure)
    (rests : failure.restsOn origin = true) :
    ∃ bound,
      contract.parameters.bindNamed memory.allocate.1 memory.allocate.2.allocate.1 named =
        .ok bound ∧ snapshot.enabled = true ∧
      (checkAccepts world contract bound).run memory.afterBinding =
        (.ok (), memory.afterBinding) ∧
      ((checkRequires world contract (outerScope snapshot) bound).run memory.afterBinding).1 =
        .error failure := by
  have binds : Spares origin (contract.parameters.bindNamed memory.allocate.1
      memory.allocate.2.allocate.1 named) := bindNamed_spares _ _ _ named
  simp only [callBound, runWith] at failed
  cases given : contract.parameters.bindNamed memory.allocate.1 memory.allocate.2.allocate.1
      named with
  | error found =>
    rw [given] at failed
    cases failed
    rw [Failure.restsOn_within, binds.of_error given] at rests
    cases rests
  | ok bound =>
    rw [given] at failed
    exact ⟨bound, rfl, run_restsOn user other contract failed rests⟩

theorem callBound_spares (ordinary : origin ≠ .precondition) (snapshot : Snapshot)
    (named : Bindings) (memory : Memory) :
    Spares origin (callBound world contract snapshot named memory).outcome := by
  cases ended : (callBound world contract snapshot named memory).outcome with
  | ok returned => exact .ok returned
  | error failure =>
    refine .error (Bool.eq_false_iff.mpr fun rests => ?_)
    obtain ⟨bound, _, _, _, refused⟩ := callBound_restsOn user other contract ended rests
    have required := checkRequires_spares user other contract ordinary (outerScope snapshot)
      bound memory.afterBinding
    have spared := required.of_error refused
    rw [rests] at spared
    cases spared

end

end Contract

end Covenant
