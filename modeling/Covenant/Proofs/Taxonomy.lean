import Covenant.Proofs.Effects
import Covenant.Sample

/-!
# The failures of conditions

A condition whose calls return no failures has only failures of the documented kinds.
-/

set_option autoImplicit false

namespace Covenant

open List

variable {failure : Failure} {world : World} {scope : Condition.Scope} {condition : Condition}
  {memory : Memory} {items : List Value}

namespace Condition

open Stateful

theorem value_run_eq_error
    (failed : ((condition.value world scope).run memory).1 = .error failure) :
    (∃ detail, failure = .evaluation .panic detail) ∨
      (∀ reason, failure ≠ .crash reason) ∧
        ((condition.expr.eval world scope).run memory).1 = .error failure := by
  rw [value, run_tryCatch] at failed
  cases ran : (condition.expr.eval world scope).run memory with
  | mk outcome final =>
    rw [ran] at failed
    cases outcome with
    | ok value => cases failed
    | error found =>
      cases found with
      | crash reason =>
        cases failed
        exact .inl ⟨_, rfl⟩
      | _ =>
        cases failed
        refine .inr ⟨?_, rfl⟩
        intro reason same
        cases same

theorem holds_run_eq_error
    (failed : ((condition.holds world scope).run memory).1 = .error failure) :
    ((condition.value world scope).run memory).1 = .error failure := by
  rw [holds, run_bind] at failed
  cases ran : (condition.value world scope).run memory with
  | mk outcome final =>
    rw [ran] at failed
    cases outcome with
    | ok value => cases failed
    | error found =>
      cases failed
      rfl

theorem value_ne_crash {reason : Text} :
    ((condition.value world scope).run memory).1 ≠ .error (.crash reason) := by
  intro failed
  rcases value_run_eq_error failed with ⟨detail, impossible⟩ | ⟨caught, _⟩
  · cases impossible
  · exact caught reason rfl

end Condition

/-- The kinds of the failed evaluations that a failure is or rests on. -/
def Failure.kinds (failure : Failure) : List EvalKind :=
  failure.chain.filterMap fun
    | .evaluation kind _ => some kind
    | _ => none

namespace Condition

theorem value_kinds
    (quiet : ∀ call ∈ condition.expr.calls world scope memory, call.quiet world = true)
    (failed : ((condition.value world scope).run memory).1 = .error failure) :
    failure = .unending ∨ ∃ kind, failure.kinds = [kind] := by
  rcases value_run_eq_error failed with ⟨detail, rfl⟩ | ⟨caught, failed⟩
  · exact .inr ⟨.panic, rfl⟩
  · rcases (condition.expr.eval_actsWithin world scope).fails memory failure failed with
      computed | ⟨call, member, returned⟩
    · cases failure with
      | evaluation kind detail => exact .inr ⟨kind, rfl⟩
      | unending => exact .inl rfl
      | crash reason => exact absurd rfl (caught reason)
      | _ => cases computed
    · have still := quiet call member
      rw [UserCall.quiet, returned] at still
      cases failure with
      | unending => exact .inl rfl
      | crash reason => exact absurd rfl (caught reason)
      | _ => cases still

/-!
## Values without an order
-/

def Order.isMismatched : Order → Bool
  | .mismatched .. => true
  | _ => false

/-- Any two of the values can be compared, though not-a-number may be among them. -/
def Comparable (values : List Value) : Prop :=
  ∀ left ∈ values, ∀ right ∈ values, (order left right).isMismatched = false

theorem Comparable.of_subset {fewer values : List Value} (comparable : Comparable values)
    (subset : fewer ⊆ values) : Comparable fewer :=
  fun left member right other => comparable left (subset member) right (subset other)

theorem compareValues_of_unordered (world : World) {left right : Value}
    (unordered : order left right = .unordered) {op : CompareOp}
    (orders : op ∈ [CompareOp.less, .lessEqual, .greater, .greaterEqual]) :
    compareValues world op left right = .ok false := by
  simp only [mem_cons, not_mem_nil, or_false] at orders
  rcases orders with rfl | rfl | rfl | rfl <;> simp only [compareValues, unordered]

theorem extremeFrom_eq_ok {beats : Ordering → Bool} {best : Value}
    (comparable : Comparable (best :: items)) :
    ∃ found ∈ best :: items, extremeFrom beats best items = .ok found := by
  induction items generalizing best with
  | nil => exact ⟨best, mem_cons_self, rfl⟩
  | cons item items ih =>
    have skipped : (best :: items) ⊆ best :: item :: items := by grind
    have taken : (item :: items) ⊆ best :: item :: items := by grind
    -- The search goes on with one of the two values, and either way stays within the items.
    obtain ⟨kept, keptMember, keptFound⟩ := ih (comparable.of_subset skipped)
    obtain ⟨changed, changedMember, changedFound⟩ := ih (comparable.of_subset taken)
    have matched := comparable item (by simp) best (by simp)
    rw [extremeFrom]
    cases found : order item best with
    | unordered => exact ⟨kept, skipped keptMember, keptFound⟩
    | mismatched left right =>
      rw [found] at matched
      cases matched
    | known ordering =>
      dsimp only
      split
      · exact ⟨changed, taken changedMember, changedFound⟩
      · exact ⟨kept, skipped keptMember, keptFound⟩

theorem checkOrdered_eq_ok (comparable : Comparable items) :
    checkOrdered items = .ok () := by
  fun_induction checkOrdered items with
  | case1 left right rest first second mismatched =>
    have matched := comparable left (by simp) right (by simp)
    rw [mismatched] at matched
    cases matched
  | case2 left right rest _ ih =>
    exact ih (comparable.of_subset (subset_cons_self left (right :: rest)))
  | case3 => rfl

theorem insertSorted_perm (precedes : Value → Value → Bool) (value : Value) (before : List Value) :
    (insertSorted precedes value before).Perm (value :: before) := by
  induction before with
  | nil => exact .refl _
  | cons last before ih =>
    rw [insertSorted]
    split
    · exact (ih.cons last).trans (.swap value last before)
    · exact .refl _

theorem sortBy_perm (precedes : Value → Value → Bool) (values : List Value) :
    (sortBy precedes values).Perm values := by
  have inserted (before : List Value) : (values.foldl (fun before value =>
      insertSorted precedes value before) before).Perm (values.reverse ++ before) := by
    induction values generalizing before with
    | nil => exact .refl _
    | cons value values ih =>
      rw [foldl_cons, reverse_cons, append_assoc]
      exact (ih _).trans ((insertSorted_perm precedes value before).append_left _)
  have all := inserted []
  rw [append_nil] at all
  exact (reverse_perm _).trans (all.trans (reverse_perm _))

theorem callBuiltin_extreme {builtin : Builtin} (extreme : builtin ∈ [Builtin.min, .max])
    {value : Value} (iterated : iterate value = .ok items) (comparable : Comparable items)
    (nonempty : items ≠ []) :
    ∃ found ∈ items, callBuiltin builtin [value] = .ok found := by
  cases items with
  | nil => exact absurd rfl nonempty
  | cons first others =>
    simp only [mem_cons, not_mem_nil, or_false] at extreme
    rcases extreme with rfl | rfl
    all_goals
      simp only [callBuiltin, Condition.extreme, iterated]
      exact extremeFrom_eq_ok comparable

theorem callBuiltin_extreme_of_several {builtin : Builtin}
    (extreme : builtin ∈ [Builtin.min, .max]) {first second : Value} {others : List Value}
    (comparable : Comparable (first :: second :: others)) :
    ∃ found ∈ first :: second :: others,
      callBuiltin builtin (first :: second :: others) = .ok found := by
  simp only [mem_cons, not_mem_nil, or_false] at extreme
  rcases extreme with rfl | rfl
  · exact extremeFrom_eq_ok comparable
  · exact extremeFrom_eq_ok comparable

theorem callBuiltin_sorted {value : Value} (iterated : iterate value = .ok items)
    (comparable : Comparable items) :
    callBuiltin .sorted [value] = .ok (.ofList (sortLoosely items)) := by
  change (iterate value >>= fun items => checkOrdered items >>= fun _ => _) = _
  rw [iterated]
  change (checkOrdered items >>= fun _ => _) = _
  rw [checkOrdered_eq_ok comparable]
  rfl

/-- A condition whose calls return no failures fails with exactly one of the documented kinds,
unless it never ends. No crash leaves a condition, and no failure is made of values that merely
have no order among them. -/
theorem failures_are_documented (world : World) (scope : Scope) (condition : Condition)
    (memory : Memory)
    (quiet : ∀ call ∈ condition.expr.calls world scope memory, call.quiet world = true) :
    (∀ failure, ((condition.value world scope).run memory).1 = .error failure →
      failure = .unending ∨ ∃ kind, failure.kinds = [kind]) ∧
    (∀ failure, ((condition.holds world scope).run memory).1 = .error failure →
      failure = .unending ∨ ∃ kind, failure.kinds = [kind]) ∧
    (∀ (scope : Scope) (condition : Condition) (memory : Memory) (reason : Text),
      ((condition.value world scope).run memory).1 ≠ .error (.crash reason) ∧
        ((condition.holds world scope).run memory).1 ≠ .error (.crash reason)) ∧
    (∀ left right, order left right = .unordered →
      ∀ op ∈ [CompareOp.less, .lessEqual, .greater, .greaterEqual],
        compareValues world op left right = .ok false) ∧
    (∀ value items, iterate value = .ok items → Comparable items →
      (∃ ordered, ordered.Perm items ∧ callBuiltin .sorted [value] = .ok (.ofList ordered)) ∧
        (items ≠ [] → ∀ builtin ∈ [Builtin.min, .max],
          ∃ found ∈ items, callBuiltin builtin [value] = .ok found)) ∧
    (∀ first second others, Comparable (first :: second :: others) →
      ∀ builtin ∈ [Builtin.min, .max], ∃ found ∈ first :: second :: others,
        callBuiltin builtin (first :: second :: others) = .ok found) ∧
    ∀ type object entries, ∃ keys : List Value, keys.Perm (entries.map Prod.fst) ∧
      iterate (.dict type object entries) = .ok keys := by
  refine ⟨fun _ => value_kinds quiet, ?_, ?_, ?_, ?_, ?_, ?_⟩
  · intro failure failed
    exact value_kinds quiet (holds_run_eq_error failed)
  · intro scope condition memory reason
    exact ⟨value_ne_crash, fun failed => value_ne_crash (holds_run_eq_error failed)⟩
  · intro left right unordered op orders
    exact compareValues_of_unordered world unordered orders
  · intro value items iterated comparable
    refine ⟨⟨_, sortBy_perm _ items, callBuiltin_sorted iterated comparable⟩, ?_⟩
    intro nonempty builtin extreme
    exact callBuiltin_extreme extreme iterated comparable nonempty
  · intro first second others comparable builtin extreme
    exact callBuiltin_extreme_of_several extreme comparable
  · intro type object entries
    exact ⟨sortLoosely (entries.map Prod.fst), sortBy_perm _ _, rfl⟩

def checkedThenCrashing : Condition :=
  (compile .precondition "check(n) == None and panics(-n) > 0").toOption.get (by decide +kernel)

def checkingScope : Scope :=
  Scope.root.push
    [("check", .function (Signature.type ⟨[.wordInt], false, [], true⟩) (.host "Check")),
      ("panics", .function (Signature.type ⟨[.wordInt], false, [.wordInt], false⟩)
        (.host "Panics")), ("n", .ofInt 4)]

theorem failures_are_documented_crashing :
    (checkedThenCrashing.expr.calls ⟨Sample.host, []⟩ checkingScope .empty).length = 2 ∧
      ∃ failure, ((checkedThenCrashing.value ⟨Sample.host, []⟩ checkingScope).run .empty).1 =
        .error failure ∧ (failure = .unending ∨ ∃ kind, failure.kinds = [kind]) := by
  have quiet : ∀ call ∈ checkedThenCrashing.expr.calls ⟨Sample.host, []⟩ checkingScope .empty,
      call.quiet ⟨Sample.host, []⟩ = true := by decide +kernel
  have fails : ((checkedThenCrashing.value ⟨Sample.host, []⟩ checkingScope).run .empty).1.isOk =
      false := by decide +kernel
  refine ⟨by decide +kernel, ?_⟩
  cases ended : ((checkedThenCrashing.value ⟨Sample.host, []⟩ checkingScope).run .empty).1 with
  | ok value =>
    rw [ended] at fails
    cases fails
  | error failure =>
    exact ⟨failure, rfl, (failures_are_documented _ _ _ _ quiet).1 failure ended⟩

end Condition

end Covenant
