import Covenant.Predicate.Test
import Covenant.Proofs.Outcome
import Mathlib.Data.List.Basic

/-!
# What tests accept

A family of numbers accepts a number when each of its stages does, whether the number stands alone
or in an array, where bounds are tested the other way round. Predicates that neither ask for a
function nor for a class see no more of a number than the double nearest to it.
-/

set_option autoImplicit false

namespace Covenant

open List

/-!
## Numbers
-/

variable {left right real : Float} {numbers : List Float}

theorem Number.lt_iff_unpack : left < right ↔ left.toModel.unpack.lt right.toModel.unpack = true :=
  decide_eq_true_iff

theorem Number.le_iff_unpack : left ≤ right ↔ left.toModel.unpack.le right.toModel.unpack = true :=
  decide_eq_true_iff

theorem Number.unpack_zero : (0.0 : Float).toModel.unpack = .zero .positive := rfl

theorem Number.zero_bounds_of_finite {number : Float} (finite : number.isFinite = true) :
    (¬ number < 0.0 ↔ 0.0 ≤ number) ∧ (¬ number ≤ 0.0 ↔ 0.0 < number) := by
  change number.toModel.unpack.isFinite = true at finite
  simp only [Number.lt_iff_unpack, Number.le_iff_unpack, Number.unpack_zero]
  generalize number.toModel.unpack = view at finite ⊢
  cases view with
  | notANumber => cases finite
  | infinity sign => cases finite
  | zero sign => exact ⟨iff_of_true Bool.false_ne_true rfl, iff_of_false (· rfl) Bool.false_ne_true⟩
  | finite sign mantissa exponent positive =>
    cases sign with
    | negative =>
      exact ⟨iff_of_false (· rfl) Bool.false_ne_true, iff_of_false (· rfl) Bool.false_ne_true⟩
    | positive =>
      exact ⟨iff_of_true Bool.false_ne_true rfl, iff_of_true Bool.false_ne_true rfl⟩

theorem runStages_eq_ok_iff {value : Value} {number : Float} {stages : List Stage} :
    runStages value number stages = .ok () ↔ ∀ stage ∈ stages, stage.accepts number = true := by
  rw [runStages, forM_eq_ok_iff]
  simp

theorem Stage.testAll_eq_ok_iff {stage : Stage} :
    stage.testAll numbers = .ok () ↔ ∀ number ∈ numbers, stage.acceptsItem number = true := by
  rw [testAll, forM_eq_ok_iff]
  simp

namespace NumberClass

/-- The stages of a family accept a number alone exactly when they do in an array: each bound comes
after the stage that asks for a finite number. -/
theorem accepts_iff_acceptsItem (family : NumberClass) (number : Float) :
    (∀ stage ∈ family.stages, stage.accepts number = true) ↔
      ∀ stage ∈ family.stages, stage.acceptsItem number = true := by
  have bounds := @Number.zero_bounds_of_finite number
  cases family with
  | numeric | extendedReal | number | integer =>
    simp [stages, Stage.notNan, Stage.finite, Stage.whole]
  | natural0 =>
    simpa [stages, Stage.finite, Stage.whole, Stage.notNegative] using
      fun finite _ => (bounds finite).1
  | natural1 =>
    simpa [stages, Stage.finite, Stage.whole, Stage.aboveZero] using
      fun finite _ => (bounds finite).2
  | positive0 =>
    simpa [stages, Stage.finite, Stage.realNotNegative] using fun finite => (bounds finite).1
  | positive =>
    simpa [stages, Stage.finite, Stage.realAboveZero] using fun finite => (bounds finite).2

theorem test_eq_ok_iff {family : NumberClass} {value : Value} {real : Float}
    (number : value.asFloat? = some real) :
    family.test value = .ok () ↔ ∀ stage ∈ family.stages, stage.accepts real = true := by
  rw [test, number]
  exact runStages_eq_ok_iff

theorem testArray_eq_ok_iff {family : NumberClass} {numbers : List Float} :
    family.testArray numbers = .ok () ↔
      ∀ number ∈ numbers, family.test (.ofFloat number) = .ok () := by
  have alone (number : Float) : family.test (.ofFloat number) = .ok () ↔
      ∀ stage ∈ family.stages, stage.acceptsItem number = true :=
    (test_eq_ok_iff rfl).trans (family.accepts_iff_acceptsItem number)
  simp only [alone]
  simp only [testArray, forM_eq_ok_iff, Stage.testAll_eq_ok_iff]
  exact ⟨fun accepted number inside stage member => accepted stage member number inside,
    fun accepted stage member number inside => accepted number inside stage member⟩

end NumberClass

namespace Interval

theorem test_eq_ok_iff {interval : Interval} {low high : Float} {value : Value} {real : Float}
    (number : value.asFloat? = some real) :
    interval.test low high value = .ok () ↔
      NumberClass.number.test value = .ok () ∧ interval.check low high real = .ok () := by
  rw [NumberClass.test_eq_ok_iff number, ← @runStages_eq_ok_iff value, test, number]
  exact andThen_eq_ok_iff

variable {high low : Float} {interval : Interval} {numbers : List Float}

theorem testArray_eq_ok_iff :
    interval.testArray low high numbers = .ok () ↔
      ∀ number ∈ numbers, interval.test low high (.ofFloat number) = .ok () := by
  have alone (number : Float) : interval.test low high (.ofFloat number) = .ok () ↔
      NumberClass.number.test (.ofFloat number) = .ok () ∧
        interval.check low high number = .ok () :=
    test_eq_ok_iff rfl
  simp only [alone, forall_and]
  rw [testArray, andThen_eq_ok_iff, NumberClass.testArray_eq_ok_iff, forM_eq_ok_iff]

end Interval

/-!
## Predicates within predicates
-/

def Predicate.parts : Predicate → List Predicate
  | .unchecked (some inner) | .array _ (some inner) | .complement inner | .list inner => [inner]
  | .dict key value => [key, value]
  | .allOf members | .anyOf members | .tuple members => members
  | .parameters declared _ => declared.map (·.2)
  | _ => []

/-- A property holds of a predicate, of its parts, of their parts and so on. -/
inductive Predicate.Throughout (holds : Predicate → Prop) : Predicate → Prop where
  | intro {predicate : Predicate} (itself : holds predicate)
      (within : ∀ part ∈ predicate.parts, part.Throughout holds) : predicate.Throughout holds

theorem Predicate.throughout_iff {holds : Predicate → Prop} {predicate : Predicate} :
    predicate.Throughout holds ↔
      holds predicate ∧ predicate.parts.Forall (Throughout holds) := by
  rw [forall_iff_forall_mem]
  constructor
  · rintro ⟨itself, within⟩
    exact ⟨itself, within⟩
  · rintro ⟨itself, within⟩
    exact ⟨itself, within⟩

/-!
## Numbers by their double
-/

/-- A predicate by itself sees no more of a number than the double nearest to it. Functions and
members of a class depend on the host type too. -/
def Predicate.ReadsDouble : Predicate → Prop
  | .function | .generic _ => False
  | _ => True

theorem Value.only_number {value : Value} (number : value.asFloat? = some real) :
    value.isNil = false ∧ value.plainBool? = none ∧ value.plainText? = none ∧
      value.items? = none ∧ value.entries? = none ∧ arrayOf? value = none := by
  cases value with
  | int _ _ | float _ _ => exact ⟨rfl, rfl, rfl, rfl, rfl, rfl⟩
  | _ => cases number

theorem Value.contractEqual_of_asFloat? {left value : Value} (number : value.asFloat? = some real) :
    left.contractEqual value = left.contractEqual (.ofFloat real) := by
  have double : (Value.ofFloat real).asFloat? = some real := rfl
  rw [contractEqual, contractEqual, number, double]
  cases left.asFloat? <;> rfl

namespace Predicate

variable {value : Value} {world : World} {predicates : List Predicate}

theorem isOk_test_complement {member : Predicate} :
    ((complement member).test world value).isOk = !(member.test world value).isOk := by
  rw [test]
  cases member.test world value <;> rfl

theorem isOk_testAll :
    (testAll world predicates value).isOk =
      predicates.all (fun predicate => (predicate.test world value).isOk) := by
  induction predicates with
  | nil => rfl
  | cons predicate predicates ih => rw [testAll, isOk_andThen, all_cons, ih]

theorem testSome_eq_any :
    testSome world predicates value =
      predicates.any (fun predicate => (predicate.test world value).isOk) := by
  induction predicates with
  | nil => rfl
  | cons predicate predicates ih => rw [testSome, any_cons, ih]

theorem test_of_asFloat? {predicate : Predicate} (reads : predicate.Throughout ReadsDouble)
    {real : Float} (number : value.asFloat? = some real) :
    (predicate.test world value).isOk = (predicate.test world (.ofFloat real)).isOk := by
  have double : (Value.ofFloat real).asFloat? = some real := rfl
  obtain ⟨notNil, noTruth, noText, noItems, noEntries, noArray⟩ := Value.only_number number
  obtain ⟨doubleNotNil, doubleNoTruth, doubleNoText, doubleNoItems, doubleNoEntries,
    doubleNoArray⟩ := Value.only_number double
  -- only conjunctions, disjunctions and negations put the number to their parts
  induction reads with
  | @intro predicate itself within ih =>
  cases predicate with
  | number family =>
    simp only [test]
    rw [Bool.eq_iff_iff, isOk_iff, isOk_iff, NumberClass.test_eq_ok_iff number,
      NumberClass.test_eq_ok_iff double]
  | range low high interval =>
    simp only [test]
    rw [Bool.eq_iff_iff, isOk_iff, isOk_iff, Interval.test_eq_ok_iff number,
      Interval.test_eq_ok_iff double, NumberClass.test_eq_ok_iff number,
      NumberClass.test_eq_ok_iff double]
  | text family =>
    simp only [test, TextClass.test, noText, doubleNoText]
    rfl
  | boolean =>
    simp only [test, noTruth, doubleNoTruth]
    rfl
  | nothing =>
    simp only [test, notNil, doubleNotNil]
    rfl
  | function => exact itself.elim
  | constant only =>
    simp only [test, Value.contractEqual_of_asFloat? number]
    split
    · rfl
    · split <;> rfl
  | unchecked samples => simp only [test]
  | self => simp only [test]
  | positionalArguments =>
    simp only [test, noItems, doubleNoItems, Option.isSome_none, Bool.and_false]
    rfl
  | keywordArguments =>
    simp only [test, noEntries, doubleNoEntries, Option.isSome_none, Bool.and_false]
    rfl
  | allOf members =>
    rw [test, test, isOk_testAll, isOk_testAll, Bool.eq_iff_iff, all_eq_true,
      all_eq_true]
    exact forall₂_congr fun member inside => by rw [ih member inside]
  | anyOf members =>
    have same : testSome world members value = testSome world members (.ofFloat real) := by
      rw [testSome_eq_any, testSome_eq_any, Bool.eq_iff_iff, any_eq_true,
        any_eq_true]
      exact exists_congr fun member => and_congr_right fun inside => by rw [ih member inside]
    simp only [test, same]
    split <;> rfl
  | complement member =>
    rw [isOk_test_complement, isOk_test_complement, ih member mem_cons_self]
  | list _ | tuple _ =>
    simp only [test, noItems, doubleNoItems]
    rfl
  | dict key element =>
    simp only [test, noEntries, doubleNoEntries]
    rfl
  | oneOf members =>
    simp only [test, Value.contractEqual_of_asFloat? number]
    split <;> rfl
  | parameters declared allMandatory =>
    simp only [test, hasTextKeys, noEntries, doubleNoEntries, Option.isSome_none,
      Bool.false_and, Bool.false_eq_true, if_false]
    rfl
  | array dimensions element =>
    simp only [test, noArray, doubleNoArray]
    split <;> split <;> rfl
  | generic type => exact itself.elim

end Predicate

/-!
## Arrays
-/

theorem Value.ints_words {type : HostType} {object : ObjectId} (numbers : List Int) :
    (Value.list type object (numbers.map .ofWord)).ints = numbers := by
  rw [ints, items?, Option.getD_some, filterMap_map]
  exact filterMap_some

theorem Value.floats_doubles {type : HostType} {object : ObjectId} (numbers : List Float) :
    (Value.list type object (numbers.map .ofFloat)).floats = numbers := by
  rw [floats, items?, Option.getD_some, filterMap_map]
  exact filterMap_some

/-- An array passes when its data fill its shape, it has the dimensions asked for, and each item
passes the test of the elements, made on the whole array for numbers and intervals. -/
theorem Predicate.test_array_eq_ok_iff {world : World} {dimensions : Nat}
    {element : Option Predicate} {value : Value} :
    (Predicate.array dimensions element).test world value = .ok () ↔
      ∃ shape data, arrayOf? value = some (shape, data) ∧
        shapeFits shape.ints data.floats.length = true ∧
        (dimensions = 0 ∨ shape.ints.length = dimensions) ∧
        ∀ inner ∈ element, ∀ number ∈ data.floats, inner.test world (.ofFloat number) = .ok () := by
  rw [test]
  cases parts : arrayOf? value with
  | none =>
    dsimp only
    split <;> simp
  | some found =>
    obtain ⟨shape, data⟩ := found
    simp only [Option.some.injEq, Prod.mk.injEq, ↓existsAndEq, true_and]
    cases fits : shapeFits shape.ints data.floats.length with
    | false => simp
    | true =>
      by_cases counted : dimensions = 0 ∨ shape.ints.length = dimensions
      · have agrees : (dimensions != 0 && shape.ints.length != dimensions) = false := by
          rcases counted with rfl | rfl <;> simp
        simp only [agrees, counted, Bool.not_true, Bool.false_eq_true, if_false, true_and]
        cases element with
        | none => simp
        | some inner =>
          simp only [Option.mem_some_iff, forall_eq']
          cases inner with
          | number family => exact NumberClass.testArray_eq_ok_iff
          | range low high interval => exact Interval.testArray_eq_ok_iff
          | _ => exact forM_eq_ok_iff
      · have differs : (dimensions != 0 && shape.ints.length != dimensions) = true := by
          simpa [not_or] using counted
        simp [differs, counted]

theorem Predicate.test_ofArray_eq_ok_iff {world : World} {dimensions : Nat}
    {element : Option Predicate} {shape : List Int} {data : List Float} :
    (Predicate.array dimensions element).test world (.ofArray shape data) = .ok () ↔
      shapeFits shape data.length = true ∧ (dimensions = 0 ∨ shape.length = dimensions) ∧
        ∀ inner ∈ element, ∀ number ∈ data, inner.test world (.ofFloat number) = .ok () := by
  have parts : arrayOf? (.ofArray shape data) =
      some (.list (.slice .wordInt) 0 (shape.map .ofWord),
        .list (.slice .double) 0 (data.map .ofFloat)) := rfl
  rw [test_array_eq_ok_iff, parts]
  simp only [Option.some.injEq, Prod.mk.injEq, ↓existsAndEq, true_and, Value.ints_words,
    Value.floats_doubles]

end Covenant
