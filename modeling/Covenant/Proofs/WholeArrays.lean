import Covenant.Condition.Call
import Covenant.Proofs.Acceptance
import Covenant.Sample

/-!
# Tests of whole arrays

Families of numbers and intervals test the data of an array stage by stage over all of it. They
accept the data exactly when they accept each number by itself, and what they refuse the data for is
a number that they refuse by itself too.
-/

set_option autoImplicit false

namespace Covenant

open List

def Failure.Blames (failure : Failure) (value : Value) : Prop :=
  ∃ predicate reason, failure = Predicate.refuse predicate value reason

variable {failure : Failure} {numbers : List Float} {test : Except Failure Unit}

theorem Stage.exists_of_testAll_eq_error {stage : Stage}
    (failed : stage.testAll numbers = .error failure) :
    ∃ number ∈ numbers, stage.acceptsItem number = false ∧ failure.Blames (.ofFloat number) := by
  obtain ⟨number, member, refused⟩ := exists_mem_of_forM_eq_error failed
  split at refused
  · cases refused
  · next different =>
    cases refused
    exact ⟨number, member, eq_false_of_ne_true different, _, _, rfl⟩

theorem NumberClass.exists_of_testArray_eq_error {family : NumberClass}
    (failed : family.testArray numbers = .error failure) :
    ∃ number ∈ numbers, failure.Blames (.ofFloat number) ∧
      family.test (.ofFloat number) ≠ .ok () := by
  obtain ⟨stage, inside, stopped⟩ := exists_mem_of_forM_eq_error failed
  obtain ⟨number, member, refused, blames⟩ := Stage.exists_of_testAll_eq_error stopped
  refine ⟨number, member, blames, ?_⟩
  intro accepted
  have accepts := (family.accepts_iff_acceptsItem number).mp ((test_eq_ok_iff rfl).mp accepted)
  exact Bool.false_ne_true (refused.symm.trans (accepts stage inside))

namespace Interval

variable {interval : Interval} {low high : Float}

variable {failure : Failure} {numbers : List Float}

theorem blames_of_check_eq_error {number : Float}
    (failed : interval.check low high number = .error failure) :
    failure.Blames (.ofFloat number) := by
  unfold check at failed
  dsimp only at failed
  split at failed
  · cases failed
    exact ⟨_, _, rfl⟩
  · split at failed
    · cases failed
      exact ⟨_, _, rfl⟩
    · split at failed
      · cases failed
        exact ⟨_, _, rfl⟩
      · cases failed

theorem exists_of_testArray_eq_error
    (failed : interval.testArray low high numbers = .error failure) :
    ∃ number ∈ numbers, failure.Blames (.ofFloat number) ∧
      interval.test low high (.ofFloat number) ≠ .ok () := by
  have alone (number : Float) := @test_eq_ok_iff interval low high (.ofFloat number) number rfl
  rw [testArray] at failed
  cases finite : NumberClass.number.testArray numbers with
  | error first =>
    rw [finite] at failed
    cases failed
    obtain ⟨number, member, blames, refused⟩ := NumberClass.exists_of_testArray_eq_error finite
    exact ⟨number, member, blames, fun accepted => refused ((alone number).mp accepted).1⟩
  | ok =>
    rw [finite] at failed
    obtain ⟨number, member, refused⟩ := exists_mem_of_forM_eq_error failed
    refine ⟨number, member, blames_of_check_eq_error refused, ?_⟩
    intro accepted
    rw [((alone number).mp accepted).2] at refused
    cases refused

end Interval

open Condition (predicateMethods callPredicate)

def Predicate.testWhole (world : World) (element : Predicate) (data : List Float) :
    Except Failure (List Value) :=
  callPredicate world element "TestArray" [.list (.slice .double) 0 (data.map .ofFloat)]

namespace Predicate

variable {world : World} {data : List Float}

theorem floats_data : (Value.list (.slice .double) 0 (data.map .ofFloat)).floats = data :=
  Value.floats_doubles data

theorem testWhole_number {family : NumberClass} :
    (number family).testWhole world data = (do family.testArray data; return []) := by
  simp only [testWhole, callPredicate, List.head?_cons, Option.map_some, Option.getD_some,
    floats_data]
  rfl

theorem testWhole_range {low high : Float} {interval : Interval} :
    (range low high interval).testWhole world data =
      (do interval.testArray low high data; return []) := by
  simp only [testWhole, callPredicate, List.head?_cons, Option.map_some, Option.getD_some,
    floats_data]
  rfl

theorem eq_of_offers_testArray {element : Predicate}
    (offered : Text.ofString "TestArray" ∈ (predicateMethods element).map (·.1)) :
    (∃ family, element = .number family) ∨
      ∃ low high interval, element = .range low high interval := by
  have common : Text.ofString "TestArray" ∉
      [Text.ofString "String", Text.ofString "Test", Text.ofString "Generate"] := by decide
  cases element with
  | number family => exact .inl ⟨family, rfl⟩
  | range low high interval => exact .inr ⟨low, high, interval, rfl⟩
  | _ => exact absurd offered common

end Predicate

theorem returns_eq_ok_iff : (do test; return ([] : List Value)) = .ok [] ↔ test = .ok () := by
  cases test with
  | error failure => exact ⟨nofun, nofun⟩
  | ok => exact ⟨fun _ => rfl, fun _ => rfl⟩

theorem returns_eq_error_iff :
    (do test; return ([] : List Value)) = .error failure ↔ test = .error failure := by
  cases test with
  | error first =>
    constructor
    · intro failed
      cases failed
      rfl
    · intro failed
      cases failed
      rfl
  | ok => exact ⟨nofun, nofun⟩

/-- An element type that can test whole arrays accepts data exactly when it accepts each number of
it, whatever numbers they are; what it refuses data for is a number that it refuses by itself. So an
array of such elements passes exactly when its shape fits and each of its numbers passes. -/
theorem whole_arrays_agree_with_items (world : World) (element : Predicate) (data : List Float)
    (offered : Text.ofString "TestArray" ∈ (predicateMethods element).map (·.1)) :
    (element.testWhole world data = .ok [] ↔
      ∀ number ∈ data, element.test world (.ofFloat number) = .ok ()) ∧
    (∀ failure, element.testWhole world data = .error failure →
      ∃ number ∈ data, failure.Blames (.ofFloat number) ∧
        element.test world (.ofFloat number) ≠ .ok ()) ∧
    ∀ dimensions shape,
      ((Predicate.array dimensions (some element)).test world (.ofArray shape data) = .ok () ↔
        shapeFits shape data.length = true ∧ (dimensions = 0 ∨ shape.length = dimensions) ∧
          element.testWhole world data = .ok []) := by
  have same : element.testWhole world data = .ok [] ↔
      ∀ number ∈ data, element.test world (.ofFloat number) = .ok () := by
    rcases Predicate.eq_of_offers_testArray offered with
      ⟨family, rfl⟩ | ⟨low, high, interval, rfl⟩
    · simp only [Predicate.testWhole_number, returns_eq_ok_iff, Predicate.test]
      exact NumberClass.testArray_eq_ok_iff
    · simp only [Predicate.testWhole_range, returns_eq_ok_iff, Predicate.test]
      exact Interval.testArray_eq_ok_iff
  refine ⟨same, ?_, ?_⟩
  · intro failure failed
    rcases Predicate.eq_of_offers_testArray offered with
      ⟨family, rfl⟩ | ⟨low, high, interval, rfl⟩
    · rw [Predicate.testWhole_number, returns_eq_error_iff] at failed
      simp only [Predicate.test]
      exact NumberClass.exists_of_testArray_eq_error failed
    · rw [Predicate.testWhole_range, returns_eq_error_iff] at failed
      simp only [Predicate.test]
      exact Interval.exists_of_testArray_eq_error failed
  · intro dimensions shape
    rw [Predicate.test_ofArray_eq_ok_iff, same]
    simp

/-- Zero is a natural number whatever its sign, and what is not a number is none. -/
theorem whole_arrays_agree_with_items_natural :
    Text.ofString "TestArray" ∈ (predicateMethods (.number .natural0)).map (·.1) ∧
      (Predicate.number .natural0).testWhole ⟨Sample.host, []⟩ [2.0, -0.0] = .ok [] ∧
      (Predicate.number .natural0).testWhole ⟨Sample.host, []⟩ [2.0, Number.notANumber] ≠
        .ok [] := by
  have offered : Text.ofString "TestArray" ∈ (predicateMethods (.number .natural0)).map (·.1) := by
    decide
  have zero := whole_arrays_agree_with_items ⟨Sample.host, []⟩ _ [2.0, -0.0] offered
  have other := whole_arrays_agree_with_items ⟨Sample.host, []⟩ _ [2.0, Number.notANumber] offered
  refine ⟨offered, zero.1.mpr ?_, ?_⟩
  · intro number member
    rcases List.mem_pair.mp member with rfl | rfl
    · exact isOk_iff.mp (by decide +kernel)
    · exact isOk_iff.mp (by decide +kernel)
  · intro accepted
    have passed := other.1.mp accepted Number.notANumber (List.mem_pair.mpr (.inr rfl))
    exact absurd (isOk_iff.mpr passed) (by decide +kernel)

end Covenant
