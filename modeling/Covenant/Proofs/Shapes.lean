import Covenant.Proofs.Acceptance
import Covenant.Proofs.WholeArithmetic

/-!
# Shapes and the data that fill them

The extents of an array are multiplied within 64 bits. Whatever is cut on the way, the result is the
product cut to 64 bits; so an accepted array has as many items as its shape says exactly when the
product of its extents can be represented.
-/

set_option autoImplicit false

namespace Covenant

open Condition (fits wrap)

theorem shapeProduct_eq_wrap (shape : List Int) : shapeProduct shape = wrap shape.prod := by
  induction shape using List.reverseRecOn with
  | nil => rfl
  | append_singleton shape extent ih =>
    have cut : shapeProduct (shape ++ [extent]) = wrap (shapeProduct shape * extent) := by
      rw [shapeProduct, List.foldl_append]
      rfl
    rw [cut, ih, List.prod_append, List.prod_singleton]
    exact Condition.wrap_congr ((Condition.wrap_modEq shape.prod).mul_right extent)

theorem shapeFits_iff {shape : List Int} {count : Nat} :
    shapeFits shape count = true ↔ (∀ extent ∈ shape, 0 ≤ extent) ∧ wrap shape.prod = count := by
  simp [shapeFits, shapeProduct_eq_wrap]

/-- An array is accepted when no extent is negative, the product of the extents cut to 64 bits is
the number of items, and the dimensions and the items are as asked for. Then the product is the
number of items exactly when it can be represented. -/
theorem array_consistent_iff_product_fits (world : World) (dimensions : Nat)
    (element : Option Predicate) {value shape data : Value}
    (array : arrayOf? value = some (shape, data)) :
    ((Predicate.array dimensions element).test world value = .ok () ↔
      (∀ extent ∈ shape.ints, 0 ≤ extent) ∧ wrap shape.ints.prod = data.floats.length ∧
        (dimensions = 0 ∨ shape.ints.length = dimensions) ∧
        ∀ inner ∈ element, ∀ number ∈ data.floats, inner.test world (.ofFloat number) = .ok ()) ∧
    ((Predicate.array dimensions element).test world value = .ok () →
      (shape.ints.prod = data.floats.length ↔ fits shape.ints.prod = true)) := by
  have accepts := @Predicate.test_array_eq_ok_iff world dimensions element value
  simp only [array, Option.some.injEq, Prod.mk.injEq, ↓existsAndEq, true_and, shapeFits_iff,
    and_assoc] at accepts
  refine ⟨accepts, fun accepted => ?_⟩
  obtain ⟨_, counted, _⟩ := accepts.mp accepted
  constructor
  · intro same
    rw [same, ← counted]
    exact Condition.fits_wrap _
  · intro inside
    rw [← counted, Condition.wrap_of_fits inside]

/-- Two rows of two numbers. -/
theorem array_consistent_iff_product_fits_square :
    (Predicate.array 2 none).test ⟨Sample.host, []⟩ (.ofArray [2, 2] [1.0, 2.0, 3.0, 4.0]) =
        .ok () ∧
      ([2, 2] : List Int).prod = ([1.0, 2.0, 3.0, 4.0] : List Float).length := by
  have array : arrayOf? (.ofArray [2, 2] [1.0, 2.0, 3.0, 4.0]) =
      some (.list (.slice .wordInt) 0 ([2, 2].map .ofWord),
        .list (.slice .double) 0 ([1.0, 2.0, 3.0, 4.0].map .ofFloat)) := rfl
  obtain ⟨accepts, consistent⟩ :=
    array_consistent_iff_product_fits ⟨Sample.host, []⟩ 2 none array
  rw [Value.ints_words, Value.floats_doubles] at accepts consistent
  have accepted := accepts.mpr ⟨by decide, rfl, .inr rfl, fun _ member => by cases member⟩
  exact ⟨accepted, (consistent accepted).mpr rfl⟩

/-- `2 ^ 32` rows of `2 ^ 32` numbers each are accepted without any number. -/
theorem empty_array_accepted_as_square :
    (Predicate.array 2 none).test ⟨Sample.host, []⟩ (.ofArray [0x100000000, 0x100000000] []) =
        .ok () ∧
      ([0x100000000, 0x100000000] : List Int).prod ≠ ([] : List Float).length :=
  ⟨Predicate.test_ofArray_eq_ok_iff.mpr ⟨by decide, .inr rfl, fun _ member => by cases member⟩,
    by decide⟩

end Covenant
