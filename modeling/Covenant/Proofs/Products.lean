import Covenant.Testing.Product
import Mathlib.Algebra.BigOperators.Group.List.Basic

/-!
# Every tuple of a product

Advancing positions runs through all of them in lexicographic order. So calling back along a product
is calling back along the list of its tuples.
-/

set_option autoImplicit false

namespace Covenant.Testing

open List

variable {sizes index : List Nat} {values : List (List Value)} {σ ε : Type}

/-!
## Positions
-/

theorem mem_places_iff {sizes index : List Nat} :
    index ∈ places sizes ↔ List.Forall₂ (· < ·) index sizes := by
  induction sizes generalizing index with
  | nil => simp [places]
  | cons size sizes ih =>
    rw [places, mem_flatMap]
    constructor
    · rintro ⟨place, within, member⟩
      obtain ⟨rest, inside, same⟩ := mem_map.mp member
      rw [← same]
      exact .cons (mem_range.mp within) (ih.mp inside)
    · intro inRange
      cases inRange with
      | cons within inside =>
        exact ⟨_, mem_range.mpr within, mem_map_of_mem (ih.mpr inside)⟩

/-- Positions are listed in lexicographic order, the last one varying fastest. -/
theorem places_increasing (sizes : List Nat) : (places sizes).Pairwise (· < ·) := by
  induction sizes with
  | nil => exact pairwise_singleton _ _
  | cons size sizes ih =>
    rw [places, pairwise_flatMap]
    -- Under one first position the others decide, otherwise the first position does.
    constructor
    · intro place _
      rw [pairwise_map]
      exact ih.imp fun less => cons_lt_cons_iff.mpr (.inr ⟨rfl, less⟩)
    · refine pairwise_lt_range.imp fun less => ?_
      intro lower lowerMember upper upperMember
      obtain ⟨_, _, rfl⟩ := mem_map.mp lowerMember
      obtain ⟨_, _, rfl⟩ := mem_map.mp upperMember
      exact cons_lt_cons_iff.mpr (.inl less)

example : places [2, 3] = [[0, 0], [0, 1], [0, 2], [1, 0], [1, 1], [1, 2]] := by decide

theorem length_places (sizes : List Nat) : (places sizes).length = sizes.prod := by
  induction sizes with
  | nil => rfl
  | cons size sizes ih => simp [places, length_flatMap, ih]

theorem productSize_eq_prod (sizes : List Nat) : productSize sizes = sizes.prod := by
  induction sizes with
  | nil => rfl
  | cons size sizes ih => rw [productSize, ih, prod_cons]

/-!
## The loop
-/

/-- Calls back with one item after the other, up to the first call that fails. -/
def untilFailure {α : Type} (callback : α → σ → Option ε × σ) : List α → σ → Option ε × σ
  | [], state => (none, state)
  | item :: items, state =>
    match callback item state with
    | (some failure, state) => (some failure, state)
    | (none, state) => untilFailure callback items state

theorem untilFailure_map {α β : Type} (callback : β → σ → Option ε × σ) (change : α → β)
    (items : List α) (state : σ) :
    untilFailure callback (items.map change) state =
      untilFailure (fun item => callback (change item)) items state := by
  induction items generalizing state with
  | nil => rfl
  | cons item items ih =>
    rw [map_cons, untilFailure, untilFailure]
    split
    · rfl
    · exact ih _

theorem visitFrom_eq (visit : List Nat → σ → Option ε × σ) (filled : 0 ∉ sizes)
    (index : List Nat) (state : σ) :
    visitFrom visit filled index state = untilFailure visit (placesFrom sizes index) state := by
  fun_induction visitFrom visit filled index state with
  | case1 index state failure after failed =>
    rw [placesFrom_eq filled, untilFailure, failed]
  | case2 index state after passed next more ih =>
    rw [placesFrom_eq filled, untilFailure, passed, more]
    exact ih
  | case3 index state after passed done =>
    rw [placesFrom_eq filled, untilFailure, passed, done]
    rfl

theorem product_eq (values : List (List Value)) (callback : List Value → σ → Option ε × σ)
    (state : σ) : product values callback state =
      untilFailure callback ((places (values.map List.length)).map (tupleAt values)) state := by
  rw [untilFailure_map]
  unfold product
  split
  · next empty =>
    have none : places (values.map List.length) = [] := by
      rw [← length_eq_zero_iff, length_places, ← productSize_eq_prod, empty]
    rw [none]
    rfl
  · next full =>
    rw [visitFrom_eq, ← placesFrom_start (zero_not_mem_of_productSize full), map_map]
    rfl

/-- No position of a tuple is outside of its factor. -/
theorem tupleAt_of_mem (inside : List.Forall₂ (· < ·) index (values.map List.length)) :
    (tupleAt values index).map some =
      values.zipWith (fun factor place => factor[place]?) index := by
  induction values generalizing index with
  | nil => rfl
  | cons factor values ih =>
    cases inside with
    | cons within others =>
      rw [tupleAt, zipWith_cons_cons, map_cons, zipWith_cons_cons, ← ih others]
      simp [tupleAt, List.getElem?_eq_getElem within]

/-- Every callback is called along a product as along the list of its tuples: each position once, in
lexicographic order with the last one fastest, up to the first call that fails. There is one tuple
without factors, and none where a factor is empty. -/
theorem product_visits_tuples_in_order (values : List (List Value))
    (callback : List Value → σ → Option ε × σ) (state : σ) :
    let sizes := values.map List.length
    let positions := places sizes
    product values callback state =
        untilFailure callback (positions.map (tupleAt values)) state ∧
      positions.Pairwise (· < ·) ∧
      (∀ index, index ∈ positions ↔ List.Forall₂ (· < ·) index sizes) ∧
      (∀ index ∈ positions, (tupleAt values index).map some =
        values.zipWith (fun factor place => factor[place]?) index) ∧
      positions.length = sizes.prod ∧
      (values = [] → positions.map (tupleAt values) = [[]]) ∧
      ([] ∈ values → positions = []) := by
  intro sizes positions
  refine ⟨product_eq values callback state, places_increasing _, fun _ => mem_places_iff,
    fun index member => tupleAt_of_mem (mem_places_iff.mp member), length_places _, ?_, ?_⟩
  · rintro rfl
    rfl
  · intro empty
    rw [← length_eq_zero_iff, length_places, ← productSize_eq_prod]
    by_contra full
    exact zero_not_mem_of_productSize full (mem_map.mpr ⟨[], empty, rfl⟩)

end Covenant.Testing
