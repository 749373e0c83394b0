import Covenant.Value

/-!
# Cartesian products

The tuples of a product are visited by counting. The last position is advanced first, and one that
leaves its factor starts again and carries to the position before it. When the carry leaves the
first position, all tuples were visited.
-/

set_option autoImplicit false

namespace Covenant.Testing

/-- All positions in factors of the given sizes, the last one varying fastest. -/
def places : List Nat → List (List Nat)
  | [] => [[]]
  | size :: sizes => (List.range size).flatMap fun place => (places sizes).map (place :: ·)

def advance : List Nat → List Nat → Option (List Nat)
  | size :: sizes, place :: index =>
    match advance sizes index with
    | some next => some (place :: next)
    | none => if place + 1 < size then some ((place + 1) :: sizes.map fun _ => 0) else none
  | _, _ => none

/-- The positions from the given ones on. -/
def placesFrom : List Nat → List Nat → List (List Nat)
  | size :: sizes, place :: index =>
    (placesFrom sizes index).map (place :: ·) ++
      (List.range' (place + 1) (size - (place + 1))).flatMap fun later =>
        (places sizes).map (later :: ·)
  | _, index => [index]

variable {sizes : List Nat}

theorem placesFrom_start (filled : 0 ∉ sizes) :
    placesFrom sizes (sizes.map fun _ => 0) = places sizes := by
  induction sizes with
  | nil => rfl
  | cons size sizes ih =>
    rw [List.mem_cons, not_or] at filled
    obtain ⟨size, rfl⟩ := Nat.exists_eq_succ_of_ne_zero (Ne.symm filled.1)
    rw [List.map_cons, placesFrom, ih filled.2, places, List.range_eq_range', List.range'_succ]
    rfl

theorem placesFrom_eq (filled : 0 ∉ sizes) (index : List Nat) :
    placesFrom sizes index = index :: (advance sizes index).elim [] (placesFrom sizes) := by
  induction sizes generalizing index with
  | nil => rfl
  | cons size sizes ih =>
    rw [List.mem_cons, not_or] at filled
    cases index with
    | nil => rfl
    | cons place index =>
      rw [placesFrom, ih filled.2, advance]
      cases advance sizes index with
      | some next => rfl
      | none =>
        dsimp only
        split
        · next within =>
          have more : size - (place + 1) = size - (place + 1 + 1) + 1 := by omega
          rw [more, List.range'_succ, List.flatMap_cons, Option.elim_some, placesFrom,
            placesFrom_start filled.2]
          rfl
        · next last =>
          rw [Nat.sub_eq_zero_of_le (Nat.le_of_not_lt last)]
          rfl

def productSize : List Nat → Nat
  | [] => 1
  | size :: sizes => size * productSize sizes

theorem zero_not_mem_of_productSize (filled : productSize sizes ≠ 0) : 0 ∉ sizes := by
  induction sizes with
  | nil => exact List.not_mem_nil
  | cons size sizes ih =>
    obtain ⟨own, others⟩ := Nat.mul_ne_zero_iff.mp filled
    exact List.not_mem_cons_of_ne_of_not_mem (Ne.symm own) (ih others)

section

variable {σ ε : Type}

/-- Visits positions, up to the last ones or to the first that fail. -/
def visitFrom (visit : List Nat → σ → Option ε × σ) (filled : 0 ∉ sizes) (index : List Nat)
    (state : σ) : Option ε × σ :=
  match visit index state with
  | (some failure, state) => (some failure, state)
  | (none, state) =>
    match _more : advance sizes index with
    | some next => visitFrom visit filled next state
    | none => (none, state)
termination_by (placesFrom sizes index).length
decreasing_by
  rw [placesFrom_eq filled index, _more]
  exact Nat.lt_succ_self _

def tupleAt (values : List (List Value)) (index : List Nat) : List Value :=
  values.zipWith (fun factor place => factor.getD place .nil) index

/-- Calls back with every tuple of a product, up to the first call that fails. Sizes are not
bounded here. -/
def product (values : List (List Value)) (callback : List Value → σ → Option ε × σ) (state : σ) :
    Option ε × σ :=
  if empty : productSize (values.map List.length) = 0 then (none, state)
  else
    visitFrom (fun index => callback (tupleAt values index)) (zero_not_mem_of_productSize empty)
      (values.map fun _ => 0) state

end

end Covenant.Testing
