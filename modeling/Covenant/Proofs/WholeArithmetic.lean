import Covenant.Condition.Operators
import Covenant.Proofs.Integers
import Mathlib

/-!
# Products, powers and quotients of 64-bit integers

A product within 64 bits is recognised as exact by dividing it by a factor, so a power is either
exact or left to the doubles. Quotients and rests are made from the division toward zero by two
separate corrections; they belong together all the same, and the quotient is the floor wherever it
can be represented.
-/

set_option autoImplicit false

namespace Covenant.Condition

variable {left right number base : Int}

/-!
## Words
-/

theorem fits_iff :
    fits number = true ↔ -0x8000000000000000 ≤ number ∧ number < 0x8000000000000000 :=
  IntKind.holds_iff_of_signed rfl

theorem wrap_of_fits (inside : fits number = true) : wrap number = number :=
  IntKind.wrap_of_holds inside

theorem fits_wrap (number : Int) : fits (wrap number) = true := by
  have lower : -0x8000000000000000 ≤ wrap number := Int.le_bmod (by decide)
  have upper : wrap number < 0x8000000000000000 := Int.bmod_lt (by decide)
  exact fits_iff.mpr ⟨lower, upper⟩

theorem wrap_modEq (number : Int) : wrap number ≡ number [ZMOD 0x10000000000000000] :=
  Int.bmod_emod

theorem wrap_congr (same : left ≡ right [ZMOD 0x10000000000000000]) : wrap left = wrap right := by
  have leftPart : (left % 0x10000000000000000).bmod 0x10000000000000000 = wrap left :=
    Int.emod_bmod left _
  have rightPart : (right % 0x10000000000000000).bmod 0x10000000000000000 = wrap right :=
    Int.emod_bmod right _
  rw [← leftPart, ← rightPart, same]

/-!
## Division toward zero
-/

/-- The one quotient of 64-bit integers that is none. -/
def Overflows (left right : Int) : Prop := left = IntKind.int64.least ∧ right = -1

theorem least_eq : IntKind.int64.least = -0x8000000000000000 := rfl

theorem fits_tdiv (leftFits : fits left = true) (representable : ¬ Overflows left right) :
    fits (left.tdiv right) = true := by
  rw [Overflows, least_eq] at representable
  rw [fits_iff] at leftFits ⊢
  have size : (left.tdiv right).natAbs = left.natAbs / right.natAbs := Int.natAbs_tdiv left right
  by_cases large : 2 ≤ right.natAbs
  · have halved : left.natAbs / right.natAbs ≤ left.natAbs / 2 :=
      Nat.div_le_div_left large (by decide)
    omega
  · have small : right = 0 ∨ right = 1 ∨ right = -1 := by omega
    rcases small with rfl | rfl | rfl
    · simp
    · rwa [Int.tdiv_one]
    · rw [Int.tdiv_neg, Int.tdiv_one]
      omega

theorem truncate_eq (leftFits : fits left = true) (representable : ¬ Overflows left right) :
    truncate left right = left.tdiv right :=
  wrap_of_fits (fits_tdiv leftFits representable)

theorem truncate_of_overflows (overflows : Overflows left right) :
    truncate left right = left := by
  obtain ⟨rfl, rfl⟩ := overflows
  decide

/-!
## Products
-/

/-- A word that divides back to a factor is within a factor of the product, and no other word that
agrees with the product is. -/
theorem eq_mul_of_truncate_eq {word : Int} (rightFits : fits right = true) (nonzero : right ≠ 0)
    (wordFits : fits word = true) (same : word ≡ left * right [ZMOD 0x10000000000000000])
    (representable : ¬ Overflows word right) (back : truncate word right = left) :
    word = left * right := by
  rw [truncate_eq wordFits representable] at back
  have parts : right * word.tdiv right + word.tmod right = word := Int.mul_tdiv_add_tmod word right
  have rest : (word.tmod right).natAbs < right.natAbs := by
    rw [Int.natAbs_tmod]
    exact Nat.mod_lt _ (by omega)
  have apart := (Int.modEq_iff_dvd.mp same.symm)
  rw [back, mul_comm] at parts
  rw [fits_iff] at rightFits
  omega

theorem multiply?_eq (leftFits : fits left = true) (rightFits : fits right = true) :
    multiply? left right = Option.guard fits (left * right) := by
  unfold multiply?
  extract_lets least product
  split
  · next zero =>
    have none : left * right = 0 := by
      rcases (by simpa using zero : left = 0 ∨ right = 0) with rfl | rfl <;> simp
    rw [none]
    rfl
  · next nonzero =>
    have factors : left ≠ 0 ∧ right ≠ 0 := by simpa using nonzero
    split
    · next corner =>
      have power : left * right = 0x8000000000000000 := by
        rcases (by simpa using corner : (left = -1 ∧ right = least) ∨ (right = -1 ∧ left = least))
          with ⟨rfl, rfl⟩ | ⟨rfl, rfl⟩ <;> rfl
      rw [power]
      rfl
    · next ordinary =>
      have notCorner : ¬ Overflows left right := by
        intro overflows
        simp [overflows.1, overflows.2, least] at ordinary
      have same : product ≡ left * right [ZMOD 0x10000000000000000] := wrap_modEq _
      by_cases inside : fits (left * right) = true
      · have exact : product = left * right := wrap_of_fits inside
        have back : truncate product right = left := by
          rw [exact, truncate, Int.mul_tdiv_cancel left factors.2, wrap_of_fits leftFits]
        rw [if_pos back, exact, Option.guard, if_pos inside]
      · rw [Option.guard, if_neg inside, if_neg]
        intro back
        by_cases overflows : Overflows product right
        · -- the product is the least integer, which it can be only for the least integer and -1
          rw [truncate_of_overflows overflows] at back
          exact notCorner ⟨back.symm.trans overflows.1, overflows.2⟩
        · have exact := eq_mul_of_truncate_eq rightFits factors.2 (fits_wrap _) same overflows back
          exact inside (exact ▸ fits_wrap _)

/-!
## Powers
-/

/-- What does not fit does not come back into range by a positive factor. -/
theorem unfit_mul {factor : Int} (outside : fits number = false) (positive : 0 < factor) :
    fits (number * factor) = false := by
  rw [← Bool.not_eq_true, fits_iff] at outside ⊢
  intro inside
  by_cases negative : number < 0
  · have least : number * factor ≤ number * 1 :=
      Int.mul_le_mul_of_nonpos_left (by omega) (by omega)
    omega
  · have most : number * 1 ≤ number * factor :=
      Int.mul_le_mul_of_nonneg_left (by omega) (by omega)
    omega

/-- No square is the power of two past the greatest integer, so where a square does not fit, neither
does its negative. -/
theorem unfit_mul_square {factor : Int} (outside : fits (base * base) = false)
    (nonzero : factor ≠ 0) : fits (factor * (base * base)) = false := by
  have large : 0x8000000000000000 < base * base := by
    rw [← Bool.not_eq_true, fits_iff] at outside
    have square : base * base = (base.natAbs * base.natAbs : Nat) := Int.natAbs_mul_self.symm
    rw [square] at outside ⊢
    by_cases small : base.natAbs ≤ 3037000499
    · have most := Nat.mul_le_mul small small
      omega
    · have least := Nat.mul_le_mul (Nat.lt_of_not_le small) (Nat.lt_of_not_le small)
      omega
  rw [← Bool.not_eq_true, fits_iff]
  intro inside
  by_cases negative : factor < 0
  · have least : factor * (base * base) ≤ -1 * (base * base) :=
      Int.mul_le_mul_of_nonneg_right (by omega) (by omega)
    omega
  · have most : 1 * (base * base) ≤ factor * (base * base) :=
      Int.mul_le_mul_of_nonneg_right (by omega) (by omega)
    omega

theorem pow_halved (base : Int) (exponent : Nat) :
    base ^ exponent = base ^ (exponent % 2) * (base * base) ^ (exponent / 2) := by
  rw [← pow_two, ← pow_mul, ← pow_add, Nat.mod_add_div]

theorem guard_of_fits (inside : fits number = true) :
    Option.guard fits number = some number := if_pos inside

theorem guard_of_unfit (outside : fits number = false) :
    Option.guard fits number = none := if_neg (by simp [outside])

/-- Squaring runs one step ahead of its use. A square that does not fit is a factor of a power that
does not fit, since the total is zero for the base zero only. -/
theorem powerFrom?_eq {total : Int} (exponent : Nat) (baseFits : fits base = true)
    (totalFits : fits total = true) (sound : total = 0 → base = 0) :
    powerFrom? base exponent total = Option.guard fits (total * base ^ exponent) := by
  induction exponent using Nat.strong_induction_on generalizing base total with
  | _ exponent ih =>
  rw [powerFrom?]
  by_cases ended : exponent = 0
  · rw [if_pos ended, ended, pow_zero, mul_one, guard_of_fits totalFits]
  rw [if_neg ended, pow_halved base exponent, ← mul_assoc, multiply?_eq baseFits baseFits]
  have taken : (if exponent % 2 = 1 then multiply? total base else some total) =
      Option.guard fits (total * base ^ (exponent % 2)) := by
    rcases Nat.mod_two_eq_zero_or_one exponent with even | odd
    · rw [even, if_neg (by decide), pow_zero, mul_one, guard_of_fits totalFits]
    · rw [odd, if_pos rfl, pow_one, multiply?_eq totalFits baseFits]
  rw [taken]
  have zeroes : total * base ^ (exponent % 2) = 0 → base = 0 := by
    intro zero
    rcases mul_eq_zero.mp zero with zero | zero
    · exact sound zero
    · exact eq_zero_of_pow_eq_zero zero
  have regular : base = 0 → fits (total * base ^ (exponent % 2)) = true := by
    rintro rfl
    rcases Nat.mod_two_eq_zero_or_one exponent with even | odd
    · rwa [even, pow_zero, mul_one]
    · rw [odd, pow_one, mul_zero]
      rfl
  generalize total * base ^ (exponent % 2) = next at zeroes regular ⊢
  cases nextFits : fits next with
  | false =>
    have positive : 0 < base * base :=
      mul_self_pos.mpr fun zero => by simp [regular zero] at nextFits
    rw [guard_of_unfit nextFits, guard_of_unfit (unfit_mul nextFits (pow_pos positive _))]
    rfl
  | true =>
    rw [guard_of_fits nextFits]
    by_cases last : exponent / 2 = 0
    · rw [last, pow_zero, mul_one, guard_of_fits nextFits]
      rfl
    · cases squareFits : fits (base * base) with
      | true =>
        rw [guard_of_fits squareFits]
        simp only [Option.bind_eq_bind, Option.bind_some, if_neg last]
        exact ih _ (by omega) squareFits nextFits fun zero => by simp [zeroes zero]
      | false =>
        have nonzero : base ≠ 0 := by
          rintro rfl
          cases squareFits
        have factor : next * (base * base) ^ (exponent / 2 - 1) ≠ 0 :=
          mul_ne_zero (mt zeroes nonzero) (pow_ne_zero _ (mul_ne_zero nonzero nonzero))
        rw [guard_of_unfit squareFits, ← Nat.sub_add_cancel (Nat.pos_of_ne_zero last), pow_succ,
          ← mul_assoc, guard_of_unfit (unfit_mul_square squareFits factor)]
        simp

theorem power?_eq (exponent : Nat) (baseFits : fits base = true) :
    power? base exponent = Option.guard fits (base ^ exponent) := by
  rw [power?, powerFrom?_eq exponent baseFits rfl (absurd · one_ne_zero), one_mul]

/-- Products and powers of 64-bit integers are exact where they can be represented and reported
where they cannot, whatever the squares on the way. So `**` gives the exact integer or else a
double. -/
theorem powers_exact_or_reported :
    (∀ left right, fits left = true → fits right = true →
      multiply? left right = if fits (left * right) then some (left * right) else none) ∧
    (∀ base exponent, fits base = true →
      power? base exponent = if fits (base ^ exponent) then some (base ^ exponent) else none) ∧
    ∀ (base : Int) (exponent : Nat), fits base = true →
      arithmetic .power (.int base) (.int exponent) =
        if fits (base ^ exponent) then .ok (.ofInt (base ^ exponent))
        else .ofFloat <$> realArithmetic .power (Number.ofInt base) (Number.ofInt exponent) := by
  refine ⟨fun left right => multiply?_eq, fun base => power?_eq, ?_⟩
  intro base exponent baseFits
  have whole : wholeArithmetic? .power base exponent =
      (Option.guard fits (base ^ exponent)).map .ok := by
    rw [← power?_eq exponent baseFits]
    rfl
  rw [arithmetic, whole]
  cases inside : fits (base ^ exponent) with
  | true =>
    rw [guard_of_fits inside]
    rfl
  | false =>
    rw [guard_of_unfit inside]
    rfl

/-- The square of `-2 ^ 32` does not fit, and neither does any power of it from there on; the least
integer is a power of -2, and -1 times it is the next one. -/
theorem powers_exact_or_reported_near_least :
    power? (-2) 63 = some (-0x8000000000000000) ∧ power? (-0x100000000) 2 = none ∧
      multiply? (-1) (-0x8000000000000000) = none := by
  obtain ⟨products, powers, _⟩ := powers_exact_or_reported
  refine ⟨(powers (-2) 63 rfl).trans ?_, (powers (-0x100000000) 2 rfl).trans ?_,
    (products (-1) (-0x8000000000000000) rfl rfl).trans ?_⟩
  · decide
  · decide
  · decide

/-!
## Floors
-/

/-- A quotient and a rest that belong together: the rest lies between zero and the divisor. -/
structure Floored (left right quotient rest : Int) : Prop where
  whole : quotient * right + rest = left
  between : (0 ≤ rest ∧ rest < right) ∨ (right < rest ∧ rest ≤ 0)

theorem Floored.eq_floor {quotient rest : Int} (floored : Floored left right quotient rest) :
    quotient = ⌊(left : ℚ) / right⌋ := by
  obtain ⟨rfl, between⟩ := floored
  have nonzero : (right : ℚ) ≠ 0 := Int.cast_ne_zero.mpr (by omega)
  symm
  rw [Int.floor_eq_iff]
  push_cast
  rw [add_div, mul_div_cancel_right₀ _ nonzero, le_add_iff_nonneg_right, add_lt_add_iff_left]
  rcases between with ⟨least, most⟩ | ⟨least, most⟩
  · have positive : (0 : ℚ) < right := Int.cast_pos.mpr (by omega)
    exact ⟨div_nonneg (Int.cast_nonneg least) positive.le,
      (div_lt_one positive).mpr (Int.cast_lt.mpr most)⟩
  · have negative : (right : ℚ) < 0 := Int.cast_lt_zero.mpr (by omega)
    exact ⟨div_nonneg_of_nonpos (Int.cast_nonpos.mpr most) negative.le,
      (div_lt_one_of_neg negative).mpr (Int.cast_lt.mpr least)⟩

theorem Floored.sign_eq {quotient rest : Int} (floored : Floored left right quotient rest)
    (nonzero : rest ≠ 0) : rest.sign = right.sign := by
  rcases floored.between with ⟨least, most⟩ | ⟨least, most⟩
  · rw [Int.sign_eq_one_of_pos (by omega), Int.sign_eq_one_of_pos (by omega)]
  · rw [Int.sign_eq_neg_one_of_neg (by omega), Int.sign_eq_neg_one_of_neg (by omega)]

theorem tmod_neg_iff (divides : left.tmod right ≠ 0) : left.tmod right < 0 ↔ left < 0 := by
  constructor
  · intro negative
    by_contra positive
    exact absurd (Int.tmod_nonneg right (Int.not_lt.mp positive)) (Int.not_le.mpr negative)
  · intro negative
    have opposite : 0 ≤ (-left).tmod right := Int.tmod_nonneg right (by omega)
    rw [Int.neg_tmod] at opposite
    omega

/-- The two corrections are made in the same cases, since a rest has the sign of the dividend. -/
theorem floored (leftFits : fits left = true) (rightFits : fits right = true) (nonzero : right ≠ 0)
    (representable : ¬ Overflows left right) :
    Floored left right (floorQuotient left right) (floorRest left right) := by
  have parts : right * left.tdiv right + left.tmod right = left :=
    Int.mul_tdiv_add_tmod left right
  have small : (left.tmod right).natAbs < right.natAbs := by
    rw [Int.natAbs_tmod]
    exact Nat.mod_lt _ (by omega)
  unfold floorQuotient floorRest
  rw [truncate_eq leftFits representable]
  by_cases exact : left.tmod right = 0
  · simp only [exact, bne_self_eq_false, Bool.false_and, Bool.false_eq_true, if_false]
    exact ⟨by rw [mul_comm, ← exact, parts], by omega⟩
  · have signs : decide (left < 0) = decide (left.tmod right < 0) :=
      decide_eq_decide.mpr (tmod_neg_iff exact).symm
    rw [signs]
    by_cases agree : left.tmod right < 0 ↔ right < 0
    · simp only [decide_eq_decide.mpr agree, bne_self_eq_false, Bool.and_false, Bool.false_eq_true,
        if_false]
      exact ⟨by rw [mul_comm, parts], by omega⟩
    · have differ : (decide (left.tmod right < 0) != decide (right < 0)) = true :=
        bne_iff_ne.mpr (mt decide_eq_decide.mp agree)
      have large : 2 ≤ right.natAbs := by omega
      have size : (left.tdiv right).natAbs ≤ left.natAbs / 2 := by
        rw [Int.natAbs_tdiv]
        exact Nat.div_le_div_left large (by decide)
      rw [fits_iff] at leftFits rightFits
      simp only [bne_iff_ne.mpr exact, differ, Bool.and_self, if_true]
      rw [wrap_of_fits (fits_iff.mpr (by omega)), wrap_of_fits (fits_iff.mpr (by omega))]
      refine ⟨?_, by omega⟩
      rw [sub_mul, one_mul, mul_comm]
      omega

theorem fits_floorQuotient : fits (floorQuotient left right) = true := by
  unfold floorQuotient
  extract_lets quotient
  split <;> exact fits_wrap _

/-- Floor division and modulo of 64-bit integers form a pair for every divisor but zero: the rest
lies between zero and the divisor, quotient and rest give the dividend back, and the quotient is the
floor of the fraction except where this cannot be represented. -/
theorem floor_division_consistent (leftFits : fits left = true) (rightFits : fits right = true) :
    (right = 0 → ∀ op ∈ [BinaryOp.floorDivide, BinaryOp.modulo],
      arithmetic op (.int left) (.int right) =
        fail .zeroDivision "integer division or modulo by zero") ∧
    (right ≠ 0 → ∃ quotient rest, fits quotient = true ∧ fits rest = true ∧
      arithmetic .floorDivide (.int left) (.int right) = .ok (.ofInt quotient) ∧
      arithmetic .modulo (.int left) (.int right) = .ok (.ofInt rest) ∧
      quotient * right + rest ≡ left [ZMOD 0x10000000000000000] ∧
      (rest = 0 ∨ rest.sign = right.sign) ∧ rest.natAbs < right.natAbs ∧
      (quotient = ⌊(left : ℚ) / right⌋ ↔
        ¬ (left = -0x8000000000000000 ∧ right = -1))) := by
  constructor
  · rintro rfl op member
    simp only [List.mem_cons, List.not_mem_nil, or_false] at member
    rcases member with rfl | rfl <;> rfl
  · intro nonzero
    refine ⟨floorQuotient left right, floorRest left right, fits_floorQuotient, ?_⟩
    have divided : wholeArithmetic? .floorDivide left right =
        some (.ok (floorQuotient left right)) := congrArg some (if_neg nonzero)
    have rested : wholeArithmetic? .modulo left right = some (.ok (floorRest left right)) :=
      congrArg some (if_neg nonzero)
    rw [arithmetic, arithmetic, divided, rested]
    by_cases overflows : Overflows left right
    · obtain ⟨rfl, rfl⟩ := overflows
      refine ⟨by decide, rfl, rfl, by decide, .inl (by decide), by decide, ?_⟩
      refine iff_of_false ?_ (not_not_intro ⟨rfl, rfl⟩)
      rw [least_eq]
      norm_num
      decide
    · have floored := floored leftFits rightFits nonzero overflows
      obtain ⟨whole, between⟩ := id floored
      rw [fits_iff] at rightFits
      refine ⟨fits_iff.mpr (by omega), rfl, rfl, ?_, ?_, by omega, ?_⟩
      · rw [whole]
      · exact or_iff_not_imp_left.mpr floored.sign_eq
      · exact iff_of_true floored.eq_floor overflows

/-- Seven by minus two is rounded down to minus four, with a rest of minus one. -/
theorem floor_division_consistent_seven :
    fits 7 = true ∧ fits (-2) = true ∧ ∃ quotient rest,
      arithmetic .floorDivide (.int 7) (.int (-2)) = .ok (.ofInt quotient) ∧
      arithmetic .modulo (.int 7) (.int (-2)) = .ok (.ofInt rest) ∧
      quotient = ⌊((7 : Int) : ℚ) / (-2 : Int)⌋ ∧ rest.natAbs < 2 := by
  obtain ⟨quotient, rest, _, _, divided, rested, _, _, small, floor⟩ :=
    (@floor_division_consistent 7 (-2) rfl rfl).2 (by decide)
  exact ⟨rfl, rfl, quotient, rest, divided, rested, floor.mpr (by decide), small⟩

end Covenant.Condition
