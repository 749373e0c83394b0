import Covenant.Number.Binary
import Mathlib

/-!
# Integers as doubles

The double nearest to an integer keeps its 53 leading binary digits, rounded to even at a half. Two
integers become equal doubles exactly when these digits, put back in their place, are the same
integer.
-/

set_option autoImplicit false

namespace Covenant.Number

open Float.Model (UnpackedFloat Format.binary64)
open Float.Model.UnpackedFloat (Sign packComponents)

/-!
## Doubles by their parts
-/

def signOf : Bool → Sign
  | true => .negative
  | false => .positive

theorem toNat_packComponents (negative : Bool) {biased fraction : Nat}
    (exponentFits : biased < 2048) (fractionFits : fraction < 0x10000000000000) :
    (packComponents Format.binary64 (signOf negative) (BitVec.ofNat 11 biased)
      (BitVec.ofNat 52 fraction)).toNat =
      signBits negative + (biased * 0x10000000000000 + fraction) := by
  have biasedBits : (BitVec.ofNat 11 biased).toNat = biased := by
    rw [BitVec.toNat_ofNat, Nat.mod_eq_of_lt exponentFits]
  have fractionBits : (BitVec.ofNat 52 fraction).toNat = fraction := by
    rw [BitVec.toNat_ofNat, Nat.mod_eq_of_lt fractionFits]
  unfold packComponents
  rw [BitVec.toNat_append, BitVec.toNat_append, ← Nat.shiftLeft_add_eq_or_of_lt (BitVec.isLt _),
    ← Nat.shiftLeft_add_eq_or_of_lt (BitVec.isLt _), biasedBits, fractionBits]
  cases negative with
  | false => simp [signOf, signBits, Sign.toBitVec, Nat.shiftLeft_eq]
  | true =>
    simp [signOf, signBits, Sign.toBitVec, Nat.shiftLeft_eq]
    omega

theorem toNat_implicit (fraction : BitVec 52) :
    (1#1 ++ fraction).toNat = 0x10000000000000 + fraction.toNat := by
  rw [BitVec.toNat_append, ← Nat.shiftLeft_add_eq_or_of_lt fraction.isLt]
  simp [Nat.shiftLeft_eq]

section

variable {biased fraction : Nat} (normal : 0 < biased ∧ biased < 2047)
  (fractionFits : fraction < 0x10000000000000)
include normal fractionFits

theorem unpack_packComponents (negative : Bool) :
    UnpackedFloat.unpack Format.binary64 (packComponents Format.binary64 (signOf negative)
      (BitVec.ofNat 11 biased) (BitVec.ofNat 52 fraction)) =
      .finite (signOf negative) (0x10000000000000 + fraction) ((biased : Int) - 1075)
        (by omega) := by
  have biasedBits : (BitVec.ofNat 11 biased).toNat = biased := by
    rw [BitVec.toNat_ofNat, Nat.mod_eq_of_lt (by omega)]
  have fractionBits : (BitVec.ofNat 52 fraction).toNat = fraction := by
    rw [BitVec.toNat_ofNat, Nat.mod_eq_of_lt (by omega)]
  have notAll : BitVec.ofNat 11 biased ≠ -1#11 := by
    intro same
    have := congrArg BitVec.toNat same
    rw [biasedBits] at this
    simp at this
    omega
  have notNone : BitVec.ofNat 11 biased ≠ 0#11 := by
    intro same
    have := congrArg BitVec.toNat same
    rw [biasedBits] at this
    simp at this
    omega
  have whole : (1#1 ++ BitVec.ofNat 52 fraction).toNat = 0x10000000000000 + fraction := by
    rw [toNat_implicit, fractionBits]
  unfold UnpackedFloat.unpack
  simp only [UnpackedFloat.unpackMantissa_packComponents,
    UnpackedFloat.unpackExponent_packComponents, UnpackedFloat.unpackSign_packComponents,
    Sign.ofBitVec_toBitVec, notAll, if_false, notNone, biasedBits, whole]
  rfl

theorem pack_finite (negative : Bool) (positive : 0 < 0x10000000000000 + fraction) :
    UnpackedFloat.pack Format.binary64 (.finite (signOf negative) (0x10000000000000 + fraction)
      ((biased : Int) - 1075) positive) =
      packComponents Format.binary64 (signOf negative) (BitVec.ofNat 11 biased)
        (BitVec.ofNat 52 fraction) := by
  have digits : (0x10000000000000 + fraction).log2 = 52 := by
    rw [Nat.log2_eq_iff (by omega)]
    omega
  have exponent : (((biased : Int) - 1075) + (Format.binary64.exponentBias : Int) +
      (Format.binary64.mantissaBitsWithoutImplicit : Int)).toNat = biased := by
    change (((biased : Int) - 1075) + 1023 + 52).toNat = biased
    omega
  have mantissa : BitVec.ofNat 52 (0x10000000000000 + fraction) = BitVec.ofNat 52 fraction := by
    apply BitVec.eq_of_toNat_eq
    rw [BitVec.toNat_ofNat, BitVec.toNat_ofNat]
    omega
  unfold UnpackedFloat.pack
  simp only [exponent, digits]
  have implicit : 52 + 1 = Format.binary64.mantissaBits := rfl
  rw [if_neg (by omega), if_pos implicit]
  exact congrArg _ mantissa

end

theorem signBits_le (negative : Bool) : signBits negative ≤ 0x8000000000000000 := by
  cases negative <;> decide

variable {exponent number : Int} {mantissa magnitude left right : Nat} {leftSign rightSign : Bool}

/-- The double of a normal mantissa and an exponent within its range has just these parts. -/
theorem unpack_pack (negative : Bool) (normal : 0x10000000000000 ≤ mantissa)
    (fits : mantissa < 0x20000000000000) (least : -1074 ≤ exponent) (greatest : exponent ≤ 971) :
    (pack negative mantissa exponent).toModel.unpack =
      .finite (signOf negative) mantissa exponent (by omega) := by
  obtain ⟨fraction, rfl⟩ := Nat.exists_eq_add_of_le normal
  obtain ⟨biased, same⟩ : ∃ biased : Nat, exponent = (biased : Int) - 1075 :=
    ⟨(exponent + 1075).toNat, by omega⟩
  subst same
  have fractionFits : fraction < 0x10000000000000 := by omega
  have range : 0 < biased ∧ biased < 2047 := by omega
  have signFits := signBits_le negative
  have bits : (UInt64.ofNat (signBits negative + (biased * 0x10000000000000 + fraction))).toBitVec =
      packComponents Format.binary64 (signOf negative) (BitVec.ofNat 11 biased)
        (BitVec.ofNat 52 fraction) := by
    apply BitVec.eq_of_toNat_eq
    rw [toNat_packComponents negative (by omega) fractionFits, UInt64.toNat_toBitVec,
      UInt64.toNat_ofNat']
    exact Nat.mod_eq_of_lt (by omega)
  have packed : pack negative (0x10000000000000 + fraction) ((biased : Int) - 1075) =
      Float.ofBits (UInt64.ofNat (signBits negative + (biased * 0x10000000000000 + fraction))) := by
    have place : ((biased : Int) - 1075 + 1075).toNat = biased := by omega
    rw [pack, if_neg (by omega), place, Nat.add_sub_cancel_left]
  rw [packed]
  change UnpackedFloat.unpack Format.binary64 (UnpackedFloat.pack Format.binary64
    (UnpackedFloat.unpack Format.binary64 (UInt64.ofNat _).toBitVec)) = _
  rw [bits, unpack_packComponents range fractionFits, pack_finite range fractionFits,
    unpack_packComponents range fractionFits]

/-!
## The digits that are kept
-/

def surplus (magnitude : Nat) : Nat := magnitude.log2 - 52

/-- A magnitude with its leading 53 binary digits, rounded, and zeros after them. -/
def kept (magnitude : Nat) : Nat :=
  shiftRound magnitude (surplus magnitude) * 2 ^ surplus magnitude

/-- The integer that the double nearest to an integer is. -/
def nearest (number : Int) : Int := signed (number < 0) (kept number.natAbs)

theorem shiftRound_zero (number : Nat) : shiftRound number 0 = number := by
  simp [shiftRound, Nat.mod_one]

theorem shiftRound_cases (number places : Nat) :
    (shiftRound number places = number / 2 ^ places ∧ 2 * (number % 2 ^ places) ≤ 2 ^ places) ∨
      (shiftRound number places = number / 2 ^ places + 1 ∧
        2 ^ places ≤ 2 * (number % 2 ^ places)) := by
  simp only [shiftRound, Nat.pow_eq]
  split
  · exact .inl ⟨rfl, by omega⟩
  · split
    · exact .inr ⟨rfl, by omega⟩
    · split
      · next none =>
        subst none
        exact .inl ⟨rfl, by omega⟩
      · rcases Nat.mod_two_eq_zero_or_one (number / 2 ^ places) with even | odd
        · exact .inl ⟨by omega, by omega⟩
        · exact .inr ⟨by omega, by omega⟩

theorem shiftRound_near (number places : Nat) :
    2 * (shiftRound number places * 2 ^ places) ≤ 2 * number + 2 ^ places ∧
      2 * number ≤ 2 * (shiftRound number places * 2 ^ places) + 2 ^ places := by
  have parts : number / 2 ^ places * 2 ^ places + number % 2 ^ places = number :=
    Nat.div_add_mod' number (2 ^ places)
  have less := Nat.mod_lt number (Nat.two_pow_pos places)
  rcases shiftRound_cases number places with ⟨down, within⟩ | ⟨up, within⟩
  · rw [down]
    omega
  · have next : (number / 2 ^ places + 1) * 2 ^ places =
        number / 2 ^ places * 2 ^ places + 2 ^ places := Nat.succ_mul _ _
    rw [up]
    omega

theorem kept_near (magnitude : Nat) :
    2 * kept magnitude ≤ 2 * magnitude + 2 ^ surplus magnitude ∧
      2 * magnitude ≤ 2 * kept magnitude + 2 ^ surplus magnitude :=
  shiftRound_near magnitude (surplus magnitude)

theorem surplus_of_lt (small : magnitude < 2 ^ 53) : surplus magnitude = 0 := by
  by_cases none : magnitude = 0
  · subst none
    rfl
  · have := (Nat.log2_lt none).mpr small
    unfold surplus
    omega

theorem kept_of_le (small : magnitude ≤ 2 ^ 53) : kept magnitude = magnitude := by
  rcases Nat.lt_or_eq_of_le small with below | last
  · rw [kept, surplus_of_lt below, shiftRound_zero, Nat.pow_zero, Nat.mul_one]
  · subst last
    decide

theorem nearest_of_le (small : number.natAbs ≤ 2 ^ 53) : nearest number = number := by
  rw [nearest, kept_of_le small, signed]
  split
  · next negative =>
    have : number < 0 := by simpa using negative
    omega
  · next positive =>
    have : ¬number < 0 := by simpa using positive
    omega

theorem log2_le {bound : Nat} (small : magnitude < 2 ^ (bound + 1)) : magnitude.log2 ≤ bound := by
  by_cases none : magnitude = 0
  · subst none
    exact Nat.zero_le bound
  · exact Nat.le_of_lt_succ ((Nat.log2_lt none).mpr small)

/-- Within 64 bits an integer and its double are not farther apart than 512. -/
theorem nearest_near (fits : number.natAbs ≤ 2 ^ 63) : (nearest number - number).natAbs ≤ 512 := by
  have near : 2 * kept number.natAbs ≤ 2 * number.natAbs + 2 ^ 10 ∧
      2 * number.natAbs ≤ 2 * kept number.natAbs + 2 ^ 10 := by
    rcases Nat.lt_or_eq_of_le fits with below | last
    · have unit : 2 ^ surplus number.natAbs ≤ 2 ^ 10 := by
        apply Nat.pow_le_pow_right (by decide)
        have := log2_le below
        unfold surplus
        omega
      have := kept_near number.natAbs
      omega
    · rw [last]
      decide +kernel
  rw [nearest, signed]
  split
  · next negative =>
    have : number < 0 := by simpa using negative
    omega
  · next positive =>
    have : ¬number < 0 := by simpa using positive
    omega

section

variable {magnitude : Nat} (long : 52 ≤ magnitude.log2)
include long

theorem shiftRound_surplus_bounds :
    2 ^ 52 ≤ shiftRound magnitude (surplus magnitude) ∧
      shiftRound magnitude (surplus magnitude) ≤ 2 ^ 53 := by
  have positive : magnitude ≠ 0 := by
    intro none
    rw [none] at long
    exact absurd long (by decide)
  have digits : magnitude.log2 = 52 + surplus magnitude := by
    unfold surplus
    omega
  have least : 2 ^ 52 * 2 ^ surplus magnitude ≤ magnitude := by
    rw [← Nat.pow_add, ← digits]
    exact Nat.log2_self_le positive
  have greatest : magnitude < 2 ^ 53 * 2 ^ surplus magnitude := by
    have := Nat.lt_log2_self (n := magnitude)
    rw [digits] at this
    rw [← Nat.pow_add]
    convert this using 2
    omega
  have low := (Nat.le_div_iff_mul_le (Nat.two_pow_pos (surplus magnitude))).mpr least
  have high := (Nat.div_lt_iff_lt_mul (Nat.two_pow_pos (surplus magnitude))).mpr greatest
  rcases shiftRound_cases magnitude (surplus magnitude) with ⟨down, _⟩ | ⟨up, _⟩
  · rw [down]
    omega
  · rw [up]
    omega

end

/-- The mantissa before a carry: the magnitude moved up or rounded to 53 digits. -/
def aligned (magnitude : Nat) : Nat :=
  if magnitude.log2 ≤ 52 then magnitude * 2 ^ (52 - magnitude.log2)
  else shiftRound magnitude (surplus magnitude)

theorem aligned_bounds (positive : magnitude ≠ 0) :
    2 ^ 52 ≤ aligned magnitude ∧ aligned magnitude ≤ 2 ^ 53 := by
  unfold aligned
  split
  · next short =>
    have least := Nat.mul_le_mul_right (2 ^ (52 - magnitude.log2)) (Nat.log2_self_le positive)
    have greatest := Nat.mul_le_mul_right (2 ^ (52 - magnitude.log2))
      (Nat.le_of_lt (Nat.lt_log2_self (n := magnitude)))
    rw [← Nat.pow_add, Nat.add_sub_cancel' short] at least
    rw [← Nat.pow_add, Nat.add_right_comm, Nat.add_sub_cancel' short] at greatest
    exact ⟨least, greatest⟩
  · exact shiftRound_surplus_bounds (by omega)

theorem aligned_mul (magnitude : Nat) :
    aligned magnitude * 2 ^ magnitude.log2 = kept magnitude * 2 ^ 52 := by
  unfold aligned kept
  split
  · next short =>
    have none : surplus magnitude = 0 := by
      unfold surplus
      omega
    rw [none, shiftRound_zero, Nat.pow_zero, Nat.mul_one, Nat.mul_assoc, ← Nat.pow_add,
      Nat.sub_add_cancel short]
  · have digits : surplus magnitude + 52 = magnitude.log2 := by
      unfold surplus
      omega
    rw [Nat.mul_assoc, ← Nat.pow_add, digits]

theorem round?_eq (positive : magnitude ≠ 0) (fits : magnitude ≤ 2 ^ 63) :
    ∃ mantissa places : Nat,
      Format.double.round? magnitude 0 = some (mantissa, (places : Int) - 52) ∧
      2 ^ 52 ≤ mantissa ∧ mantissa < 2 ^ 53 ∧ places ≤ 64 ∧
      mantissa * 2 ^ places = kept magnitude * 2 ^ 52 := by
  have digits : magnitude.log2 ≤ 63 := log2_le (by omega)
  have precision : Format.double.precision = 53 := rfl
  have last : max (((magnitude.log2 : Int) + 1) + 0 - (53 : Nat)) Format.double.least =
      (magnitude.log2 : Int) - 52 := by
    change max (((magnitude.log2 : Int) + 1) + 0 - (53 : Nat)) (-1074) = _
    omega
  have moved : (if (magnitude.log2 : Int) - 52 ≤ 0 then
        magnitude * 2 ^ (0 - ((magnitude.log2 : Int) - 52)).toNat
      else shiftRound magnitude ((magnitude.log2 : Int) - 52 - 0).toNat) = aligned magnitude := by
    have up : (0 - ((magnitude.log2 : Int) - 52)).toNat = 52 - magnitude.log2 := by omega
    have down : ((magnitude.log2 : Int) - 52 - 0).toNat = surplus magnitude := by
      unfold surplus
      omega
    have short : (magnitude.log2 : Int) - 52 ≤ 0 ↔ magnitude.log2 ≤ 52 := by omega
    rw [aligned, up, down]
    simp only [short]
  obtain ⟨least, greatest⟩ := aligned_bounds positive
  have value := aligned_mul magnitude
  unfold Format.round?
  rw [if_neg positive]
  simp only [precision, last, Nat.pow_eq, moved]
  by_cases carry : aligned magnitude = 2 ^ 53
  · have inRange : ¬Format.double.greatest < (magnitude.log2 : Int) - 52 + 1 := by
      change ¬(971 < (magnitude.log2 : Int) - 52 + 1)
      omega
    refine ⟨2 ^ 52, magnitude.log2 + 1, ?_, le_rfl, by decide, by omega, ?_⟩
    · rw [if_pos carry, if_neg inRange]
      have place : (magnitude.log2 : Int) - 52 + 1 = ((magnitude.log2 + 1 : Nat) : Int) - 52 := by
        omega
      rw [place]
    · rw [← value, carry, Nat.pow_succ, Nat.pow_succ 2 52]
      omega
  · have inRange : ¬Format.double.greatest < (magnitude.log2 : Int) - 52 := by
      change ¬(971 < (magnitude.log2 : Int) - 52)
      omega
    refine ⟨aligned magnitude, magnitude.log2, ?_, least, by omega, by omega, value⟩
    rw [if_neg carry, if_neg inRange]

/-!
## Equal doubles
-/

theorem beq_iff_unpack {left right : Float} :
    (left == right) = true ↔ left.toModel.unpack.beq right.toModel.unpack = true := Iff.rfl

theorem unpack_ofInt_zero : (ofInt 0).toModel.unpack = .zero .positive := rfl

/-- An integer other than zero is a normal double, whose parts say what is kept of it. -/
theorem unpack_ofInt (different : number ≠ 0) (fits : number.natAbs ≤ 2 ^ 63) :
    ∃ (mantissa places : Nat) (positive : 0 < mantissa),
      (ofInt number).toModel.unpack =
        .finite (signOf (number < 0)) mantissa ((places : Int) - 52) positive ∧
      2 ^ 52 ≤ mantissa ∧ mantissa < 2 ^ 53 ∧
      mantissa * 2 ^ places = kept number.natAbs * 2 ^ 52 := by
  obtain ⟨mantissa, places, rounded, least, greatest, few, value⟩ :=
    round?_eq (Int.natAbs_ne_zero.mpr different) fits
  refine ⟨mantissa, places, by omega, ?_, least, greatest, value⟩
  rw [ofInt, ofDyadic, rounded]
  exact unpack_pack _ (by omega) (by omega) (by omega) (by omega)

theorem normal_unique {leftPlaces rightPlaces : Nat} (leftLeast : 2 ^ 52 ≤ left)
    (leftGreatest : left < 2 ^ 53) (rightLeast : 2 ^ 52 ≤ right) (rightGreatest : right < 2 ^ 53)
    (same : left * 2 ^ leftPlaces = right * 2 ^ rightPlaces) :
    left = right ∧ leftPlaces = rightPlaces := by
  have digits {mantissa places : Nat} (least : 2 ^ 52 ≤ mantissa) (greatest : mantissa < 2 ^ 53) :
      (mantissa * 2 ^ places).log2 = 52 + places := by
    have low := Nat.mul_le_mul_right (2 ^ places) least
    have high := Nat.mul_lt_mul_of_pos_right greatest (Nat.two_pow_pos places)
    rw [← Nat.pow_add] at low high
    have positive : mantissa * 2 ^ places ≠ 0 :=
      Nat.mul_ne_zero (by omega) (Nat.two_pow_pos places).ne'
    rw [Nat.log2_eq_iff positive, Nat.add_right_comm]
    exact ⟨low, high⟩
  have places : leftPlaces = rightPlaces := by
    have := congrArg Nat.log2 same
    rw [digits leftLeast leftGreatest, digits rightLeast rightGreatest] at this
    omega
  subst places
  exact ⟨Nat.eq_of_mul_eq_mul_right (Nat.two_pow_pos leftPlaces) same, rfl⟩

theorem beq_finite_iff {leftMantissa rightMantissa : Nat} {leftExponent rightExponent : Int}
    {leftPositive : 0 < leftMantissa} {rightPositive : 0 < rightMantissa} :
    (UnpackedFloat.finite (signOf leftSign) leftMantissa leftExponent leftPositive).beq
      (.finite (signOf rightSign) rightMantissa rightExponent rightPositive) = true ↔
      leftSign = rightSign ∧ leftExponent = rightExponent ∧ leftMantissa = rightMantissa := by
  rw [UnpackedFloat.beq_iff_ne_notANumber_and_eq]
  cases leftSign <;> cases rightSign <;> simp [signOf, and_comm]

theorem kept_pos (positive : magnitude ≠ 0) : 0 < kept magnitude := by
  have value := aligned_mul magnitude
  have least := (aligned_bounds positive).1
  apply Nat.pos_of_ne_zero
  intro none
  rw [none, Nat.zero_mul, Nat.mul_eq_zero] at value
  rcases value with nothing | nothing
  · omega
  · exact (Nat.two_pow_pos _).ne' nothing

theorem signed_inj (positive : 0 < left) :
    signed leftSign left = signed rightSign right ↔ leftSign = rightSign ∧ left = right := by
  cases leftSign <;> cases rightSign <;> simp [signed] <;> omega

theorem nearest_ne_zero (different : number ≠ 0) : nearest number ≠ 0 := by
  have positive := kept_pos (Int.natAbs_ne_zero.mpr different)
  unfold nearest signed
  split <;> omega

theorem beq_finite_zero {sign : Bool} {positive : 0 < mantissa} :
    (UnpackedFloat.finite (signOf sign) mantissa exponent positive).beq (.zero .positive) = false ∧
      (UnpackedFloat.zero .positive).beq (.finite (signOf sign) mantissa exponent positive) =
        false := by
  cases sign <;> exact ⟨rfl, rfl⟩

/-- Integers become equal doubles exactly when the same is kept of them. -/
theorem beq_ofInt_iff {left right : Int} (leftFits : left.natAbs ≤ 2 ^ 63)
    (rightFits : right.natAbs ≤ 2 ^ 63) :
    (ofInt left == ofInt right) = true ↔ nearest left = nearest right := by
  rw [beq_iff_unpack]
  by_cases leftZero : left = 0
  · subst leftZero
    by_cases rightZero : right = 0
    · subst rightZero
      exact iff_of_true rfl rfl
    · obtain ⟨mantissa, places, positive, unpacked, _⟩ := unpack_ofInt rightZero rightFits
      rw [unpack_ofInt_zero, unpacked, beq_finite_zero.2]
      exact iff_of_false Bool.false_ne_true (Ne.symm (nearest_ne_zero rightZero))
  · obtain ⟨mantissa, places, positive, unpacked, least, greatest, value⟩ :=
      unpack_ofInt leftZero leftFits
    by_cases rightZero : right = 0
    · subst rightZero
      rw [unpack_ofInt_zero, unpacked, beq_finite_zero.1]
      exact iff_of_false Bool.false_ne_true (nearest_ne_zero leftZero)
    · obtain ⟨other, otherPlaces, otherPositive, otherUnpacked, otherLeast, otherGreatest,
        otherValue⟩ := unpack_ofInt rightZero rightFits
      rw [unpacked, otherUnpacked, beq_finite_iff, nearest, nearest,
        signed_inj (kept_pos (Int.natAbs_ne_zero.mpr leftZero))]
      refine and_congr_right fun _ => ?_
      constructor
      · intro ⟨exponents, mantissas⟩
        have samePlaces : places = otherPlaces := by omega
        rw [mantissas, samePlaces, otherValue] at value
        exact (Nat.eq_of_mul_eq_mul_right (Nat.two_pow_pos 52) value).symm
      · intro sameKept
        rw [sameKept, ← otherValue] at value
        obtain ⟨mantissas, samePlaces⟩ :=
          normal_unique least greatest otherLeast otherGreatest value
        exact ⟨by rw [samePlaces], mantissas⟩

end Covenant.Number
