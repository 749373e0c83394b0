import Covenant.Proofs.Integers
import Covenant.Proofs.Rounding

/-!
# Numbers as floating point

Every number converts to every floating-point type: through the nearest double, and for single
precision from there to the nearest single. It denotes the same number exactly when the type holds
it, as an integer below `2 ^ precision` times a power of two within the exponents of the format.
-/

set_option autoImplicit false

namespace Covenant.Number

/-!
## Meanings
-/

/-- What a number denotes: an infinity or a rational number. -/
inductive Meaning where
  | infinite (negative : Bool)
  | exact (value : ℚ)
  deriving DecidableEq

def dyadic (negative : Bool) (mantissa : Nat) (exponent : Int) : ℚ :=
  (signed negative mantissa : ℚ) * 2 ^ exponent

def Unpacked.meaning? : Unpacked → Option Meaning
  | .notANumber => none
  | .infinite negative => some (.infinite negative)
  | .finite negative mantissa exponent => some (.exact (dyadic negative mantissa exponent))

def meaning? (number : Float) : Option Meaning := (unpack number).meaning?

/-- The rational numbers that can be written in a format. -/
def Format.Holds (format : Format) (value : ℚ) : Prop :=
  ∃ (mantissa exponent : ℤ), |mantissa| < 2 ^ format.precision ∧ format.least ≤ exponent ∧
    exponent ≤ format.greatest ∧ value = mantissa * 2 ^ exponent

def Format.HoldsMeaning (format : Format) : Meaning → Prop
  | .infinite _ => True
  | .exact value => format.Holds value

/-- How a format writes a number: without the leading digit only at the least exponent. -/
structure Format.Writes (format : Format) (mantissa : Nat) (exponent : Int) : Prop where
  fits : mantissa < 2 ^ format.precision
  least : format.least ≤ exponent
  greatest : exponent ≤ format.greatest
  leading : mantissa < 2 ^ (format.precision - 1) → exponent = format.least

theorem natAbs_signed (negative : Bool) (mantissa : Nat) :
    (signed negative mantissa).natAbs = mantissa := by
  cases negative <;> simp [signed]

theorem signed_natAbs (number : Int) : signed (number < 0) number.natAbs = number := by
  by_cases negative : number < 0
  · rw [signed, if_pos (decide_eq_true negative)]
    omega
  · rw [signed, if_neg (by simpa using negative)]
    omega

variable {negative : Bool} {exponent : Int} {mantissa body : Nat}

theorem dyadic_inj {left right : Nat} {leftExponent rightExponent : Int} :
    dyadic negative left leftExponent = dyadic negative right rightExponent ↔
      (left : ℚ) * 2 ^ leftExponent = right * 2 ^ rightExponent := by
  cases negative <;> simp [dyadic, signed]

theorem Format.holds_dyadic_iff {format : Format} :
    format.Holds (dyadic negative mantissa exponent) ↔
      ∃ (other : Nat) (place : Int), other < 2 ^ format.precision ∧ format.least ≤ place ∧
        place ≤ format.greatest ∧ (mantissa : ℚ) * 2 ^ exponent = other * 2 ^ place := by
  constructor
  · rintro ⟨other, place, fits, least, greatest, same⟩
    refine ⟨other.natAbs, place, ?_, least, greatest, ?_⟩
    · zify
      exact fits
    · have magnitudes := congrArg abs same
      have power (place : Int) : |(2 : ℚ) ^ place| = 2 ^ place := abs_of_pos (by positivity)
      rw [dyadic, abs_mul, abs_mul, power, power, ← Int.cast_abs, ← Int.cast_abs,
        Int.abs_eq_natAbs, Int.abs_eq_natAbs, natAbs_signed] at magnitudes
      simpa using magnitudes
  · rintro ⟨other, place, fits, least, greatest, same⟩
    refine ⟨signed negative other, place, ?_, least, greatest, ?_⟩
    · rw [Int.abs_eq_natAbs, natAbs_signed]
      exact_mod_cast fits
    · exact dyadic_inj.mpr same

theorem Format.Writes.holds {format : Format} (written : format.Writes mantissa exponent) :
    format.Holds (dyadic negative mantissa exponent) :=
  holds_dyadic_iff.mpr
    ⟨mantissa, exponent, written.fits, written.least, written.greatest, rfl⟩

theorem Format.Holds.double_of_single {value : ℚ} (held : Format.single.Holds value) :
    Format.double.Holds value := by
  obtain ⟨mantissa, exponent, fits, least, greatest, same⟩ := held
  have narrow : (2 : ℤ) ^ Format.single.precision ≤ 2 ^ Format.double.precision := by decide
  change -149 ≤ exponent at least
  change exponent ≤ 104 at greatest
  refine ⟨mantissa, exponent, fits.trans_le narrow, ?_, ?_, same⟩
  · change -1074 ≤ exponent
    omega
  · change exponent ≤ 971
    omega

/-!
## Doubles and their bits
-/

open Float.Model (UnpackedFloat Format.binary64)

theorem toBits_ofBits {bits : UInt64}
    (body : bits.toNat % 0x8000000000000000 ≤ 2047 * 0x10000000000000) :
    (Float.ofBits bits).toBits = bits := by
  have isNumber : ¬@UnpackedFloat.isNaNBits Format.binary64 bits.toBitVec = true := by
    intro notNumber
    obtain ⟨exponent, mantissa⟩ := of_decide_eq_true notNumber
    rw [UnpackedFloat.unpackExponent_def] at exponent
    rw [UnpackedFloat.unpackMantissa_def] at mantissa
    have biased : bits.toNat / 0x10000000000000 % 2048 = 2047 := by
      have := congrArg BitVec.toNat exponent
      rw [BitVec.extractLsb'_toNat, Nat.shiftRight_eq_div_pow] at this
      exact this
    have fraction : bits.toNat % 0x10000000000000 ≠ 0 := by
      intro none
      apply mantissa
      apply BitVec.eq_of_toNat_eq
      rw [BitVec.extractLsb'_toNat]
      exact none
    omega
  have packed := @UnpackedFloat.pack_unpack Format.binary64 bits.toBitVec (by decide)
  rw [if_neg isNumber] at packed
  exact UInt64.toBitVec_inj.mp packed

def ofBody (negative : Bool) (body : Nat) : Float :=
  Float.ofBits (UInt64.ofNat (signBits negative + body))

theorem signBits_eq (negative : Bool) :
    signBits negative = 0 ∨ signBits negative = 0x8000000000000000 := by
  cases negative
  · exact .inl rfl
  · exact .inr rfl

theorem toNat_toBits_ofBody (negative : Bool) (bounded : body ≤ 2047 * 0x10000000000000) :
    (ofBody negative body).toBits.toNat = signBits negative + body := by
  have top := signBits_eq negative
  have word : (UInt64.ofNat (signBits negative + body)).toNat = signBits negative + body := by
    rw [UInt64.toNat_ofNat']
    apply Nat.mod_eq_of_lt
    omega
  rw [ofBody, toBits_ofBits, word]
  rw [word]
  omega

theorem unpack_ofBody (negative : Bool) (bounded : body ≤ 2047 * 0x10000000000000) :
    unpack (ofBody negative body) =
      if body / 0x10000000000000 = 2047 then .infinite negative
      else if body < 0x10000000000000 then .finite negative body (-1074)
      else .finite negative (0x10000000000000 + body % 0x10000000000000)
        ((body / 0x10000000000000 : Nat) - 1075 : Int) := by
  have bits := toNat_toBits_ofBody negative bounded
  have top := signBits_eq negative
  have sign : decide (0x8000000000000000 ≤ signBits negative + body) = negative := by
    cases negative with
    | false => simp [signBits]; omega
    | true => simp [signBits]
  have biased : (signBits negative + body) / 0x10000000000000 % 2048 = body / 0x10000000000000 := by
    omega
  have fraction : (signBits negative + body) % 0x10000000000000 = body % 0x10000000000000 := by
    omega
  unfold unpack
  simp only [bits, sign, biased, fraction]
  split
  · rw [if_pos (by omega)]
  · by_cases small : body < 0x10000000000000
    · rw [if_pos (by omega), if_pos small, Nat.mod_eq_of_lt small]
    · rw [if_neg (by omega), if_neg small]

theorem unpack_infinity (negative : Bool) : unpack (infinity negative) = .infinite negative :=
  (unpack_ofBody negative le_rfl).trans rfl

theorem unpack_pack_of_writes (written : Format.double.Writes mantissa exponent) :
    unpack (pack negative mantissa exponent) = .finite negative mantissa exponent := by
  obtain ⟨fits, least, greatest, leading⟩ := written
  change mantissa < 0x20000000000000 at fits
  change -1074 ≤ exponent at least
  change exponent ≤ 971 at greatest
  change mantissa < 0x10000000000000 → exponent = -1074 at leading
  change unpack (ofBody negative _) = _
  by_cases small : mantissa < 0x10000000000000
  · rw [if_pos small, unpack_ofBody negative (by omega), if_neg (by omega), if_pos small,
      leading small]
  · have place : (((exponent + 1075).toNat : Nat) : Int) = exponent + 1075 := by omega
    have high : ((exponent + 1075).toNat * 0x10000000000000 + (mantissa - 0x10000000000000)) /
        0x10000000000000 = (exponent + 1075).toNat := by omega
    have low : ((exponent + 1075).toNat * 0x10000000000000 + (mantissa - 0x10000000000000)) %
        0x10000000000000 = mantissa - 0x10000000000000 := by omega
    rw [if_neg small, unpack_ofBody negative (by omega), high, low, if_neg (by omega),
      if_neg (by omega), place, Int.add_sub_cancel, Nat.add_sub_cancel' (by omega)]

theorem writes_of_unpack {number : Float}
    (finite : unpack number = .finite negative mantissa exponent) :
    Format.double.Writes mantissa exponent := by
  unfold unpack at finite
  dsimp only at finite
  split at finite
  · split at finite <;> cases finite
  · split at finite
    · cases finite
      refine ⟨?_, le_rfl, by decide, fun _ => rfl⟩
      change _ < 0x20000000000000
      omega
    · cases finite
      refine ⟨?_, ?_, ?_, ?_⟩
      · change _ < 0x20000000000000
        omega
      · change -1074 ≤ _
        omega
      · change _ ≤ (971 : Int)
        omega
      · change _ < 0x10000000000000 → _
        omega

/-!
## Rounding to a format
-/

namespace Format

section

variable (format : Format) (mantissa : Nat) (exponent : Int)

/-- The exponent of the last place that is kept. -/
def last : Int := max ((mantissa.log2 : Int) + 1 + exponent - format.precision) format.least

def align : Nat :=
  if format.last mantissa exponent ≤ exponent then
    mantissa * 2 ^ (exponent - format.last mantissa exponent).toNat
  else shiftRound mantissa (format.last mantissa exponent - exponent).toNat

end

variable {format : Format} {mantissa : Nat} {exponent : Int}

theorem round?_of_ne_zero (positive : mantissa ≠ 0) :
    format.round? mantissa exponent =
      if format.align mantissa exponent = 2 ^ format.precision then
        if format.greatest < format.last mantissa exponent + 1 then none
        else some (2 ^ (format.precision - 1), format.last mantissa exponent + 1)
      else if format.greatest < format.last mantissa exponent then none
      else some (format.align mantissa exponent, format.last mantissa exponent) := by
  by_cases carry : format.align mantissa exponent = 2 ^ format.precision
  · rw [if_pos carry, round?, if_neg positive]
    unfold align last at carry
    simp only [Nat.pow_eq, carry, if_true]
    rfl
  · rw [if_neg carry, round?, if_neg positive]
    unfold align last at carry
    simp only [Nat.pow_eq, carry, if_false]
    rfl

theorem log2_add_one_le :
    (mantissa.log2 : Int) + 1 + exponent ≤ format.last mantissa exponent + format.precision := by
  unfold last
  omega

theorem mul_zpow_lt :
    (mantissa : ℚ) * 2 ^ exponent <
      ((2 ^ format.precision : Nat) : ℚ) * 2 ^ format.last mantissa exponent :=
  calc (mantissa : ℚ) * 2 ^ exponent
      < ((2 ^ (mantissa.log2 + 1) : Nat) : ℚ) * 2 ^ exponent := by
        gcongr
        exact Nat.lt_log2_self
    _ = 2 ^ ((mantissa.log2 : Int) + 1 + exponent) := by
        rw [zpow_add₀ two_ne_zero, ← Nat.cast_succ, zpow_natCast, Nat.cast_pow, Nat.cast_two]
    _ ≤ 2 ^ ((format.precision : Int) + format.last mantissa exponent) := by
        apply zpow_le_zpow_right₀ one_le_two
        rw [Int.add_comm (format.precision : Int)]
        exact log2_add_one_le
    _ = ((2 ^ format.precision : Nat) : ℚ) * 2 ^ format.last mantissa exponent := by
        rw [zpow_add₀ two_ne_zero, zpow_natCast, Nat.cast_pow, Nat.cast_two]

theorem align_le : format.align mantissa exponent ≤ 2 ^ format.precision := by
  have room := @log2_add_one_le format mantissa exponent
  unfold align
  split
  · next short =>
    calc mantissa * 2 ^ (exponent - format.last mantissa exponent).toNat
        ≤ 2 ^ (mantissa.log2 + 1) * 2 ^ (exponent - format.last mantissa exponent).toNat :=
          Nat.mul_le_mul_right _ (Nat.le_of_lt Nat.lt_log2_self)
      _ = 2 ^ (mantissa.log2 + 1 + (exponent - format.last mantissa exponent).toNat) :=
          (Nat.pow_add ..).symm
      _ ≤ 2 ^ format.precision := Nat.pow_le_pow_right (by decide) (by omega)
  · next long =>
    generalize surplus : (format.last mantissa exponent - exponent).toNat = places
    have below : mantissa / 2 ^ places < 2 ^ format.precision := by
      rw [Nat.div_lt_iff_lt_mul (Nat.two_pow_pos places), ← Nat.pow_add]
      exact Nat.lt_of_lt_of_le Nat.lt_log2_self
        (Nat.pow_le_pow_right (by decide) (by omega))
    rcases shiftRound_cases mantissa places with ⟨down, _⟩ | ⟨up, _⟩ <;> omega

theorem le_align (positive : mantissa ≠ 0) (digits : 0 < format.precision)
    (above : format.last mantissa exponent ≠ format.least) :
    2 ^ (format.precision - 1) ≤ format.align mantissa exponent := by
  have place : format.last mantissa exponent =
      (mantissa.log2 : Int) + 1 + exponent - format.precision := by
    unfold last at above ⊢
    omega
  unfold align
  split
  · next short =>
    calc 2 ^ (format.precision - 1)
        = 2 ^ (mantissa.log2 + (exponent - format.last mantissa exponent).toNat) := by
          congr 1
          omega
      _ = 2 ^ mantissa.log2 * 2 ^ (exponent - format.last mantissa exponent).toNat :=
          Nat.pow_add ..
      _ ≤ mantissa * 2 ^ (exponent - format.last mantissa exponent).toNat :=
          Nat.mul_le_mul_right _ (Nat.log2_self_le positive)
  · next long =>
    generalize surplus : (format.last mantissa exponent - exponent).toNat = places
    have above : 2 ^ (format.precision - 1) ≤ mantissa / 2 ^ places := by
      rw [Nat.le_div_iff_mul_le (Nat.two_pow_pos places), ← Nat.pow_add]
      have digits : format.precision - 1 + places = mantissa.log2 := by omega
      rw [digits]
      exact Nat.log2_self_le positive
    rcases shiftRound_cases mantissa places with ⟨down, _⟩ | ⟨up, _⟩ <;> omega

theorem writes_of_round? {rounded : Nat} {place : Int} (digits : 0 < format.precision)
    (ordered : format.least ≤ format.greatest)
    (found : format.round? mantissa exponent = some (rounded, place)) :
    format.Writes rounded place := by
  have least : format.least ≤ format.last mantissa exponent := le_max_right ..
  by_cases zero : mantissa = 0
  · rw [round?, if_pos zero] at found
    cases found
    exact ⟨Nat.two_pow_pos _, le_rfl, ordered, fun _ => rfl⟩
  · rw [round?_of_ne_zero zero] at found
    split at found
    · split at found
      · cases found
      · cases found
        refine ⟨Nat.pow_lt_pow_right (by decide) (by omega), by omega, by omega, ?_⟩
        exact fun below => absurd below (Nat.lt_irrefl _)
    · next noCarry =>
      split at found
      · cases found
      · cases found
        refine ⟨Nat.lt_of_le_of_ne align_le noCarry, least, by omega, ?_⟩
        intro below
        by_contra above
        exact absurd (le_align zero digits above) (Nat.not_le.mpr below)

theorem mul_zpow_of_le {number : Nat} {low high : Int} (ordered : low ≤ high) :
    (number : ℚ) * 2 ^ high = ((number * 2 ^ (high - low).toNat : Nat) : ℚ) * 2 ^ low := by
  rw [Nat.cast_mul, Nat.cast_pow, Nat.cast_two, mul_assoc, ← zpow_natCast,
    ← zpow_add₀ two_ne_zero, Int.toNat_of_nonneg (by omega), Int.sub_add_cancel]

theorem shiftRound_mul_pow (number places : Nat) :
    shiftRound (number * 2 ^ places) places = number := by
  rcases shiftRound_cases (number * 2 ^ places) places with ⟨down, _⟩ | ⟨_, within⟩
  · rw [down, Nat.mul_div_cancel _ (Nat.two_pow_pos places)]
  · rw [Nat.mul_mod_left] at within
    exact absurd within (Nat.not_le.mpr (Nat.two_pow_pos places))

section

variable {other : Nat} {place : Int} (fits : other < 2 ^ format.precision)
  (same : (mantissa : ℚ) * 2 ^ exponent = other * 2 ^ place)
include fits same

theorem last_le (positive : mantissa ≠ 0) (least : format.least ≤ place) :
    format.last mantissa exponent ≤ place := by
  have bound : (2 : ℚ) ^ ((mantissa.log2 : Int) + exponent) <
      2 ^ ((format.precision : Int) + place) :=
    calc (2 : ℚ) ^ ((mantissa.log2 : Int) + exponent)
        = ((2 ^ mantissa.log2 : Nat) : ℚ) * 2 ^ exponent := by
          rw [zpow_add₀ two_ne_zero, zpow_natCast, Nat.cast_pow, Nat.cast_two]
      _ ≤ mantissa * 2 ^ exponent := by
          gcongr
          exact Nat.log2_self_le positive
      _ = other * 2 ^ place := same
      _ < ((2 ^ format.precision : Nat) : ℚ) * 2 ^ place := by gcongr
      _ = 2 ^ ((format.precision : Int) + place) := by
          rw [zpow_add₀ two_ne_zero, zpow_natCast, Nat.cast_pow, Nat.cast_two]
  rw [zpow_lt_zpow_iff_right₀ one_lt_two] at bound
  unfold last
  omega

theorem align_eq (positive : mantissa ≠ 0) (least : format.least ≤ place) :
    (format.align mantissa exponent : ℚ) * 2 ^ format.last mantissa exponent =
      mantissa * 2 ^ exponent := by
  have early := last_le fits same positive least
  unfold align
  generalize format.last mantissa exponent = last at early ⊢
  split
  · next short => exact (mul_zpow_of_le short).symm
  · next long =>
    have whole : mantissa = other * 2 ^ (place - last).toNat * 2 ^ (last - exponent).toNat := by
      have scaled := same.trans
        ((mul_zpow_of_le early).trans (mul_zpow_of_le (Int.le_of_not_le long)))
      exact_mod_cast mul_right_cancel₀ (zpow_ne_zero exponent two_ne_zero) scaled
    have rounded : shiftRound mantissa (last - exponent).toNat =
        other * 2 ^ (place - last).toNat := by
      rw [whole]
      exact shiftRound_mul_pow ..
    rw [rounded, same]
    exact (mul_zpow_of_le early).symm

end

theorem round?_exact_iff (digits : 0 < format.precision) (ordered : format.least ≤ format.greatest)
    (negative : Bool) :
    (∃ rounded place, format.round? mantissa exponent = some (rounded, place) ∧
      dyadic negative rounded place = dyadic negative mantissa exponent) ↔
      format.Holds (dyadic negative mantissa exponent) := by
  constructor
  · rintro ⟨rounded, place, found, same⟩
    rw [← same]
    exact (writes_of_round? digits ordered found).holds
  · intro held
    obtain ⟨other, place, fits, least, greatest, same⟩ := holds_dyadic_iff.mp held
    by_cases zero : mantissa = 0
    · refine ⟨0, format.least, ?_, ?_⟩
      · rw [round?, if_pos zero]
      · rw [zero, dyadic_inj, Nat.cast_zero, zero_mul, zero_mul]
    · have aligned := align_eq fits same zero least
      have early := last_le fits same zero least
      have noCarry : format.align mantissa exponent ≠ 2 ^ format.precision := by
        intro carry
        have below := @mul_zpow_lt format mantissa exponent
        rw [← aligned, carry] at below
        simp at below
      refine ⟨format.align mantissa exponent, format.last mantissa exponent, ?_, ?_⟩
      · rw [round?_of_ne_zero zero, if_neg noCarry, if_neg (by omega)]
      · exact dyadic_inj.mpr aligned

end Format

/-!
## Numbers of a format
-/

def Format.nearest (format : Format) (negative : Bool) (mantissa : Nat) (exponent : Int) :
    Meaning :=
  (format.round? mantissa exponent).elim (.infinite negative)
    fun parts => .exact (dyadic negative parts.1 parts.2)

section

variable {format : Format} (digits : 0 < format.precision)
  (ordered : format.least ≤ format.greatest) (negative : Bool) (mantissa : Nat) (exponent : Int)
include digits ordered

theorem Format.holdsMeaning_nearest :
    format.HoldsMeaning (format.nearest negative mantissa exponent) := by
  unfold nearest
  cases found : format.round? mantissa exponent with
  | none => trivial
  | some parts => exact (writes_of_round? digits ordered found).holds

theorem Format.nearest_eq_iff :
    format.nearest negative mantissa exponent = .exact (dyadic negative mantissa exponent) ↔
      format.Holds (dyadic negative mantissa exponent) := by
  rw [← round?_exact_iff digits ordered negative, nearest]
  cases format.round? mantissa exponent with
  | none => simp
  | some parts =>
    simp only [Option.elim_some, Meaning.exact.injEq, Option.some.injEq]
    constructor
    · exact fun same => ⟨parts.1, parts.2, rfl, same⟩
    · rintro ⟨rounded, place, rfl, same⟩
      exact same

end

theorem meaning?_ofDyadic (negative : Bool) (mantissa : Nat) (exponent : Int) :
    meaning? (ofDyadic negative mantissa exponent) =
      some (Format.double.nearest negative mantissa exponent) := by
  unfold ofDyadic Format.nearest meaning?
  cases found : Format.double.round? mantissa exponent with
  | none =>
    dsimp only
    rw [unpack_infinity]
    rfl
  | some parts =>
    dsimp only
    rw [unpack_pack_of_writes (Format.writes_of_round? (by decide) (by decide) found)]
    rfl

theorem meaning?_ofInt_iff {number : Int} :
    meaning? (ofInt number) = some (.exact number) ↔ Format.double.Holds number := by
  have value : dyadic (number < 0) number.natAbs 0 = number := by
    rw [dyadic, signed_natAbs, zpow_zero, mul_one]
  have rounded :=
    @Format.nearest_eq_iff Format.double (by decide) (by decide) (number < 0) number.natAbs 0
  rw [ofInt, meaning?_ofDyadic, Option.some.injEq]
  rwa [value] at rounded

theorem meaning?_toSingle {number : Float}
    (finite : unpack number = .finite negative mantissa exponent) :
    meaning? (toSingle number) = some (Format.single.nearest negative mantissa exponent) := by
  have whole := @Format.holdsMeaning_nearest Format.single (by decide) (by decide) negative
    mantissa exponent
  rw [toSingle, finite]
  dsimp only
  unfold Format.nearest at whole ⊢
  cases found : Format.single.round? mantissa exponent with
  | none =>
    dsimp only
    rw [meaning?, unpack_infinity]
    rfl
  | some parts =>
    -- a single-precision number is a double as it is
    rw [found] at whole
    have held : Format.double.Holds (dyadic negative parts.1 parts.2) :=
      Format.Holds.double_of_single whole
    dsimp only
    rw [meaning?_ofDyadic, (Format.nearest_eq_iff (by decide) (by decide) ..).mpr held]
    rfl

end Covenant.Number

namespace Covenant

namespace FloatKind

def format : FloatKind → Number.Format
  | .single => .single
  | .double => .double

def store : FloatKind → Float → Float
  | .single => Number.toSingle
  | .double => id

theorem holdsMeaning_double {number : Float} {meaning : Number.Meaning}
    (denoted : Number.meaning? number = some meaning) :
    Number.Format.double.HoldsMeaning meaning := by
  unfold Number.meaning? at denoted
  cases parts : Number.unpack number with
  | notANumber =>
    rw [parts] at denoted
    cases denoted
  | infinite negative =>
    rw [parts] at denoted
    cases denoted
    trivial
  | finite negative mantissa exponent =>
    rw [parts] at denoted
    cases denoted
    exact (Number.writes_of_unpack parts).holds

variable {kind : FloatKind} {number : Float} {meaning : Number.Meaning}

theorem holdsMeaning_store (denoted : Number.meaning? (kind.store number) = some meaning) :
    kind.format.HoldsMeaning meaning := by
  cases kind with
  | double => exact holdsMeaning_double denoted
  | single =>
    change Number.meaning? (Number.toSingle number) = some meaning at denoted
    cases parts : Number.unpack number with
    | notANumber =>
      rw [Number.toSingle, parts, Number.meaning?, parts] at denoted
      cases denoted
    | infinite negative =>
      rw [Number.toSingle, parts, Number.meaning?, parts] at denoted
      cases denoted
      trivial
    | finite negative mantissa exponent =>
      rw [Number.meaning?_toSingle parts] at denoted
      cases denoted
      exact Number.Format.holdsMeaning_nearest (by decide) (by decide) ..

theorem meaning?_store_iff (denoted : Number.meaning? number = some meaning) :
    Number.meaning? (kind.store number) = some meaning ↔ kind.format.HoldsMeaning meaning := by
  constructor
  · exact holdsMeaning_store
  · intro held
    cases kind with
    | double => exact denoted
    | single =>
      change Number.meaning? (Number.toSingle number) = some meaning
      unfold Number.meaning? at denoted
      cases parts : Number.unpack number with
      | notANumber =>
        rw [parts] at denoted
        cases denoted
      | infinite negative =>
        rw [Number.toSingle, parts, Number.meaning?, parts, ← denoted, parts]
      | finite negative mantissa exponent =>
        rw [parts] at denoted
        cases denoted
        rw [Number.meaning?_toSingle parts, Option.some.injEq]
        exact (Number.Format.nearest_eq_iff (by decide) (by decide) ..).mpr held

/-- A format of a type can write every integer of as many binary digits. -/
theorem holds_of_abs_le {whole : Int} (small : |whole| ≤ 2 ^ kind.format.precision) :
    kind.format.Holds whole := by
  have places : kind.format.least ≤ 0 ∧ 1 ≤ kind.format.greatest := by cases kind <;> decide
  rcases small.lt_or_eq with below | last
  · exact ⟨whole, 0, below, by omega, by omega, by simp⟩
  · -- the first integer with one digit more is even
    obtain ⟨digits, counted⟩ : ∃ digits, kind.format.precision = digits + 1 := by
      cases kind
      · exact ⟨23, rfl⟩
      · exact ⟨52, rfl⟩
    have fits : |(2 : Int) ^ digits| < 2 ^ kind.format.precision := by
      rw [counted, abs_of_pos (by positivity)]
      exact pow_lt_pow_right₀ one_lt_two (Nat.lt_succ_self digits)
    rw [counted] at last
    rcases (abs_eq (by positivity)).mp last with rfl | rfl
    · exact ⟨2 ^ digits, 1, fits, by omega, by omega, by push_cast; ring⟩
    · exact ⟨-2 ^ digits, 1, by rwa [abs_neg], by omega, by omega, by push_cast; ring⟩

end FloatKind

namespace Value

def meaning? : Value → Option Number.Meaning
  | .int _ number => some (.exact number)
  | .float _ number => Number.meaning? number
  | _ => none

/-- A number that its own type holds. -/
inductive IsHeld : Value → Prop
  | int {type : HostType} {kind : IntKind} {number : Int} (stored : type.underlying = .int kind)
      (held : kind.holds number = true) : IsHeld (.int type number)
  | float {type : HostType} {kind : FloatKind} {number : Float}
      (stored : type.underlying = .float kind)
      (held : ∀ meaning, Number.meaning? number = some meaning →
        kind.format.HoldsMeaning meaning) : IsHeld (.float type number)

end Value

theorem HostType.isNamed_of_float {type : HostType} {kind : FloatKind}
    (real : type.underlying = .float kind) : type.isNamed = true := by
  cases type with
  | float => rfl
  | named => rfl
  | _ => cases real

theorem Host.assignable_float (host : Host) {source target : HostType} {kind : FloatKind}
    (named : source.isNamed = true) (wanted : target.underlying = .float kind) :
    host.assignable source target = decide (source = target) := by
  have plain : target.isInterface = false := by rw [HostType.isInterface, wanted]
  simp [assignable, plain, named, HostType.isNamed_of_float wanted]

namespace Value

section

variable (host : Host) {source target : HostType} {kind : FloatKind}
  (wanted : target.underlying = .float kind)
include wanted

theorem convertNumber?_float {value : Value} :
    value.convertNumber? target =
      value.asFloat?.map fun number => .float target (kind.store number) := by
  cases kind with
  | single => cases value <;> simp only [convertNumber?, wanted] <;> rfl
  | double => cases value <;> simp only [convertNumber?, wanted] <;> rfl

theorem convert_int_float {own : IntKind} (number : Int) (stored : source.underlying = .int own) :
    (Value.int source number).convert host target =
      .ok (.float target (kind.store (Number.ofInt number))) := by
  have different : source ≠ target := by
    rintro rfl
    cases stored.symm.trans wanted
  rw [convert]
  simp only [host.assignable_float (HostType.isNamed_of_int stored) wanted, different,
    decide_false, convertNumber?_float wanted]
  rfl

theorem convert_float_float {own : FloatKind} (number : Float)
    (stored : source.underlying = .float own) :
    (Value.float source number).convert host target =
      .ok (.float target (if source = target then number else kind.store number)) := by
  rw [convert]
  simp only [host.assignable_float (HostType.isNamed_of_float stored) wanted, decide_eq_true_eq,
    convertNumber?_float wanted]
  split
  · next same => rw [same]
  · rfl

end

/-- A number of any type converts to every floating-point type. The result denotes the same number
exactly when the target type can write it; so all integers of as many binary digits as the type has
are kept, while others may change without a failure. -/
theorem floating_point_exact_iff_held (host : Host) (value : Value) (target : HostType)
    {kind : FloatKind} {meaning : Number.Meaning} (number : value.IsHeld)
    (wanted : target.underlying = .float kind) (denoted : value.meaning? = some meaning) :
    ∃ result, value.convert host target = .ok result ∧ result.type? = some target ∧
      (result.meaning? = some meaning ↔ kind.format.HoldsMeaning meaning) ∧
      ∀ whole : Int, meaning = .exact whole → |whole| ≤ 2 ^ kind.format.precision →
        result.meaning? = some meaning := by
  suffices exact : ∃ result, value.convert host target = .ok result ∧
      result.type? = some target ∧
      (result.meaning? = some meaning ↔ kind.format.HoldsMeaning meaning) by
    obtain ⟨result, converted, typed, same⟩ := exact
    refine ⟨result, converted, typed, same, ?_⟩
    rintro whole rfl small
    exact same.mpr (FloatKind.holds_of_abs_le small)
  cases number with
  | @int source own whole stored held =>
    cases denoted
    refine ⟨_, convert_int_float host wanted whole stored, rfl, ?_⟩
    constructor
    · exact FloatKind.holdsMeaning_store
    · intro held
      have double : Number.Format.double.Holds whole := by
        cases kind with
        | single => exact Number.Format.Holds.double_of_single held
        | double => exact held
      exact (FloatKind.meaning?_store_iff (Number.meaning?_ofInt_iff.mpr double)).mpr held
  | @float source own real stored held =>
    refine ⟨_, convert_float_float host wanted real stored, rfl, ?_⟩
    by_cases same : source = target
    · subst same
      cases stored.symm.trans wanted
      rw [if_pos rfl]
      exact ⟨held meaning, fun _ => denoted⟩
    · rw [if_neg same]
      exact FloatKind.meaning?_store_iff denoted

/-- The greatest unsigned word that is a double keeps its value in a named type of doubles. -/
theorem floating_point_exact_iff_held_greatest :
    (Value.int (.int .uint64) 0xfffffffffffff800).IsHeld ∧
      Sample.celsius.underlying = .float .double ∧
      ∃ result, (Value.int (.int .uint64) 0xfffffffffffff800).convert Sample.host Sample.celsius =
        .ok result ∧ result.meaning? = some (.exact 0xfffffffffffff800) := by
  have number : (Value.int (.int .uint64) 0xfffffffffffff800).IsHeld := .int rfl (by decide)
  obtain ⟨result, converted, _, same, _⟩ :=
    floating_point_exact_iff_held Sample.host _ Sample.celsius number rfl rfl
  refine ⟨number, rfl, result, converted, same.mpr ?_⟩
  exact ⟨0x1fffffffffffff, 11, by decide, by decide, by decide, by norm_num⟩

/-- The first integer that is no double becomes the one before it, and a tenth is another number in
single precision. -/
theorem conversions_change_numbers :
    (∃ result, (Value.ofInt 9007199254740993).convert Sample.host .double = .ok result ∧
      result.meaning? = some (.exact 9007199254740992)) ∧
    ∃ result, (Value.ofFloat 0.1).convert Sample.host (.float .single) = .ok result ∧
      result.meaning? ≠ (Value.ofFloat 0.1).meaning? := by
  have neighbour : Number.unpack (Number.ofInt 9007199254740993) =
      .finite false 0x10000000000000 1 := by decide +kernel
  have tenth : Number.unpack 0.1 = .finite false 0x1999999999999a (-56) := by decide +kernel
  have single : Number.unpack (Number.toSingle 0.1) = .finite false 0x199999a0000000 (-56) := by
    decide +kernel
  refine ⟨⟨_, convert_int_float Sample.host rfl _ rfl, ?_⟩,
    ⟨_, convert_float_float Sample.host rfl _ rfl, ?_⟩⟩
  · change (Number.unpack (Number.ofInt 9007199254740993)).meaning? = _
    rw [neighbour]
    norm_num [Number.Unpacked.meaning?, Number.dyadic, Number.signed]
  · change (Number.unpack (Number.toSingle 0.1)).meaning? ≠ (Number.unpack 0.1).meaning?
    rw [tenth, single]
    norm_num [Number.Unpacked.meaning?, Number.dyadic, Number.signed]

end Value

end Covenant
