import Covenant.Sample
import Covenant.Value.Conversion

/-!
# Integers in other types

An integer is converted through a 64-bit word with the sign of its own type, then through a word
with the sign of the other type, and it is stored when cutting the word to that type's width changes
nothing. This keeps exactly the integers that both types hold.
-/

set_option autoImplicit false

namespace Covenant

namespace IntKind

/-!
## Words cut to a width
-/

def unused (kind : IntKind) : Nat := 64 - kind.bits

/-- Moving a signed word up and down again is multiplication within the word and division. -/
theorem toInt_shiftRight_shiftLeft (kind : IntKind) (word : Int64) :
    ((word <<< Int64.ofNat kind.unused) >>> Int64.ofNat kind.unused).toInt =
      (word.toInt * (Nat.pow 2 kind.unused : Nat)).bmod 0x10000000000000000 /
        (Nat.pow 2 kind.unused : Nat) := by
  have amount : (Int64.ofNat kind.unused).toBitVec.smod 64 = BitVec.ofNat 64 kind.unused := by
    cases kind <;> decide
  have places : (BitVec.ofNat 64 kind.unused).toNat = kind.unused :=
    Nat.mod_eq_of_lt (by unfold unused; omega)
  have value : word.toInt = (word.toBitVec.toNat : Int).bmod 0x10000000000000000 :=
    BitVec.toInt_eq_toNat_bmod word.toBitVec
  rw [← Int64.toInt_toBitVec, Int64.toBitVec_shiftRight, Int64.toBitVec_shiftLeft, amount,
    BitVec.sshiftRight_eq', BitVec.toInt_sshiftRight, BitVec.shiftLeft_eq', places,
    BitVec.toInt_shiftLeft, Int.shiftRight_eq_div_pow, Nat.shiftLeft_eq, value,
    Int.bmod_mul_bmod, Int.natCast_mul]
  rfl

theorem toNat_shiftRight_shiftLeft (kind : IntKind) (word : UInt64) :
    ((word <<< UInt64.ofNat kind.unused) >>> UInt64.ofNat kind.unused).toNat =
      word.toNat * Nat.pow 2 kind.unused % 0x10000000000000000 / Nat.pow 2 kind.unused := by
  have amount : (UInt64.ofNat kind.unused).toNat % 64 = kind.unused := by cases kind <;> decide
  rw [UInt64.toNat_shiftRight, UInt64.toNat_shiftLeft, amount, Nat.shiftRight_eq_div_pow,
    Nat.shiftLeft_eq]
  rfl

variable {number : Int}

/-- What is multiplied into the upper bits of a signed word comes back exactly from within the
remaining bits. -/
theorem bmod_div_eq_self_iff {factor half : Int} (positive : 0 < factor)
    (whole : half * factor = 0x8000000000000000) :
    (number * factor).bmod 0x10000000000000000 / factor = number ↔
      -half ≤ number ∧ number < half := by
  constructor
  · intro same
    have least : -half * factor ≤ (number * factor).bmod 0x10000000000000000 := by
      have bound := Int.le_bmod (x := number * factor) (m := 0x10000000000000000) (by decide)
      rw [Int.neg_mul, whole]
      omega
    have most : (number * factor).bmod 0x10000000000000000 < half * factor := by
      have bound := Int.bmod_lt (x := number * factor) (m := 0x10000000000000000) (by decide)
      rw [whole]
      omega
    rw [← same]
    exact ⟨Int.le_ediv_of_mul_le positive least, Int.ediv_lt_of_lt_mul positive most⟩
  · rintro ⟨least, most⟩
    have inWord : (number * factor).bmod 0x10000000000000000 = number * factor := by
      have lower := Int.mul_le_mul_of_nonneg_right least (Int.le_of_lt positive)
      have upper := Int.mul_lt_mul_of_pos_right most positive
      rw [Int.neg_mul, whole] at lower
      rw [whole] at upper
      exact Int.bmod_eq_of_le (by omega) (by omega)
    rw [inWord, Int.mul_ediv_cancel number (by omega)]

theorem mod_div_eq_self_iff {number factor size : Nat} (positive : 0 < factor)
    (whole : size * factor = 0x10000000000000000) :
    number * factor % 0x10000000000000000 / factor = number ↔ number < size := by
  rw [← whole, Nat.mul_mod_mul_right, Nat.mul_div_cancel _ positive]
  constructor
  · intro same
    rw [← same]
    refine Nat.mod_lt number (Nat.pos_of_ne_zero ?_)
    rintro rfl
    simp at whole
  · exact Nat.mod_eq_of_lt

/-!
## Words stored in a kind
-/

section

variable {kind : IntKind}

variable {number : Int}

theorem holds_iff : kind.holds number = true ↔ kind.least ≤ number ∧ number ≤ kind.greatest := by
  simp [holds]

theorem holds_iff_of_signed (signed : kind.isSigned = true) :
    kind.holds number = true ↔
      -((Nat.pow 2 (kind.bits - 1) : Nat) : Int) ≤ number ∧
        number < (Nat.pow 2 (kind.bits - 1) : Nat) := by
  simp only [holds_iff, least, greatest, signed, ↓reduceIte]
  omega

theorem holds_iff_of_unsigned (unsigned : kind.isSigned = false) :
    kind.holds number = true ↔ 0 ≤ number ∧ number < (Nat.pow 2 kind.bits : Nat) := by
  simp only [holds_iff, least, greatest, unsigned, Bool.false_eq_true, ↓reduceIte]
  omega

theorem wrap_of_holds (held : kind.holds number = true) : kind.wrap number = number := by
  cases sign : kind.isSigned with
  | true =>
    have doubled : Nat.pow 2 kind.bits = 2 * Nat.pow 2 (kind.bits - 1) := by cases kind <;> rfl
    obtain ⟨least, most⟩ := (holds_iff_of_signed sign).mp held
    rw [wrap, sign, if_pos rfl]
    exact Int.bmod_eq_of_le (by omega) (by omega)
  | false =>
    obtain ⟨least, most⟩ := (holds_iff_of_unsigned sign).mp held
    rw [wrap, sign, if_neg Bool.false_ne_true]
    exact Int.emod_eq_of_lt least most

theorem overflowsSigned_eq_false_iff (signed : kind.isSigned = true) {word : Int64} :
    kind.overflowsSigned word = false ↔ kind.holds word.toInt = true := by
  have positive : (0 : Int) < (Nat.pow 2 kind.unused : Nat) := by cases kind <;> decide
  have whole : ((Nat.pow 2 (kind.bits - 1) : Nat) : Int) * (Nat.pow 2 kind.unused : Nat) =
      0x8000000000000000 := by cases kind <;> rfl
  rw [overflowsSigned, ← unused, bne_eq_false_iff_eq, ← Int64.toInt_inj,
    toInt_shiftRight_shiftLeft, bmod_div_eq_self_iff positive whole, holds_iff_of_signed signed]

theorem overflowsUnsigned_eq_false_iff (unsigned : kind.isSigned = false) {word : UInt64} :
    kind.overflowsUnsigned word = false ↔ kind.holds word.toNat = true := by
  have positive : 0 < Nat.pow 2 kind.unused := by cases kind <;> decide
  have whole : Nat.pow 2 kind.bits * Nat.pow 2 kind.unused = 0x10000000000000000 := by
    cases kind <;> rfl
  rw [overflowsUnsigned, ← unused, bne_eq_false_iff_eq, ← UInt64.toNat_inj,
    toNat_shiftRight_shiftLeft, mod_div_eq_self_iff positive whole,
    holds_iff_of_unsigned unsigned]
  omega

/-- What is stored only where cutting changes nothing is stored as it was. -/
theorem stored_eq {cut : Bool} {number : Int} (uncut : cut = false ↔ kind.holds number = true) :
    (if cut then none else some (kind.wrap number)) =
      if kind.holds number then some number else none := by
  cases cut with
  | true =>
    have outside : ¬kind.holds number = true := fun held => Bool.true_eq_false.mp (uncut.mpr held)
    rw [if_pos rfl, if_neg outside]
  | false =>
    have held := uncut.mp rfl
    rw [if_neg Bool.false_ne_true, if_pos held, wrap_of_holds held]

theorem storeSigned?_eq (signed : kind.isSigned = true) (word : Int64) :
    kind.storeSigned? word = if kind.holds word.toInt then some word.toInt else none :=
  stored_eq (overflowsSigned_eq_false_iff signed)

theorem storeUnsigned?_eq (unsigned : kind.isSigned = false) (word : UInt64) :
    kind.storeUnsigned? word =
      if kind.holds word.toNat then some (word.toNat : Int) else none :=
  stored_eq (overflowsUnsigned_eq_false_iff unsigned)

/-!
## Words of a kind
-/

theorem toInt_ofInt (signed : kind.isSigned = true) (held : kind.holds number = true) :
    (Int64.ofInt number).toInt = number := by
  have widest : Nat.pow 2 (kind.bits - 1) ≤ 0x8000000000000000 := by cases kind <;> decide
  obtain ⟨least, most⟩ := (holds_iff_of_signed signed).mp held
  exact Int64.toInt_ofInt_of_le (by omega) (by omega)

theorem toNat_ofInt (unsigned : kind.isSigned = false) (held : kind.holds number = true) :
    ((UInt64.ofInt number).toNat : Int) = number := by
  have widest : Nat.pow 2 kind.bits ≤ 0x10000000000000000 := by cases kind <;> decide
  obtain ⟨least, most⟩ := (holds_iff_of_unsigned unsigned).mp held
  have inWord : number % 0x10000000000000000 = number := Int.emod_eq_of_lt least (by omega)
  have small : number.toNat < 0x10000000000000000 := by omega
  have word : UInt64.ofInt number = UInt64.ofNat number.toNat := by
    change UInt64.ofNat (number % 0x10000000000000000).toNat = _
    rw [inWord]
  rw [word, UInt64.toNat_ofNat_of_lt' small]
  omega

end

theorem toNat_toUInt64 {word : Int64} (nonnegative : 0 ≤ word.toInt) :
    (word.toUInt64.toNat : Int) = word.toInt := by
  have ordered : (0 : Int64) ≤ word := Int64.le_iff_toInt_le.mpr nonnegative
  rw [Int64.toNat_toUInt64_of_le ordered]
  exact Int.toNat_of_nonneg nonnegative

theorem toInt_toInt64 {word : UInt64} (low : word.toNat < 0x8000000000000000) :
    word.toInt64.toInt = word.toNat := by
  rw [← Int64.toInt_toBitVec, UInt64.toBitVec_toInt64, BitVec.toInt_eq_toNat_of_lt]
  · rfl
  · change 2 * word.toNat < 0x10000000000000000
    omega

/-- An integer that its own kind holds goes into another kind unchanged, exactly when that kind
holds it too. -/
theorem convert?_eq {source target : IntKind} (held : source.holds number = true) :
    source.convert? target number = if target.holds number then some number else none := by
  unfold convert?
  cases own : source.isSigned with
  | true =>
    have value := toInt_ofInt own held
    cases other : target.isSigned with
    | true =>
      dsimp only
      rw [storeSigned?_eq other, value]
    | false =>
      dsimp only
      by_cases negative : Int64.ofInt number < 0
      · -- No unsigned kind holds what is refused for its sign.
        have below : number < 0 := value ▸ Int64.lt_iff_toInt_lt.mp negative
        have outside : ¬target.holds number = true := by
          rw [holds_iff_of_unsigned other]
          omega
        rw [if_pos negative, if_neg outside]
      · have nonnegative : 0 ≤ (Int64.ofInt number).toInt :=
          Int.not_lt.mp (fun below => negative (Int64.lt_iff_toInt_lt.mpr below))
        rw [if_neg negative, storeUnsigned?_eq other, toNat_toUInt64 nonnegative, value]
  | false =>
    have value := toNat_ofInt own held
    cases other : target.isSigned with
    | true =>
      dsimp only
      by_cases high : 0x7fffffffffffffff < UInt64.ofInt number
      · -- No signed kind holds what is refused for its size.
        have above : 0x7fffffffffffffff < (UInt64.ofInt number).toNat :=
          UInt64.lt_iff_toNat_lt.mp high
        have widest : Nat.pow 2 (target.bits - 1) ≤ 0x8000000000000000 := by
          cases target <;> decide
        have outside : ¬target.holds number = true := by
          rw [holds_iff_of_signed other]
          omega
        rw [if_pos high, if_neg outside]
      · have low : (UInt64.ofInt number).toNat < 0x8000000000000000 := by
          have bounded : ¬0x7fffffffffffffff < (UInt64.ofInt number).toNat :=
            fun above => high (UInt64.lt_iff_toNat_lt.mpr above)
          omega
        rw [if_neg high, storeSigned?_eq other, toInt_toInt64 low, value]
    | false =>
      dsimp only
      rw [storeUnsigned?_eq other, value]

end IntKind

/-!
## Values
-/

namespace HostType

variable {kind : IntKind} {type : HostType}

theorem isNamed_of_int (integer : type.underlying = .int kind) : type.isNamed = true := by
  cases type with
  | int => rfl
  | named => rfl
  | _ => cases integer

theorem isInterface_of_int (integer : type.underlying = .int kind) : type.isInterface = false := by
  rw [isInterface, integer]

end HostType

theorem Host.assignable_int (host : Host) {source target : HostType} {own other : IntKind}
    (stored : source.underlying = .int own) (wanted : target.underlying = .int other) :
    host.assignable source target = decide (source = target) := by
  simp [assignable, HostType.isInterface_of_int wanted, HostType.isNamed_of_int stored,
    HostType.isNamed_of_int wanted]

namespace Value

theorem convert_int (host : Host) {source target : HostType} {own other : IntKind} {number : Int}
    (stored : source.underlying = .int own) (wanted : target.underlying = .int other)
    (held : own.holds number = true) :
    (Value.int source number).convert host target =
      if other.holds number then .ok (.int target number)
      else .error ((Value.int source number).refusal target " without loss") := by
  rw [convert]
  simp only [host.assignable_int stored wanted, decide_eq_true_eq]
  by_cases same : source = target
  · subst same
    cases stored.symm.trans wanted
    rw [if_pos rfl, if_pos held]
  · rw [if_neg same]
    simp only [convertNumber?, wanted, stored, IntKind.convert?_eq held]
    cases other.holds number <;> rfl

/-- An integer of any type converts to another integer type exactly when it is in the range of that
type, and then it is the same integer in that type. -/
theorem integers_convert_exactly (host : Host) (source target : HostType) {own other : IntKind}
    (number : Int) (stored : source.underlying = .int own) (wanted : target.underlying = .int other)
    (least : own.least ≤ number) (greatest : number ≤ own.greatest) :
    ((∃ result, (Value.int source number).convert host target = .ok result) ↔
      other.least ≤ number ∧ number ≤ other.greatest) ∧
    ∀ result, (Value.int source number).convert host target = .ok result →
      result = .int target number := by
  rw [convert_int host stored wanted (IntKind.holds_iff.mpr ⟨least, greatest⟩),
    ← IntKind.holds_iff]
  cases other.holds number with
  | true => simp
  | false => simp

def hashType : HostType := .named "host.Hash" (.int .uint64)

/-- The greatest unsigned word fits a word for addresses, but not a duration, which is signed. -/
theorem integers_convert_exactly_greatest :
    hashType.underlying = .int .uint64 ∧
      (∀ result, (Value.int hashType 0xffffffffffffffff).convert Sample.host (.int .uintptr) =
        .ok result → result = .int (.int .uintptr) 0xffffffffffffffff) ∧
      (∃ result, (Value.int hashType 0xffffffffffffffff).convert Sample.host (.int .uintptr) =
        .ok result) ∧
      ¬∃ result, (Value.int hashType 0xffffffffffffffff).convert Sample.host .duration =
        .ok result := by
  have address := integers_convert_exactly Sample.host hashType (.int .uintptr)
    0xffffffffffffffff rfl rfl (by decide) (by decide)
  have duration := integers_convert_exactly Sample.host hashType .duration
    0xffffffffffffffff rfl rfl (by decide) (by decide)
  exact ⟨rfl, address.2, address.1.mpr (by decide),
    fun fits => absurd (duration.1.mp fits) (by decide)⟩

end Value

end Covenant
