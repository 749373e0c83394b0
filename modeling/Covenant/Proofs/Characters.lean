import Covenant.Text

/-!
# Characters of texts

The bytes of a code point are read as that code point, whatever follows them, and bytes that are
read as a valid character are those of its code point. So the valid texts are the bytes of code
points, and these are found again.
-/

set_option autoImplicit false

namespace Covenant.Text

open List

/-- A code point that has bytes of its own: in range, and no half of a surrogate pair. -/
def IsScalar (point : Nat) : Prop := point < 0x110000 ∧ ¬ (0xD800 ≤ point ∧ point < 0xE000)

instance (point : Nat) : Decidable (IsScalar point) := inferInstanceAs (Decidable (_ ∧ _))

variable {point more : Nat} {points : List Nat} {first : UInt8} {text rest : Text}

/-!
## One character
-/

theorem toNat_ofNat {number : Nat} (small : number < 256) :
    (UInt8.ofNat number).toNat = number :=
  UInt8.toNat_ofNat_of_lt' small

theorem isContinuation_iff {byte : UInt8} :
    isContinuation byte = true ↔ 0x80 ≤ byte.toNat ∧ byte.toNat ≤ 0xBF := by
  simp [isContinuation, UInt8.le_iff_toNat_le]

theorem isContinuation_of_sixBits {byte : UInt8} {number : Nat}
    (carries : byte.toNat = 0x80 + number % 64) : isContinuation byte = true := by
  rw [isContinuation_iff]
  omega

/-- The bytes of a code point. The lead byte tells their number, and each byte behind it carries six
bits. -/
inductive Spells (point : Nat) : UInt8 → Text → Prop where
  | one {first : UInt8} (range : point < 0x80) (lead : first.toNat = point) : Spells point first []
  | two {first second : UInt8} (range : 0x80 ≤ point ∧ point < 0x800)
      (lead : first.toNat = 0xC0 + point / 64) (low : second.toNat = 0x80 + point % 64) :
      Spells point first [second]
  | three {first second third : UInt8} (range : 0x800 ≤ point ∧ point < 0x10000)
      (noSurrogate : ¬ (0xD800 ≤ point ∧ point < 0xE000))
      (lead : first.toNat = 0xE0 + point / 4096) (middle : second.toNat = 0x80 + point / 64 % 64)
      (low : third.toNat = 0x80 + point % 64) : Spells point first [second, third]
  | four {first second third fourth : UInt8} (range : 0x10000 ≤ point ∧ point < 0x110000)
      (lead : first.toNat = 0xF0 + point / 262144)
      (high : second.toNat = 0x80 + point / 4096 % 64)
      (middle : third.toNat = 0x80 + point / 64 % 64) (low : fourth.toNat = 0x80 + point % 64) :
      Spells point first [second, third, fourth]

theorem exists_spells (scalar : IsScalar point) : ∃ first tail, Spells point first tail := by
  obtain ⟨inRange, noSurrogate⟩ := scalar
  by_cases ascii : point < 0x80
  · exact ⟨_, _, .one ascii (toNat_ofNat (by omega))⟩
  by_cases short : point < 0x800
  · exact ⟨_, _, .two (by omega) (toNat_ofNat (by omega)) (toNat_ofNat (by omega))⟩
  by_cases medium : point < 0x10000
  · exact ⟨_, _, .three (by omega) noSurrogate (toNat_ofNat (by omega)) (toNat_ofNat (by omega))
      (toNat_ofNat (by omega))⟩
  · exact ⟨_, _, .four (by omega) (toNat_ofNat (by omega)) (toNat_ofNat (by omega))
      (toNat_ofNat (by omega)) (toNat_ofNat (by omega))⟩

namespace Spells

variable {tail : Text}

theorem isScalar (spells : Spells point first tail) : IsScalar point := by
  cases spells <;> exact ⟨by omega, by omega⟩

theorem ofCodePoint_eq (spells : Spells point first tail) : ofCodePoint point = first :: tail := by
  have sameByte {number : Nat} {byte : UInt8} (same : byte.toNat = number) :
      UInt8.ofNat number = byte := same ▸ UInt8.ofNat_toNat
  unfold ofCodePoint
  cases spells with
  | one range lead => rw [if_pos range, sameByte lead]
  | two range lead low =>
    rw [if_neg (by omega), if_pos range.2, sameByte lead, sameByte low]
  | three range noSurrogate lead middle low =>
    rw [if_neg (by omega), if_neg (by omega), if_neg (by omega), if_pos range.2, sameByte lead,
      sameByte middle, sameByte low]
  | four range lead high middle low =>
    rw [if_neg (by omega), if_neg (by omega), if_neg (by omega), if_neg (by omega),
      sameByte lead, sameByte high, sameByte middle, sameByte low]

theorem decodeFrom_eq (spells : Spells point first tail) (rest : Text) :
    decodeFrom first (tail ++ rest) = (⟨point, true⟩, tail.length) := by
  unfold decodeFrom
  cases spells with
  | one range lead =>
    rw [lead, if_pos range]
    rfl
  | two range lead low =>
    have continued := isContinuation_of_sixBits low
    have value : (0xC0 + point / 64 - 0xC0) * 64 + (0x80 + point % 64 - 0x80) = point := by omega
    simp only [cons_append, lead, low, continued, ↓reduceIte]
    rw [if_neg (by omega), if_neg (by omega), if_pos (by omega), value]
    rfl
  | three range noSurrogate lead middle low =>
    have continued := isContinuation_of_sixBits low
    have bounds : (if 0xE0 + point / 4096 = 0xE0 then 0xA0 else 0x80) ≤ 0x80 + point / 64 % 64 ∧
        0x80 + point / 64 % 64 ≤ (if 0xE0 + point / 4096 = 0xED then 0x9F else 0xBF) := by
      split <;> split <;> omega
    have value : (0xE0 + point / 4096 - 0xE0) * 4096 + (0x80 + point / 64 % 64 - 0x80) * 64
        + (0x80 + point % 64 - 0x80) = point := by omega
    simp only [cons_append, lead, middle, low, continued, and_true]
    rw [if_neg (by omega), if_neg (by omega), if_neg (by omega), if_pos (by omega),
      if_pos bounds, value]
    rfl
  | four range lead high middle low =>
    have continued := isContinuation_of_sixBits middle
    have lastContinued := isContinuation_of_sixBits low
    have bounds :
        (if 0xF0 + point / 262144 = 0xF0 then 0x90 else 0x80) ≤ 0x80 + point / 4096 % 64 ∧
        0x80 + point / 4096 % 64 ≤ (if 0xF0 + point / 262144 = 0xF4 then 0x8F else 0xBF) := by
      split <;> split <;> omega
    have value : (0xF0 + point / 262144 - 0xF0) * 262144
        + (0x80 + point / 4096 % 64 - 0x80) * 4096 + (0x80 + point / 64 % 64 - 0x80) * 64
        + (0x80 + point % 64 - 0x80) = point := by omega
    simp only [cons_append, lead, high, middle, low, continued, lastContinued, and_true]
    rw [if_neg (by omega), if_neg (by omega), if_neg (by omega), if_neg (by omega),
      if_pos (by omega), if_pos bounds, value]
    rfl

theorem toNat_of_mem {byte : UInt8} (spells : Spells point first tail)
    (member : byte ∈ first :: tail) : byte.toNat = point ∨ 0x80 ≤ byte.toNat := by
  cases spells with
  | one range lead =>
    rw [mem_singleton] at member
    exact .inl (member ▸ lead)
  | two range lead low =>
    simp only [mem_cons, not_mem_nil, or_false] at member
    rcases member with rfl | rfl <;> omega
  | three range noSurrogate lead middle low =>
    simp only [mem_cons, not_mem_nil, or_false] at member
    rcases member with rfl | rfl | rfl <;> omega
  | four range lead high middle low =>
    simp only [mem_cons, not_mem_nil, or_false] at member
    rcases member with rfl | rfl | rfl | rfl <;> omega

end Spells

theorem spells_of_decodeFrom (decoded : decodeFrom first rest = (⟨point, true⟩, more)) :
    Spells point first (rest.take more) := by
  unfold decodeFrom at decoded
  extract_lets lead broken low high lowest highest at decoded
  have notBroken : ¬ broken = (⟨point, true⟩, more) := by simp [broken]
  split at decoded
  · next ascii =>
    simp only [Prod.mk.injEq, Decoded.mk.injEq, and_true] at decoded
    obtain ⟨rfl, rfl⟩ := decoded
    exact .one ascii rfl
  split at decoded
  · exact absurd decoded notBroken
  split at decoded
  · split at decoded
    · next second others =>
      split at decoded
      · next continued =>
        rw [isContinuation_iff] at continued
        simp only [Prod.mk.injEq, Decoded.mk.injEq, and_true] at decoded
        obtain ⟨value, rfl⟩ := decoded
        exact .two (by omega) (show lead = _ by omega) (by omega)
      · exact absurd decoded notBroken
    · exact absurd decoded notBroken
  split at decoded
  · split at decoded
    · next second third others =>
      split at decoded
      · next inside =>
        obtain ⟨least, most, continued⟩ := inside
        rw [isContinuation_iff] at continued
        simp only [Prod.mk.injEq, Decoded.mk.injEq, and_true] at decoded
        obtain ⟨value, rfl⟩ := decoded
        have leastBound : 0x80 ≤ low ∧ (lead = 0xE0 → low = 0xA0) := by
          unfold low
          split <;> omega
        have mostBound : high ≤ 0xBF ∧ (lead = 0xED → high = 0x9F) := by
          unfold high
          split <;> omega
        clear_value low high
        exact .three (by omega) (by omega) (show lead = _ by omega) (by omega) (by omega)
      · exact absurd decoded notBroken
    · exact absurd decoded notBroken
  split at decoded
  · split at decoded
    · next second third fourth others =>
      split at decoded
      · next inside =>
        obtain ⟨least, most, continued, lastContinued⟩ := inside
        rw [isContinuation_iff] at continued lastContinued
        simp only [Prod.mk.injEq, Decoded.mk.injEq, and_true] at decoded
        obtain ⟨value, rfl⟩ := decoded
        have leastBound : 0x80 ≤ lowest ∧ (lead = 0xF0 → lowest = 0x90) := by
          unfold lowest
          split <;> omega
        have mostBound : highest ≤ 0xBF ∧ (lead = 0xF4 → highest = 0x8F) := by
          unfold highest
          split <;> omega
        clear_value lowest highest
        exact .four (by omega) (show lead = _ by omega) (by omega) (by omega) (by omega)
      · exact absurd decoded notBroken
    · exact absurd decoded notBroken
  · exact absurd decoded notBroken

/-!
## Whole texts
-/

theorem decodeAux_eq_decode_drop (skip : Nat) (text : Text) :
    decodeAux skip text = decode (text.drop skip) := by
  induction text generalizing skip with
  | nil =>
    rw [drop_nil]
    cases skip <;> rfl
  | cons byte text ih =>
    cases skip with
    | zero => rfl
    | succ skip => exact ih skip

theorem decode_cons (first : UInt8) (rest : Text) :
    decode (first :: rest) = ((decodeFrom first rest).1, first) ::
      decode (rest.drop (decodeFrom first rest).2) := by
  rw [← decodeAux_eq_decode_drop]
  rfl

theorem decode_ofCodePoint_append (scalar : IsScalar point) (rest : Text) :
    (decode (ofCodePoint point ++ rest)).map Prod.fst =
      ⟨point, true⟩ :: (decode rest).map Prod.fst := by
  obtain ⟨first, tail, spells⟩ := exists_spells scalar
  rw [spells.ofCodePoint_eq, cons_append, decode_cons, spells.decodeFrom_eq, drop_left]
  rfl

theorem decode_ofCodePoints (scalars : ∀ point ∈ points, IsScalar point) :
    (decode (ofCodePoints points)).map Prod.fst = points.map (⟨·, true⟩) := by
  induction points with
  | nil => rfl
  | cons point points ih =>
    rw [forall_mem_cons] at scalars
    rw [ofCodePoints, flatMap_cons, decode_ofCodePoint_append scalars.1, map_cons]
    exact congrArg _ (ih scalars.2)

theorem codePoints_ofCodePoints (scalars : ∀ point ∈ points, IsScalar point) :
    codePoints (ofCodePoints points) = points := by
  have read := congrArg (List.map Decoded.point) (decode_ofCodePoints scalars)
  rw [map_map, map_map] at read
  exact read.trans (map_id points)

theorem isValid_iff :
    isValid text = true ↔
      ∃ points, (∀ point ∈ points, IsScalar point) ∧ text = ofCodePoints points := by
  constructor
  · intro valid
    induction length : text.length using Nat.strongRecOn generalizing text with
    | ind size ih =>
      cases text with
      | nil => exact ⟨[], by simp, rfl⟩
      | cons first rest =>
        rw [isValid, decode_cons, all_cons, Bool.and_eq_true] at valid
        obtain ⟨firstValid, restValid⟩ := valid
        cases read : decodeFrom first rest with
        | mk decoded more =>
          obtain ⟨point, _⟩ := decoded
          rw [read] at firstValid restValid
          cases firstValid
          have spells := spells_of_decodeFrom read
          have shorter : (rest.drop more).length < size := by
            rw [← length, length_drop, length_cons]
            omega
          obtain ⟨points, scalars, same⟩ := ih _ shorter restValid rfl
          refine ⟨point :: points, ?_, ?_⟩
          · exact forall_mem_cons.mpr ⟨spells.isScalar, scalars⟩
          · rw [ofCodePoints, flatMap_cons, spells.ofCodePoint_eq, ← ofCodePoints,
              ← same, cons_append, take_append_drop]
  · rintro ⟨points, scalars, rfl⟩
    have read := congrArg (List.all · Decoded.valid) (decode_ofCodePoints scalars)
    rw [all_map, all_map] at read
    exact read.trans (by simp)

/-!
## White space
-/

theorem decodeFrom_ascii (ascii : first.toNat < 0x80) (rest : Text) :
    decodeFrom first rest = (⟨first.toNat, true⟩, 0) :=
  if_pos ascii

/-- A text that begins with a character other than white space is not empty when trimmed. -/
theorem isEmpty_trim_of_head (ascii : first.toNat < 0x80)
    (visible : isSpacePoint first.toNat = false) : (trim (first :: rest)).isEmpty = false := by
  have cut : characters (first :: rest) = [first] :: charactersAux rest.length rest := by
    rw [characters, length_cons, charactersAux, decodeFrom_ascii ascii]
    rfl
  have noSpace : ¬ isSpaceCharacter [first] = true := by
    rw [isSpaceCharacter, decodeFrom_ascii ascii]
    simp [visible]
  rw [trim, cut, dropWhile_cons_of_neg noSpace, reverse_cons, dropWhile_append]
  split
  · rw [dropWhile_cons_of_neg noSpace]
    rfl
  · rw [reverse_append]
    rfl

end Covenant.Text
