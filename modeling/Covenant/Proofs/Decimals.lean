import Covenant.Json.Reader
import Covenant.Proofs.Outcome

/-!
# Decimal texts of integers

The text of a number consists of digits and starts with a zero only where the number is zero.
Reading the text of a 64-bit integer gives the integer back, and in a document it is taken up to
its last digit.
-/

set_option autoImplicit false

namespace Covenant

open List

namespace Text

variable {number : Nat}

/-- The last digit of a number stands behind those of a tenth of it. -/
theorem ofNat_eq (number : Nat) :
    ofNat number = if number < 10 then [UInt8.ofNat (48 + number)]
      else ofNat (number / 10) ++ [UInt8.ofNat (48 + number % 10)] := by
  have digit : ∀ value < 10,
      UInt8.ofNat (Nat.digitChar value).toNat = UInt8.ofNat (48 + value) := by
    decide
  rw [ofNat, Nat.toDigits_eq_if (by decide)]
  split
  · next small => rw [map_singleton, digit number small]
  · rw [map_append, map_singleton, digit _ (Nat.mod_lt _ (by decide))]
    rfl

theorem isDigit_ofNat_add {value : Nat} (small : value < 10) :
    isDigit (UInt8.ofNat (48 + value)) = true := by
  have digits : ∀ value < 10, isDigit (UInt8.ofNat (48 + value)) = true := by decide
  exact digits value small

theorem digit_induction {motive : Nat → Prop} (digit : ∀ number < 10, motive number)
    (more : ∀ number, 10 ≤ number → motive (number / 10) → motive number) (number : Nat) :
    motive number := by
  induction number using Nat.strongRecOn with
  | ind number ih =>
    by_cases small : number < 10
    · exact digit number small
    · exact more number (by omega) (ih (number / 10) (by omega))

variable {byte : UInt8}

theorem isDigit_of_mem_ofNat (member : byte ∈ ofNat number) : isDigit byte = true := by
  induction number using digit_induction with
  | digit number small =>
    rw [ofNat_eq, if_pos small, mem_singleton] at member
    exact member ▸ isDigit_ofNat_add small
  | more number large ih =>
    rw [ofNat_eq, if_neg (by omega), mem_append, mem_singleton] at member
    rcases member with earlier | last
    · exact ih earlier
    · exact last ▸ isDigit_ofNat_add (Nat.mod_lt _ (by decide))

theorem ofNat_ne_nil (number : Nat) : ofNat number ≠ [] := by
  rw [ofNat_eq]
  split <;> simp

theorem head?_ofNat_ne (noDigit : isDigit byte = false) : (ofNat number).head? ≠ some byte := by
  intro first
  have digit := isDigit_of_mem_ofNat (mem_of_head? first)
  rw [noDigit] at digit
  cases digit

theorem head?_ofNat (positive : 0 < number) : (ofNat number).head? ≠ some 48 := by
  induction number using digit_induction with
  | digit number small =>
    have digits : ∀ value < 10, 0 < value → some (UInt8.ofNat (48 + value)) ≠ some 48 := by decide
    rw [ofNat_eq, if_pos small]
    exact digits number small positive
  | more number large ih =>
    obtain ⟨first, others, digits⟩ := exists_cons_of_ne_nil (ofNat_ne_nil (number / 10))
    rw [digits] at ih
    rw [ofNat_eq, if_neg (by omega), digits]
    exact ih (by omega)

end Text

namespace Number

variable {number : Nat} {digits : Text}

theorem readUnsigned_ofNat_append (fits : number < 0x10000000000000000) (rest : Text) :
    readUnsigned 0 (Text.ofNat number ++ rest) = readUnsigned number rest := by
  have digitValue : ∀ value < 10, (UInt8.ofNat (48 + value)).toNat - 48 = value := by decide
  induction number using Text.digit_induction generalizing rest with
  | digit number small =>
    rw [Text.ofNat_eq, if_pos small, singleton_append, readUnsigned,
      Text.isDigit_ofNat_add small, digitValue number small]
    simp [show ¬ 0x10000000000000000 ≤ number by omega]
  | more number large ih =>
    have last : number % 10 < 10 := Nat.mod_lt _ (by decide)
    have whole : number / 10 * 10 + number % 10 = number := by omega
    rw [Text.ofNat_eq, if_neg (by omega), append_assoc, ih (by omega),
      singleton_append, readUnsigned, Text.isDigit_ofNat_add last, digitValue _ last, whole]
    simp [show ¬ 0x10000000000000000 ≤ number by omega]

/-- Whether a number is a signed 64-bit integer. -/
def IsWord (number : Int) : Prop := -0x8000000000000000 ≤ number ∧ number < 0x8000000000000000

instance (number : Int) : Decidable (IsWord number) := inferInstanceAs (Decidable (_ ∧ _))

theorem inRange_of_isWord {number : Int} (word : IsWord number) :
    (decide (-0x8000000000000000 ≤ number) && decide (number < 0x8000000000000000)) = true := by
  rw [Bool.and_eq_true, decide_eq_true_eq, decide_eq_true_eq]
  exact word

theorem readInt_negative (inhabited : digits ≠ []) (magnitude : readUnsigned 0 digits = .ok number)
    (word : IsWord (-number)) : readInt (45 :: digits) = .ok (-number) := by
  have notEmpty : ¬ digits.isEmpty = true := by simpa using inhabited
  unfold readInt
  split
  next negative others same =>
  split at same
  · next plus => exact absurd (List.cons.inj plus).1 (by decide)
  · next minus =>
    cases minus
    cases same
    rw [if_neg notEmpty]
    exact bind_eq_ok_iff.mpr ⟨number, magnitude, if_pos (inRange_of_isWord word)⟩
  · next unsigned => exact absurd rfl (unsigned digits)

theorem readInt_positive (inhabited : digits ≠ []) (noPlus : digits.head? ≠ some 43)
    (noMinus : digits.head? ≠ some 45) (magnitude : readUnsigned 0 digits = .ok number)
    (word : IsWord number) : readInt digits = .ok number := by
  have notEmpty : ¬ digits.isEmpty = true := by simpa using inhabited
  unfold readInt
  split
  next negative others same =>
  split at same
  · exact absurd rfl noPlus
  · exact absurd rfl noMinus
  · cases same
    rw [if_neg notEmpty]
    exact bind_eq_ok_iff.mpr ⟨number, magnitude, if_pos (inRange_of_isWord word)⟩

theorem readInt_ofInt {number : Int} (word : IsWord number) :
    readInt (Text.ofInt number) = .ok number := by
  have ⟨least, most⟩ := word
  have magnitude : readUnsigned 0 (Text.ofNat number.natAbs) = .ok number.natAbs := by
    have read := readUnsigned_ofNat_append (show number.natAbs < 0x10000000000000000 by omega) []
    rwa [append_nil] at read
  rw [Text.ofInt]
  split
  · next negative =>
    have same : -(number.natAbs : Int) = number := by omega
    rw [readInt_negative (Text.ofNat_ne_nil _) magnitude (same.symm ▸ word), same]
  · next positive =>
    have same : (number.natAbs : Int) = number := by omega
    rw [readInt_positive (Text.ofNat_ne_nil _) (Text.head?_ofNat_ne (by decide))
      (Text.head?_ofNat_ne (by decide)) magnitude (same.symm ▸ word), same]

end Number

/-!
## Numbers in documents
-/

namespace Json

def EndsNumber (rest : Text) : Prop :=
  ∀ byte ∈ rest.head?, Text.isDigit byte = false ∧ byte ≠ 46 ∧ byte ≠ 101 ∧ byte ≠ 69

variable {rest : Text}

variable {digits source : Text}

theorem takeWhile_digits_append (each : ∀ byte ∈ digits, Text.isDigit byte = true)
    (ends : EndsNumber rest) : (digits ++ rest).takeWhile Text.isDigit = digits := by
  rw [takeWhile_append_of_pos each]
  cases rest with
  | nil => simp
  | cons byte rest => simp [(ends byte rfl).1]

theorem readWhole_ofNat_append (number : Nat) (ends : EndsNumber rest) :
    readWhole (Text.ofNat number ++ rest) = some (Text.ofNat number, rest) := by
  have digits : (Text.ofNat number ++ rest).takeWhile Text.isDigit = Text.ofNat number :=
    takeWhile_digits_append (fun byte => Text.isDigit_of_mem_ofNat) ends
  rcases Nat.eq_zero_or_pos number with rfl | positive
  · rfl
  · unfold readWhole
    split
    · next others same =>
      have first : (Text.ofNat number ++ rest).head? = (Text.ofNat number).head? :=
        List.head?_append_of_ne_nil _ (Text.ofNat_ne_nil number)
      rw [same] at first
      exact absurd first.symm (Text.head?_ofNat positive)
    · have notEmpty : ¬ (Text.ofNat number).isEmpty = true := by
        simpa using Text.ofNat_ne_nil number
      rw [readDigitRun, digits, if_neg notEmpty, drop_left]

theorem readFraction_of_ends (ends : EndsNumber rest) : readFraction rest = some ([], rest) := by
  unfold readFraction
  split
  · exact absurd rfl (ends 46 rfl).2.1
  · rfl

theorem readExponent_of_ends (ends : EndsNumber rest) : readExponent rest = some ([], rest) := by
  cases rest with
  | nil => rfl
  | cons mark rest =>
    obtain ⟨_, _, noSmall, noCapital⟩ := ends mark rfl
    simp [readExponent, noSmall, noCapital]

theorem readNumber_minus (whole : readWhole source = some (digits, rest)) (ends : EndsNumber rest) :
    readNumber (45 :: source) = some (45 :: digits, rest) := by
  simp [readNumber, whole, readFraction_of_ends ends, readExponent_of_ends ends]

theorem readNumber_unsigned (noSign : source.head? ≠ some 45)
    (whole : readWhole source = some (digits, rest)) (ends : EndsNumber rest) :
    readNumber source = some (digits, rest) := by
  unfold readNumber
  split
  next sign unsigned same =>
  split at same
  · exact absurd rfl noSign
  · cases same
    simp [whole, readFraction_of_ends ends, readExponent_of_ends ends]

theorem readNumber_ofInt_append (number : Int) (ends : EndsNumber rest) :
    readNumber (Text.ofInt number ++ rest) = some (Text.ofInt number, rest) := by
  have whole := readWhole_ofNat_append number.natAbs ends
  rw [Text.ofInt]
  split
  · exact readNumber_minus whole ends
  · have noSign : (Text.ofNat number.natAbs ++ rest).head? ≠ some 45 := by
      rw [List.head?_append_of_ne_nil _ (Text.ofNat_ne_nil _)]
      exact Text.head?_ofNat_ne (by decide)
    exact readNumber_unsigned noSign whole ends

end Json

end Covenant
