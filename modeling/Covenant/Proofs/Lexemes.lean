import Covenant.Proofs.Grammar
import Covenant.Proofs.Order
import Mathlib.Logic.Basic

/-!
# Lexemes

A lexeme takes bytes off the front of the text: a quoted text with its quotes, or bytes that are the
literal itself. A closing parenthesis after them never belongs to it.
-/

set_option autoImplicit false

namespace Covenant.Condition

open List

def isQuote (byte : UInt8) : Bool := byte == 34 || byte == 39

def isPlainByte (byte : UInt8) : Bool := byte != 0 && !isBlank byte && !isQuote byte

namespace TokenKind

def isWordKind (kind : TokenKind) : Bool := (.name :: reservedWords.map (·.2)).contains kind

def isNumberKind (kind : TokenKind) : Bool := kind == .intLiteral || kind == .floatLiteral

theorem proper_of {kind : TokenKind} (known : (kind.isWordKind || kind.isNumberKind) = true) :
    kind.proper = true ∧ kind ≠ .textLiteral := by
  revert known
  cases kind <;> decide

end TokenKind

/-- The bytes stand for a token of the given kind and literal. -/
inductive Spells : TokenKind → Text → Text → Prop where
  | itself {kind literal} : kind.proper = true → kind ≠ .textLiteral → literal ≠ [] →
      (∀ byte ∈ literal, isPlainByte byte = true) → Spells kind literal literal
  | quoted {quote value body} : isQuote quote = true →
      quotedBody quote (body ++ [quote]) = (some value, body.length + 1) →
      Spells .textLiteral value (quote :: (body ++ [quote]))

variable {byte : UInt8} {text rest more raw : Text} {α : Type}

theorem isPlainByte_iff :
    isPlainByte byte = true ↔ byte ≠ 0 ∧ isBlank byte = false ∧ isQuote byte = false := by
  simp [isPlainByte, and_assoc]

@[elab_as_elim] theorem forall_byte {holds : UInt8 → Prop} (each : ∀ number < 256, holds (.ofNat number))
    (byte : UInt8) : holds byte := by
  have own := each byte.toNat byte.toNat_lt
  rwa [UInt8.ofNat_toNat] at own

theorem isPlainByte_of_continuesName : continuesName byte = true → isPlainByte byte = true :=
  forall_byte (by decide +kernel) byte

/-!
## Quoted texts
-/

section

variable {quote byte escaped : UInt8} {rest : Text}

theorem quotedBody_quote (nonzero : quote ≠ 0) :
    quotedBody quote (quote :: rest) = (some [], 1) := by
  rw [quotedBody.eq_def]
  dsimp only
  rw [if_neg nonzero, if_pos rfl]

theorem quotedBody_byte (nonzero : byte ≠ 0) (noQuote : byte ≠ quote) (noEscape : byte ≠ 92) :
    quotedBody quote (byte :: rest) =
      ((quotedBody quote rest).1.map (byte :: ·), (quotedBody quote rest).2 + 1) := by
  rw [quotedBody.eq_def]
  dsimp only
  rw [if_neg nonzero, if_neg noQuote, if_neg noEscape]

/-- What a backslash and the byte after it stand for. -/
def escapeMeaning (escaped : UInt8) : Text :=
  if escaped = 110 then [10]
  else if escaped = 116 then [9]
  else if escaped = 92 ∨ escaped = 39 ∨ escaped = 34 then [escaped]
  else [92, escaped]

theorem quotedBody_escape (noQuote : 92 ≠ quote) (nonzero : escaped ≠ 0) :
    quotedBody quote (92 :: escaped :: rest) =
      ((quotedBody quote rest).1.map (escapeMeaning escaped ++ ·),
        (quotedBody quote rest).2 + 2) := by
  rw [quotedBody, if_neg (by decide), if_neg noQuote, if_pos rfl]
  dsimp only
  rw [if_neg nonzero]
  rfl

end

theorem quotedBody_length_le (quote : UInt8) (text : Text) :
    (quotedBody quote text).2 ≤ text.length := by
  fun_induction quotedBody quote text <;> simp_all

theorem quotedBody_eq_some {quote : UInt8} {value : Text} {length : Nat}
    (closed : quotedBody quote text = (some value, length)) :
    ∃ body rest, text = body ++ quote :: rest ∧ length = body.length + 1 ∧ 0 ∉ body ∧
      ∀ more, quotedBody quote (body ++ quote :: more) = (some value, length) := by
  fun_induction quotedBody quote text generalizing value length with
  | case1 | case2 | case4 | case5 => cases closed
  | case3 rest nonzero =>
    cases closed
    exact ⟨[], rest, rfl, rfl, not_mem_nil, fun more => quotedBody_quote nonzero⟩
  | case6 escaped rest nonzero found taken run meaning _ noQuote =>
    rename_i ih
    rw [Prod.mk.injEq, Option.map_eq_some_iff] at closed
    obtain ⟨⟨inner, rfl, rfl⟩, rfl⟩ := closed
    obtain ⟨body, after, rfl, rfl, noZero, closes⟩ := ih run
    refine ⟨92 :: escaped :: body, after, rfl, rfl, ?_, fun more => ?_⟩
    · simp [noZero, Ne.symm nonzero]
    · rw [cons_append, cons_append, quotedBody_escape noQuote nonzero, closes more]
      rfl
  | case7 byte rest nonzero noQuote noEscape found taken run ih =>
    rw [Prod.mk.injEq, Option.map_eq_some_iff] at closed
    obtain ⟨⟨inner, rfl, rfl⟩, rfl⟩ := closed
    obtain ⟨body, after, rfl, rfl, noZero, closes⟩ := ih run
    refine ⟨byte :: body, after, rfl, rfl, ?_, fun more => ?_⟩
    · simp [noZero, Ne.symm nonzero]
    · rw [cons_append, quotedBody_byte nonzero noQuote noEscape, closes more]
      rfl

theorem quotedBody_closed {quote : UInt8} {body value : Text}
    (closed : quotedBody quote (body ++ [quote]) = (some value, body.length + 1)) :
    0 ∉ body ∧
      ∀ more, quotedBody quote (body ++ quote :: more) = (some value, body.length + 1) := by
  obtain ⟨inner, rest, split, length, noZero, closes⟩ := quotedBody_eq_some closed
  obtain ⟨rfl, _⟩ := append_inj split (Nat.succ.inj length)
  exact ⟨noZero, closes⟩

/-!
## Numbers and words
-/

theorem takeWhile_append_cons (p : α → Bool) {stop : α} (stops : p stop = false)
    (front rest : List α) : (front ++ stop :: rest).takeWhile p = front.takeWhile p := by
  induction front with
  | nil => simp [stops]
  | cons head tail ih =>
    rw [cons_append, takeWhile_cons, takeWhile_cons, ih]

theorem head?_drop_takeWhile (belongs : UInt8 → Bool) (text : Text) :
    (text.drop (text.takeWhile belongs).length).head?.any belongs = false := by
  induction text with
  | nil => rfl
  | cons byte rest ih =>
    rw [takeWhile_cons]
    split
    · exact ih
    · next other => simpa using other

def isNumberByte (byte : UInt8) : Bool :=
  Text.isDigit byte || byte == 46 || byte == 101 || byte == 69 || byte == 43 || byte == 45

/-- A part of a number is empty, or bytes of its own with all digits behind them. -/
def NumberPart (text part : Text) : Prop :=
  part = [] ∨ ∃ lead rest, text = lead ++ rest ∧ part = lead ++ leadingDigits rest ∧
    ∀ byte ∈ lead, isNumberByte byte = true

theorem numberPart_leadingDigits (text : Text) : NumberPart text (leadingDigits text) :=
  .inr ⟨[], text, rfl, rfl, nofun⟩

theorem numberPart_fractionPart (afterDigits : Bool) (text : Text) :
    NumberPart text (fractionPart afterDigits text) := by
  unfold fractionPart
  split
  · next rest =>
    split
    · exact .inr ⟨[46], rest, rfl, rfl, all_eq_true.mp rfl⟩
    · exact .inl rfl
  · exact .inl rfl

theorem numberPart_exponentPart (text : Text) : NumberPart text (exponentPart text) := by
  unfold exponentPart
  split
  · next letter mark rest =>
    split
    · next isLetter =>
      split
      · refine .inr ⟨[letter], mark :: rest, rfl, rfl, ?_⟩
        rcases isLetter with rfl | rfl <;> exact all_eq_true.mp rfl
      · split
        · next isSign =>
          refine .inr ⟨[letter, mark], rest, rfl, rfl, ?_⟩
          rcases isLetter with rfl | rfl <;> rcases isSign with rfl | rfl <;>
            exact all_eq_true.mp rfl
        · exact .inl rfl
    · exact .inl rfl
  · exact .inl rfl

namespace NumberPart

variable {part : Text} (isPart : NumberPart text part)

include isPart

theorem isPrefix : part <+: text := by
  rcases isPart with rfl | ⟨lead, rest, rfl, rfl, _⟩
  · exact nil_prefix
  · exact (prefix_append_right_inj lead).mpr ( takeWhile_prefix _)

theorem isNumberByte (member : byte ∈ part) : isNumberByte byte = true := by
  rcases isPart with rfl | ⟨lead, rest, rfl, rfl, leads⟩
  · cases member
  · rcases mem_append.mp member with inLead | inDigits
    · exact leads byte inLead
    · have digit : Text.isDigit byte = true := all_eq_true.mp all_takeWhile byte inDigits
      rw [Condition.isNumberByte, digit]
      rfl

theorem stops (noDigit : text.head?.any Text.isDigit = false) :
    (text.drop part.length).head?.any Text.isDigit = false := by
  rcases isPart with rfl | ⟨lead, rest, rfl, rfl, _⟩
  · exact noDigit
  · rw [length_append, ← drop_drop, drop_left]
    exact head?_drop_takeWhile _ _

end NumberPart

theorem append_isPrefix {first second text : List α} (isFirst : first <+: text)
    (isSecond : second <+: text.drop first.length) : first ++ second <+: text := by
  obtain ⟨rest, rfl⟩ := isFirst
  rw [drop_left] at isSecond
  exact (prefix_append_right_inj first).mpr isSecond

theorem numberLexeme_spec (text : Text) :
    (numberLexeme text).literal <+: text ∧
      (∀ byte ∈ (numberLexeme text).literal, isNumberByte byte = true) ∧
      (text.drop (numberLexeme text).literal.length).head?.any Text.isDigit = false := by
  have whole := numberPart_leadingDigits text
  have fraction := numberPart_fractionPart (!(leadingDigits text).isEmpty)
    (text.drop (leadingDigits text).length)
  unfold numberLexeme
  dsimp only
  generalize fractionPart _ _ = point at fraction ⊢
  have exponent := numberPart_exponentPart (text.drop ((leadingDigits text).length + point.length))
  refine ⟨append_isPrefix (append_isPrefix whole.isPrefix fraction.isPrefix) ?_, ?_, ?_⟩
  · rw [length_append]
    exact exponent.isPrefix
  · intro byte member
    rcases mem_append.mp member with member | inExponent
    · rcases mem_append.mp member with inWhole | inFraction
      · exact whole.isNumberByte inWhole
      · exact fraction.isNumberByte inFraction
    · exact exponent.isNumberByte inExponent
  · have stops := fraction.stops (head?_drop_takeWhile _ _)
    rw [drop_drop] at stops
    rw [length_append, length_append, ← drop_drop]
    exact exponent.stops stops

theorem leadingDigits_append (text more : Text) :
    leadingDigits (text ++ 41 :: more) = leadingDigits text :=
  takeWhile_append_cons _ (by decide) text more

theorem fractionPart_append (afterDigits : Bool) (text more : Text) :
    fractionPart afterDigits (text ++ 41 :: more) = fractionPart afterDigits text := by
  cases text with
  | nil => rfl
  | cons byte rest =>
    by_cases point : byte = 46
    · subst point
      rw [cons_append, fractionPart, fractionPart, leadingDigits_append]
    · rw [cons_append, fractionPart.eq_def, fractionPart.eq_def]
      grind

theorem exponentPart_append (text more : Text) :
    exponentPart (text ++ 41 :: more) = exponentPart text := by
  cases text with
  | nil =>
    cases more <;> rfl
  | cons letter rest =>
    cases rest with
    | nil =>
      simp only [cons_append, nil_append, exponentPart]
      split <;> rfl
    | cons mark rest =>
      have digits :
          leadingDigits (mark :: (rest ++ 41 :: more)) = leadingDigits (mark :: rest) :=
        leadingDigits_append (mark :: rest) more
      rw [cons_append, cons_append, exponentPart, exponentPart, digits,
        leadingDigits_append]

theorem numberLexeme_append (text more : Text) :
    numberLexeme (text ++ 41 :: more) = numberLexeme text := by
  have whole := (numberPart_leadingDigits text).isPrefix
  have both := append_isPrefix whole
    (numberPart_fractionPart (!(leadingDigits text).isEmpty) _).isPrefix
  have fits := both.length_le
  rw [length_append] at fits
  unfold numberLexeme
  simp only [leadingDigits_append, drop_append_of_le_length whole.length_le,
    fractionPart_append, drop_append_of_le_length fits, exponentPart_append]

theorem wordLexeme_append (text more : Text) :
    wordLexeme (text ++ 41 :: more) = wordLexeme text := by
  have word : (text ++ 41 :: more).takeWhile continuesName = text.takeWhile continuesName :=
    takeWhile_append_cons _ (by decide) text more
  simp only [wordLexeme, word]

/-!
## Any lexeme
-/

theorem lookup_marks_pair {second : UInt8} (absent : ∀ entry ∈ marks, second ∉ entry.1.tail) :
    marks.lookup [byte, second] = none := by
  cases found : marks.lookup [byte, second] with
  | none => rfl
  | some kind => exact absurd mem_cons_self (absent _ (Bindings.mem_of_lookup found))

theorem lexeme_append (legal : (lexeme byte rest).kind ≠ .illegal) (more : Text) :
    lexeme byte (rest ++ 41 :: more) = lexeme byte rest := by
  have number := numberLexeme_append (byte :: rest) more
  have word := wordLexeme_append (byte :: rest) more
  have pair : marks.lookup [byte, (rest ++ 41 :: more).headD 0] =
      marks.lookup [byte, rest.headD 0] := by
    cases rest with
    | nil =>
      change marks.lookup [byte, 41] = marks.lookup [byte, 0]
      rw [lookup_marks_pair (by decide), lookup_marks_pair (by decide)]
    | cons second others => rfl
  have digit : Text.isDigit ((rest ++ 41 :: more).headD 0) = Text.isDigit (rest.headD 0) := by
    cases rest <;> rfl
  rw [cons_append] at number word
  unfold lexeme at legal ⊢
  simp only [pair, digit, number, word]
  cases double : marks.lookup [byte, rest.headD 0] with
  | some kind =>
    cases rest with
    | nil => cases (lookup_marks_pair (by decide)).symm.trans double
    | cons second others => rfl
  | none =>
    simp only [double] at legal ⊢
    by_cases numeric : (Text.isDigit byte || (byte == 46 && Text.isDigit (rest.headD 0))) = true
    · simp only [numeric, ↓reduceIte]
    · simp only [numeric] at legal ⊢
      cases single : marks.lookup [byte] with
      | some kind => rfl
      | none =>
        simp only [single] at legal ⊢
        by_cases quote : byte = 34 ∨ byte = 39
        · simp only [quote, ↓reduceIte] at legal ⊢
          cases closed : quotedBody byte rest with
          | mk value length =>
            rw [closed] at legal
            cases value with
            | none => exact absurd rfl legal
            | some value =>
              obtain ⟨body, after, rfl, _, _, closes⟩ := quotedBody_eq_some closed
              rw [append_assoc, cons_append, closes]
        · simp only [quote, ↓reduceIte]

/-- What a lexeme is made of: the bytes that it takes, and what stands behind them. -/
inductive LexemeForm (byte : UInt8) (raw more : Text) : TokenKind → Text → Prop where
  | word {kind} : kind = wordKind (byte :: raw) → Text.isLetter byte = true →
      (∀ other ∈ byte :: raw, continuesName other = true) →
      more.head?.any continuesName = false → LexemeForm byte raw more kind (byte :: raw)
  | number {kind} : kind.isNumberKind = true → (∀ other ∈ byte :: raw, isNumberByte other = true) →
      more.head?.any Text.isDigit = false → LexemeForm byte raw more kind (byte :: raw)
  | mark {kind} : (byte :: raw, kind) ∈ marks → LexemeForm byte raw more kind (byte :: raw)
  | quoted {body value} : isQuote byte = true → raw = body ++ [byte] →
      quotedBody byte (body ++ [byte]) = (some value, body.length + 1) →
      LexemeForm byte raw more .textLiteral value
  | unclosed {literal} : isQuote byte = true → LexemeForm byte raw more .illegal literal
  | unknown {literal} : raw = [] → isQuote byte = false → LexemeForm byte raw more .illegal literal

theorem isWordKind_wordKind (word : Text) : (wordKind word).isWordKind = true := by
  have each : ∀ entry ∈ reservedWords, entry.2.isWordKind = true := by decide
  unfold wordKind
  cases found : reservedWords.lookup word with
  | none => decide
  | some kind => exact each _ (Bindings.mem_of_lookup found)

theorem exists_cons_of_isPrefix {literal : Text} (isPrefix : literal <+: byte :: rest)
    (inhabited : literal ≠ []) : ∃ raw more, literal = byte :: raw ∧ rest = raw ++ more := by
  obtain ⟨more, split⟩ := isPrefix
  cases literal with
  | nil => exact absurd rfl inhabited
  | cons first raw =>
    obtain ⟨rfl, rfl⟩ := List.cons.inj split
    exact ⟨raw, more, rfl, rfl⟩

theorem numberLexeme_ne_nil
    (numeric : (Text.isDigit byte || (byte == 46 && Text.isDigit (rest.headD 0))) = true) :
    (numberLexeme (byte :: rest)).literal ≠ [] := by
  unfold numberLexeme
  cases digit : Text.isDigit byte with
  | true => simp [leadingDigits, digit]
  | false =>
    simp only [digit, Bool.false_or, Bool.and_eq_true, beq_iff_eq] at numeric
    obtain ⟨rfl, second⟩ := numeric
    cases rest with
    | nil => cases second
    | cons other more =>
      change Text.isDigit other = true at second
      have point : Text.isDigit 46 = false := rfl
      simp [leadingDigits, point, fractionPart, second]

/-- A lexeme takes bytes off the front. -/
theorem lexeme_spec (byte : UInt8) (rest : Text) :
    ∃ raw more, rest = raw ++ more ∧ (lexeme byte rest).length = raw.length + 1 ∧
      LexemeForm byte raw more (lexeme byte rest).kind (lexeme byte rest).literal := by
  unfold lexeme
  dsimp only
  split
  · next kind double =>
    cases rest with
    | nil => cases (lookup_marks_pair (by decide)).symm.trans double
    | cons second more => exact ⟨[second], more, rfl, rfl, .mark (Bindings.mem_of_lookup double)⟩
  split
  · next numeric =>
    obtain ⟨isPrefix, bytes, stops⟩ := numberLexeme_spec (byte :: rest)
    have kind : (numberLexeme (byte :: rest)).kind.isNumberKind = true := by
      unfold numberLexeme
      dsimp only
      split <;> decide
    obtain ⟨raw, more, literal, rfl⟩ :=
      exists_cons_of_isPrefix isPrefix (numberLexeme_ne_nil numeric)
    have length : (numberLexeme (byte :: (raw ++ more))).length = raw.length + 1 :=
      congrArg List.length literal
    rw [literal] at bytes stops ⊢
    rw [length_cons, drop_succ_cons, drop_left] at stops
    exact ⟨raw, more, rfl, length, .number kind bytes stops⟩
  split
  · next single => exact ⟨[], rest, rfl, rfl, .mark (Bindings.mem_of_lookup single)⟩
  split
  · next quote =>
    have isQuote : isQuote byte = true := by
      rcases quote with rfl | rfl <;> rfl
    split
    · next closed =>
      obtain ⟨body, more, rfl, rfl, _, closes⟩ := quotedBody_eq_some closed
      exact ⟨body ++ [byte], more, by simp, by simp, .quoted isQuote rfl (closes [])⟩
    · next length unclosed =>
      have fits := quotedBody_length_le byte rest
      rw [unclosed] at fits
      refine ⟨rest.take length, rest.drop length, (take_append_drop _ _).symm, ?_,
        .unclosed isQuote⟩
      rw [length_take, Nat.min_eq_left fits]
  · next noQuote =>
    split
    · next letter =>
      have begins : continuesName byte = true := by
        rw [continuesName, letter]
        rfl
      have word : (byte :: rest).takeWhile continuesName =
          byte :: rest.takeWhile continuesName := takeWhile_cons_of_pos begins
      have bytes := all_eq_true.mp (all_takeWhile (p := continuesName) (l := byte :: rest))
      have stops := head?_drop_takeWhile continuesName (byte :: rest)
      obtain ⟨more, split⟩ := takeWhile_prefix continuesName (l := rest)
      rw [word, length_cons, drop_succ_cons] at stops
      simp only [wordLexeme, word] at bytes ⊢
      generalize rest.takeWhile continuesName = raw at *
      subst split
      rw [drop_left] at stops
      exact ⟨raw, more, rfl, rfl, .word rfl letter bytes stops⟩
    · refine ⟨[], rest, rfl, rfl, .unknown rfl ?_⟩
      simpa [isQuote] using noQuote

theorem lexeme_form (length : (lexeme byte (raw ++ more)).length = raw.length + 1) :
    LexemeForm byte raw more (lexeme byte (raw ++ more)).kind
      (lexeme byte (raw ++ more)).literal := by
  obtain ⟨taken, left, split, sameLength, form⟩ := lexeme_spec byte (raw ++ more)
  obtain ⟨rfl, rfl⟩ := append_inj split (Nat.succ.inj (length.symm.trans sameLength))
  exact form

/-- The bytes of a legal lexeme spell it; an illegal one is a quoted text without an end or a single
byte. -/
theorem LexemeForm.spells {kind : TokenKind} {literal : Text}
    (form : LexemeForm byte raw more kind literal) :
    Spells kind literal (byte :: raw) ∨ kind = .illegal ∧ (isQuote byte = true ∨ raw = []) := by
  cases form with
  | word same _ bytes _ =>
    obtain ⟨proper, noText⟩ := TokenKind.proper_of
      (Bool.or_eq_true_iff.mpr (.inl (same ▸ isWordKind_wordKind _)))
    exact .inl <| .itself proper noText (cons_ne_nil _ _) fun other member =>
      isPlainByte_of_continuesName (bytes other member)
  | number isNumber bytes _ =>
    obtain ⟨proper, noText⟩ := TokenKind.proper_of (Bool.or_eq_true_iff.mpr (.inr isNumber))
    have plain : ∀ other, isNumberByte other = true → isPlainByte other = true :=
      forall_byte (by decide +kernel)
    exact .inl <| .itself proper noText (cons_ne_nil _ _) fun other member =>
      plain other (bytes other member)
  | mark listed =>
    have each : ∀ entry ∈ marks, entry.2.proper = true ∧ entry.2 ≠ .textLiteral ∧
        entry.1.all isPlainByte = true := by decide
    obtain ⟨proper, noText, plain⟩ := each _ listed
    exact .inl (.itself proper noText (cons_ne_nil _ _) (all_eq_true.mp plain))
  | quoted isQuote split closed =>
    rw [split]
    exact .inl (.quoted isQuote closed)
  | unclosed isQuote => exact .inr ⟨rfl, .inl isQuote⟩
  | unknown alone _ => exact .inr ⟨rfl, .inr alone⟩

namespace Spells

variable {kind : TokenKind} {literal raw : Text}

theorem proper (spells : Spells kind literal raw) : kind.proper = true := by
  cases spells with
  | itself proper _ _ _ => exact proper
  | quoted _ _ => rfl

theorem zero_not_mem (spells : Spells kind literal raw) : 0 ∉ raw := by
  cases spells with
  | itself _ _ _ plain =>
    intro member
    cases plain 0 member
  | @quoted quote value body isQuote closed =>
    have nonzero : quote ≠ 0 := by
      rintro rfl
      cases isQuote
    simp [(quotedBody_closed closed).1, Ne.symm nonzero]

end Spells

theorem lexeme_kind_ne_endOfText (byte : UInt8) (rest : Text) :
    (lexeme byte rest).kind ≠ .endOfText := by
  intro ended
  obtain ⟨raw, more, _, _, form⟩ := lexeme_spec byte rest
  rw [ended] at form
  rcases form.spells with spells | ⟨illegal, _⟩
  · cases spells.proper
  · cases illegal

theorem lexeme_spells {literal : Text} {kind : TokenKind}
    (found : lexeme byte (raw ++ more) = ⟨kind, literal, raw.length + 1⟩)
    (legal : kind ≠ .illegal) : Spells kind literal (byte :: raw) := by
  have form := lexeme_form (congrArg Lexeme.length found)
  rw [found] at form
  exact form.spells.resolve_right fun illegal => legal illegal.1

theorem lexeme_quoted {quote : UInt8} {value : Text} {length : Nat} (isQuote : isQuote quote = true)
    (closed : quotedBody quote rest = (some value, length)) :
    lexeme quote rest = ⟨.textLiteral, value, length + 1⟩ := by
  have either : quote = 34 ∨ quote = 39 := by simpa [Condition.isQuote] using isQuote
  have double : marks.lookup [quote, rest.headD 0] = none := by
    rcases either with rfl | rfl <;> rfl
  have noNumber : (Text.isDigit quote || (quote == 46 && Text.isDigit (rest.headD 0))) = false := by
    rcases either with rfl | rfl <;> rfl
  have single : marks.lookup [quote] = none := by
    rcases either with rfl | rfl <;> rfl
  unfold lexeme
  dsimp only
  rw [double, noNumber, single, if_neg Bool.false_ne_true, if_pos either, closed]

theorem lexeme_plain (noQuote : isQuote byte = false) (rest : Text) :
    ∃ raw more, rest = raw ++ more ∧ (lexeme byte rest).length = raw.length + 1 ∧
      (lexeme byte rest).kind ≠ .textLiteral ∧ ∀ other ∈ raw, isPlainByte other = true := by
  obtain ⟨raw, more, split, length, form⟩ := lexeme_spec byte rest
  refine ⟨raw, more, split, length, ?_⟩
  generalize (lexeme byte rest).kind = kind, (lexeme byte rest).literal = literal at form
  rcases form.spells with spells | ⟨rfl, quote | rfl⟩
  · generalize taken : byte :: raw = bytes at spells
    cases spells with
    | itself _ other _ plain =>
      rw [← taken, forall_mem_cons] at plain
      exact ⟨other, plain.2⟩
    | quoted quote _ =>
      obtain ⟨rfl, _⟩ := List.cons.inj taken
      rw [noQuote] at quote
      cases quote
  · rw [noQuote] at quote
    cases quote
  · exact ⟨nofun, nofun⟩

theorem lexeme_kind_of_ends_less {literal front : Text} {kind : TokenKind}
    (found : lexeme byte (raw ++ more) = ⟨kind, literal, raw.length + 1⟩) (legal : kind ≠ .illegal)
    (ends : byte :: raw = front ++ [60]) : kind = .less := by
  have form := lexeme_form (congrArg Lexeme.length found)
  rw [found] at form
  have last : (byte :: raw).getLast? = some 60 := by
    rw [ends, List.getLast?_concat]
  cases form with
  | word _ _ bytes _ | number _ bytes _ => cases bytes 60 (mem_of_getLast? last)
  | mark listed =>
    have each : ∀ entry ∈ marks, entry.1.getLast? = some 60 → entry.2 = .less := by decide
    exact each _ listed last
  | quoted isQuote split _ =>
    rw [split, ← cons_append, List.getLast?_concat] at last
    cases last
    cases isQuote
  | unclosed _ | unknown _ _ => exact absurd rfl legal

end Covenant.Condition
