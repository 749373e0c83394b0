import Covenant.Proofs.Desugaring
import Covenant.Proofs.Layout

/-!
# Nothing is left out

Every byte of a condition is a blank or belongs to a token as long as the text has no zero byte; a
zero byte ends the text, and what follows it is left out of a condition that is accepted all the
same.
-/

set_option autoImplicit false

namespace Covenant.Condition

open List

/-- The position is among the bytes of the text that spell the token. -/
def Token.Holds (token : Token) (text : Text) (position : Nat) : Prop :=
  ∃ raw, Spells token.kind token.literal raw ∧ raw <+: text.drop token.offset ∧
    token.offset ≤ position ∧ position < token.offset + raw.length

/-- Every byte of the text is a blank or belongs to one of the tokens. -/
def Covered (text : Text) (tokens : List Token) : Prop :=
  ∀ position byte, text[position]? = some byte →
    isBlank byte = true ∨ ∃ token ∈ tokens, token.Holds text position

theorem Covered.zero_not_mem {text : Text} {tokens : List Token} (covered : Covered text tokens) :
    0 ∉ text := by
  intro member
  obtain ⟨position, found⟩ := mem_iff_getElem?.mp member
  rcases covered position 0 found with blank | ⟨token, _, raw, spells, ⟨rest, split⟩, low, high⟩
  · cases blank
  · refine spells.zero_not_mem (mem_iff_getElem?.mpr ⟨position - token.offset, ?_⟩)
    have inside : position - token.offset < raw.length := by omega
    rw [← List.getElem?_append_left inside, split, List.getElem?_drop, Nat.add_sub_cancel' low]
    exact found

theorem Laid.holds {offset : Nat} {text rest : Text} {tokens : List Token}
    (laid : Laid offset rest tokens) (here : text.drop offset = rest) {position : Nat}
    {byte : UInt8} (low : offset ≤ position) (found : text[position]? = some byte) :
    isBlank byte = true ∨ ∃ token ∈ tokens, token.Holds text position := by
  have dropped (text : Text) (offset : Nat) (raw more : Text)
      (here : text.drop offset = raw ++ more) : text.drop (offset + raw.length) = more := by
    rw [← drop_drop, here, drop_left]
  induction laid with
  | @done offset =>
    rw [drop_eq_nil_iff] at here
    rw [List.getElem?_eq_none (Nat.le_trans here low)] at found
    cases found
  | @blank offset first rest tokens blank _ ih =>
    rcases Nat.eq_or_lt_of_le low with rfl | later
    · have first : text[offset]? = some first := by
        rw [← Nat.add_zero offset, ← List.getElem?_drop, here]
        rfl
      rw [first] at found
      cases found
      exact .inl blank
    · exact ih (dropped text offset [first] rest here) later
  | @token offset first raw more kind literal tokens nonzero inked lexed legal _ ih =>
    by_cases inside : position < offset + (raw.length + 1)
    · have spells := lexeme_spells lexed legal
      refine .inr ⟨_, mem_cons_self, first :: raw, spells, ?_, low, inside⟩
      dsimp only
      rw [here]
      exact prefix_append (first :: raw) more
    · rcases ih (dropped text offset (first :: raw) more here) (Nat.le_of_not_lt inside) with
        blank | ⟨token, member, holds⟩
      · exact .inl blank
      · exact .inr ⟨token, mem_cons_of_mem _ member, holds⟩

theorem laid_of_parse {text : Text} {expr : Expr} (parsed : parse text = .ok expr)
    (noZero : 0 ∉ text) :
    ∃ tokens, scan text = tokens ++ [endToken text.length] ∧ Laid 0 text tokens ∧
      Derives .expression tokens expr := by
  obtain ⟨tokens, scanned, inside, laid⟩ := scanFrom_laid 0 text noZero
  rw [Nat.zero_add] at scanned
  have derived := parse_eq_ok_iff.mp parsed
  rw [scan, scanned, sentence_append inside rfl] at derived
  refine ⟨tokens, scanned, laid fun token member illegal => ?_, derived⟩
  have proper := derived.proper token member
  rw [illegal] at proper
  cases proper

theorem zero_mem_implicationText_iff {premise consequence : Text} :
    0 ∈ implicationText premise consequence ↔ 0 ∈ consequence ∨ 0 ∈ premise := by
  rw [implicationText_eq_framed, mem_framed_iff (by decide) (by decide) (by decide) (by decide)]

theorem zero_mem_spelled_iff {text spelled : Text} (spells : Spelled text spelled) :
    0 ∈ spelled ↔ 0 ∈ text := by
  cases spells with
  | same _ => rfl
  | implied _ =>
    have sign : 0 ∉ arrow := by decide
    simp [zero_mem_implicationText_iff, sign, or_comm]
  | equivalent =>
    have sign : 0 ∉ doubleArrow := by decide
    rw [conjunctionText_eq_framed, mem_framed_iff (by decide) (by decide) (by decide) (by decide),
      zero_mem_implicationText_iff, zero_mem_implicationText_iff]
    simp [sign, or_comm]

theorem zero_mem_desugar_iff {mode : Mode} {source : Text} {plain : Plain}
    (desugared : desugar mode source = .ok plain) : 0 ∈ plain.text ↔ 0 ∈ source := by
  obtain ⟨named, spelled, returns, implications, _, rfl⟩ := desugar_eq_ok_iff.mp desugared
  obtain ⟨rfl, _⟩ := spellReturns_eq_ok_iff.mp returns
  rw [mem_spellBackticks_iff (by decide) (by decide) (by decide),
    zero_mem_spelled_iff (spellImplications_spelled implications), mem_nameReturns_iff rfl]

/-- The tokens of an accepted condition stand for all of its text exactly when the condition was
written without zero bytes. -/
theorem tokens_cover_text_iff {mode : Mode} {source : Text} {condition : Condition}
    (compiled : compile mode source = .ok condition) :
    ((scan condition.plain).getLast? = some ⟨.endOfText, [], condition.plain.length⟩ ∧
      Covered condition.plain (scan condition.plain)) ↔ 0 ∉ source := by
  obtain ⟨plain, expr, desugared, parsed, rfl⟩ := compile_eq_ok_iff.mp compiled
  rw [← zero_mem_desugar_iff desugared]
  constructor
  · rintro ⟨_, covered⟩
    exact covered.zero_not_mem
  · intro noZero
    obtain ⟨tokens, scanned, laid, _⟩ := laid_of_parse parsed noZero
    dsimp only
    rw [scanned]
    refine ⟨List.getLast?_concat, fun position byte found => ?_⟩
    rcases laid.holds rfl (Nat.zero_le position) found with blank | ⟨token, member, holds⟩
    · exact .inl blank
    · exact .inr ⟨token, List.mem_append_left _ member, holds⟩

/-- In `x>'a b'` the quoted text is one token, and the blank in it belongs to that token. -/
theorem tokens_cover_text_iff_quoted :
    Covered [120, 62, 39, 97, 32, 98, 39] (scan [120, 62, 39, 97, 32, 98, 39]) := by
  have compiled : compile .precondition [120, 62, 39, 97, 32, 98, 39] =
      .ok ⟨[120, 62, 39, 97, 32, 98, 39], [120, 62, 39, 97, 32, 98, 39], 0,
        .comparison (.name [120] 0) [(.greater, .literal (.text [97, 32, 98]))]⟩ := rfl
  exact ((tokens_cover_text_iff compiled).mpr (by decide)).2

/-- `x`, a zero byte and ` and False` are accepted as `x` alone. -/
theorem zero_byte_hides_conjunct :
    ∃ condition : Condition,
      compile .precondition [120, 0, 32, 97, 110, 100, 32, 70, 97, 108, 115, 101] = .ok condition ∧
        condition.expr = .name [120] 0 ∧ condition.plain.length = 12 ∧
        (scan condition.plain).getLast? = some ⟨.endOfText, [], 1⟩ :=
  ⟨_, rfl, rfl, rfl, rfl⟩

end Covenant.Condition
