import Covenant.Proofs.Layout

/-!
# Where tokens stand

Every token but the last is the lexeme at its offset, and the next one starts behind it. Literals
other than those of quoted texts are the bytes at the offset, and no word or number could be read
further than it was.
-/

set_option autoImplicit false

namespace Covenant.Condition

open List

variable {offset : Nat} {byte : UInt8} {source text raw more literal : Text} {kind : TokenKind}
  {tokens : List Token}

namespace LexemeForm

theorem literal_eq (form : LexemeForm byte raw more kind literal)
    (other : kind ∉ [.illegal, .endOfText, .textLiteral]) : literal = byte :: raw := by
  cases form with
  | word | number | mark => rfl
  | quoted | unclosed | unknown => exact absurd (by decide) other

theorem stops (form : LexemeForm byte raw more kind literal) :
    (kind.isWordKind = true → more.head?.any continuesName = false) ∧
      (kind.isNumberKind = true → more.head?.any Text.isDigit = false) := by
  have apart : ¬(kind.isWordKind = true ∧ kind.isNumberKind = true) := by cases kind <;> decide
  cases form with
  | word same _ _ stops =>
    exact ⟨fun _ => stops, fun number => absurd ⟨same ▸ isWordKind_wordKind _, number⟩ apart⟩
  | number isNumber _ stops => exact ⟨fun word => absurd ⟨word, isNumber⟩ apart, fun _ => stops⟩
  | mark listed =>
    have each : ∀ entry ∈ marks, ¬entry.2.isWordKind = true ∧ ¬entry.2.isNumberKind = true := by
      decide
    obtain ⟨noWord, noNumber⟩ := each _ listed
    exact ⟨fun word => absurd word noWord, fun number => absurd number noNumber⟩
  | quoted | unclosed | unknown => exact ⟨nofun, nofun⟩

end LexemeForm

/-- How a token stands in the source: what follows it could not have been part of it. -/
structure Token.Stands (source : Text) (token : Token) : Prop where
  inside : token.offset ≤ source.length
  verbatim : token.kind ∉ [.illegal, .endOfText, .textLiteral] → token.literal ≠ [] ∧
    (source.drop token.offset).take token.literal.length = token.literal
  word : token.kind.isWordKind = true →
    source[token.offset + token.literal.length]?.any continuesName = false
  number : token.kind.isNumberKind = true →
    source[token.offset + token.literal.length]?.any Text.isDigit = false

theorem drop_of_drop_eq (here : source.drop offset = raw ++ more) (inside : offset ≤ source.length) :
    source.drop (offset + raw.length) = more ∧ offset + raw.length ≤ source.length := by
  have length := congrArg List.length here
  rw [length_drop, length_append] at length
  rw [← drop_drop, here, drop_left]
  exact ⟨rfl, by omega⟩

theorem stands_endToken (inside : offset ≤ source.length) : (endToken offset).Stands source :=
  ⟨inside, fun other => absurd (by simp [endToken]) other, nofun, nofun⟩

theorem LexemeForm.stands (form : LexemeForm byte raw more kind literal)
    (here : source.drop offset = byte :: raw ++ more) (inside : offset ≤ source.length) :
    (⟨kind, literal, offset⟩ : Token).Stands source := by
  obtain ⟨after, _⟩ := drop_of_drop_eq here inside
  have next (belongs : UInt8 → Bool) (same : literal = byte :: raw)
      (stops : more.head?.any belongs = false) :
      source[offset + literal.length]?.any belongs = false := by
    rwa [same, ← head?_drop, after]
  have known : (kind.isWordKind || kind.isNumberKind) = true →
      kind ∉ [.illegal, .endOfText, .textLiteral] := by cases kind <;> decide
  refine ⟨inside, fun other => ?_, fun word => ?_, fun number => ?_⟩
  · rw [form.literal_eq other, here, take_left]
    exact ⟨cons_ne_nil _ _, rfl⟩
  · exact next _ (form.literal_eq (known (by rw [word]; rfl))) (form.stops.1 word)
  · exact next _ (form.literal_eq (known (by rw [number, Bool.or_true]))) (form.stops.2 number)

theorem Scanned.stands (scanned : Scanned offset text tokens) (here : source.drop offset = text)
    (inside : offset ≤ source.length) :
    tokens.Pairwise (fun left right => left.offset < right.offset) ∧
      ∀ token ∈ tokens, offset ≤ token.offset ∧ token.Stands source := by
  induction scanned with
  | @done offset | @stop offset =>
    refine ⟨pairwise_singleton _ _, fun token member => ?_⟩
    rw [mem_singleton.mp member]
    exact ⟨Nat.le_refl _, stands_endToken inside⟩
  | @blank offset byte rest tokens _ _ ih =>
    have split : source.drop offset = [byte] ++ rest := here
    obtain ⟨after, within⟩ := drop_of_drop_eq split inside
    obtain ⟨increasing, stand⟩ := ih after within
    refine ⟨increasing, fun token member => ?_⟩
    exact ⟨Nat.le_of_succ_le (stand token member).1, (stand token member).2⟩
  | @token offset byte raw more kind literal tokens _ _ found _ ih =>
    have form := lexeme_form (congrArg Lexeme.length found)
    rw [found] at form
    have split : source.drop offset = byte :: raw ++ more := here
    obtain ⟨after, within⟩ := drop_of_drop_eq split inside
    obtain ⟨increasing, stand⟩ := ih after within
    have later (token : Token) (member : token ∈ tokens) : offset < token.offset :=
      Nat.lt_of_lt_of_le (Nat.lt_add_of_pos_right (Nat.succ_pos _)) (stand token member).1
    refine ⟨pairwise_cons.mpr ⟨later, increasing⟩, ?_⟩
    rw [forall_mem_cons]
    exact ⟨⟨Nat.le_refl _, form.stands here inside⟩, fun token member =>
      ⟨Nat.le_of_lt (later token member), (stand token member).2⟩⟩

/-- Every source is scanned to its end: the last token says so and no other does, tokens stand in
order, and each stands for the bytes at its offset. -/
theorem tokens_faithful_to_source (source : Text) :
    (∃ tokens ending, scan source = tokens ++ [endToken ending] ∧
      ∀ token ∈ tokens, token.kind ≠ .endOfText) ∧
    (scan source).Pairwise (fun left right => left.offset < right.offset) ∧
    ∀ token ∈ scan source, token.Stands source := by
  obtain ⟨increasing, stand⟩ := (scanned 0 source).stands rfl (Nat.zero_le _)
  exact ⟨(scanned 0 source).ends, increasing, fun token member => (stand token member).2⟩

/-- `.5e+1.x` is a number, a dot and a name. -/
theorem tokens_faithful_to_source_number :
    (⟨.floatLiteral, [46, 53, 101, 43, 49], 0⟩ : Token).Stands [46, 53, 101, 43, 49, 46, 120] :=
  (tokens_faithful_to_source [46, 53, 101, 43, 49, 46, 120]).2.2 _ (by decide)

end Covenant.Condition
