import Covenant.Proofs.Lexemes

/-!
# How tokens lie in a text

A text without zero bytes is laid out as blanks and lexemes from its first byte to its last. Where
the text stands further to the right and a closing parenthesis follows it, only the offsets move.
-/

set_option autoImplicit false

namespace Covenant.Condition

open List

def endToken (offset : Nat) : Token := ⟨.endOfText, [], offset⟩

/-- The token somewhere further to the right. -/
def Token.moved (distance : Nat) (token : Token) : Token :=
  { token with offset := token.offset + distance }

section

variable {offset : Nat} {byte : UInt8} {rest raw more : Text}

theorem scanFrom_skip (offset : Nat) (raw more : Text) :
    scanFrom offset raw.length (raw ++ more) = scanFrom (offset + raw.length) 0 more := by
  induction raw generalizing offset with
  | nil => rfl
  | cons byte rest ih =>
    rw [length_cons, cons_append, scanFrom, ih, Nat.add_right_comm, Nat.add_assoc]

theorem scanFrom_blank (nonzero : byte ≠ 0) (blank : isBlank byte = true) :
    scanFrom offset 0 (byte :: rest) = scanFrom (offset + 1) 0 rest := by
  rw [scanFrom, if_neg nonzero, if_pos blank]

theorem scanFrom_lexeme (offset : Nat) (nonzero : byte ≠ 0) (inked : isBlank byte = false)
    (length : (lexeme byte (raw ++ more)).length = raw.length + 1) :
    scanFrom offset 0 (byte :: (raw ++ more)) =
      ⟨(lexeme byte (raw ++ more)).kind, (lexeme byte (raw ++ more)).literal, offset⟩ ::
        scanFrom (offset + (raw.length + 1)) 0 more := by
  rw [scanFrom, if_neg nonzero, inked, if_neg Bool.false_ne_true]
  dsimp only
  rw [length, Nat.add_sub_cancel, scanFrom_skip, Nat.add_right_comm, Nat.add_assoc]

theorem isBlank_ne_zero (blank : isBlank byte = true) : byte ≠ 0 := by
  rintro rfl
  cases blank

end

/-- How a text is scanned from an offset on: to its end or to a zero byte, over blanks and
lexemes. -/
inductive Scanned : Nat → Text → List Token → Prop where
  | done {offset} : Scanned offset [] [endToken offset]
  | stop {offset rest} : Scanned offset (0 :: rest) [endToken offset]
  | blank {offset byte rest tokens} : isBlank byte = true → Scanned (offset + 1) rest tokens →
      Scanned offset (byte :: rest) tokens
  | token {offset byte raw more kind literal tokens} : byte ≠ 0 → isBlank byte = false →
      lexeme byte (raw ++ more) = ⟨kind, literal, raw.length + 1⟩ →
      Scanned (offset + (raw.length + 1)) more tokens →
      Scanned offset (byte :: (raw ++ more)) (⟨kind, literal, offset⟩ :: tokens)

theorem scanned (offset : Nat) (text : Text) : Scanned offset text (scanFrom offset 0 text) := by
  -- A lexeme takes several bytes at once, so the induction is on the length of what is left.
  induction length : text.length using Nat.strongRecOn generalizing offset text with
  | ind size ih =>
    cases text with
    | nil => exact .done
    | cons byte rest =>
      by_cases zero : byte = 0
      · subst zero
        exact .stop
      cases blank : isBlank byte with
      | true =>
        rw [scanFrom_blank zero blank]
        exact .blank blank (ih rest.length (by rw [← length]; exact Nat.lt_succ_self _) _ rest rfl)
      | false =>
        obtain ⟨raw, more, rfl, taken, _⟩ := lexeme_spec byte rest
        rw [scanFrom_lexeme offset zero blank taken]
        refine .token zero blank (by rw [← taken]) (ih more.length ?_ _ more rfl)
        rw [← length, length_cons, length_append]
        omega

theorem Scanned.ends {offset : Nat} {text : Text} {tokens : List Token}
    (scanned : Scanned offset text tokens) :
    ∃ inner ending, tokens = inner ++ [endToken ending] ∧
      ∀ token ∈ inner, token.kind ≠ .endOfText := by
  induction scanned with
  | @done offset | @stop offset => exact ⟨[], offset, rfl, nofun⟩
  | blank _ _ ih => exact ih
  | @token _ byte raw more kind _ _ _ _ found _ ih =>
    obtain ⟨inner, ending, rfl, inside⟩ := ih
    have notEnd := lexeme_kind_ne_endOfText byte (raw ++ more)
    rw [found] at notEnd
    exact ⟨_ :: inner, ending, rfl, forall_mem_cons.mpr ⟨notEnd, inside⟩⟩

/-- From an offset on, the text is blanks and legal lexemes, and these are its tokens. -/
inductive Laid : Nat → Text → List Token → Prop where
  | done {offset} : Laid offset [] []
  | blank {offset byte rest tokens} : isBlank byte = true → Laid (offset + 1) rest tokens →
      Laid offset (byte :: rest) tokens
  | token {offset byte raw more kind literal tokens} : byte ≠ 0 → isBlank byte = false →
      lexeme byte (raw ++ more) = ⟨kind, literal, raw.length + 1⟩ → kind ≠ .illegal →
      Laid (offset + (raw.length + 1)) more tokens →
      Laid offset (byte :: (raw ++ more)) (⟨kind, literal, offset⟩ :: tokens)

/-- Scanning goes over the whole of a text without zero bytes. -/
theorem scanFrom_laid (offset : Nat) (text : Text) (noZero : 0 ∉ text) :
    ∃ tokens, scanFrom offset 0 text = tokens ++ [endToken (offset + text.length)] ∧
      (∀ token ∈ tokens, token.kind ≠ .endOfText) ∧
      ((∀ token ∈ tokens, token.kind ≠ .illegal) → Laid offset text tokens) := by
  have scanned := scanned offset text
  generalize scanFrom offset 0 text = all at scanned
  induction scanned with
  | done => exact ⟨[], rfl, nofun, fun _ => .done⟩
  | stop => exact absurd mem_cons_self noZero
  | blank blank _ ih =>
    obtain ⟨tokens, rfl, inside, laid⟩ := ih fun member => noZero (mem_cons_of_mem _ member)
    refine ⟨tokens, ?_, inside, fun legal => .blank blank (laid legal)⟩
    rw [length_cons, Nat.add_right_comm, Nat.add_assoc]
  | @token offset byte raw more kind literal _ nonzero inked found _ ih =>
    obtain ⟨tokens, rfl, inside, laid⟩ := ih fun member =>
      noZero (mem_cons_of_mem _ (mem_append_right _ member))
    have notEnd := lexeme_kind_ne_endOfText byte (raw ++ more)
    rw [found] at notEnd
    refine ⟨⟨kind, literal, offset⟩ :: tokens, ?_, forall_mem_cons.mpr ⟨notEnd, inside⟩,
      fun legal => ?_⟩
    · rw [length_cons, length_append, cons_append]
      congr 4
      omega
    · rw [forall_mem_cons] at legal
      exact .token nonzero inked found legal.1 (laid legal.2)

namespace Laid

variable {offset : Nat} {text : Text} {tokens : List Token}

theorem scanFrom_append (laid : Laid offset text tokens) (distance : Nat) (more : Text) :
    scanFrom (offset + distance) 0 (text ++ 41 :: more) =
      tokens.map (Token.moved distance) ++
        scanFrom (offset + distance + text.length) 0 (41 :: more) := by
  induction laid with
  | done => rfl
  | @blank offset byte rest tokens blank _ ih =>
    rw [cons_append, scanFrom_blank (isBlank_ne_zero blank) blank, Nat.add_right_comm, ih,
      length_cons]
    congr 2
    omega
  | @token offset byte raw rest kind literal tokens nonzero inked found legal _ ih =>
    have same : lexeme byte (raw ++ (rest ++ 41 :: more)) = ⟨kind, literal, raw.length + 1⟩ := by
      rw [← append_assoc, lexeme_append (by rw [found]; exact legal), found]
    rw [cons_append, append_assoc,
      scanFrom_lexeme _ nonzero inked (by rw [same]), same, Nat.add_right_comm, ih, map_cons,
      cons_append, length_cons, length_append]
    congr 3
    omega

theorem kind_of_ends_less (laid : Laid offset text tokens) {front : Text}
    (ends : text = front ++ [60]) :
    ∃ before last, tokens = before ++ [last] ∧ last.kind = .less := by
  induction laid generalizing front with
  | done => simp at ends
  | @blank offset byte rest tokens blank _ ih =>
    cases front with
    | nil =>
      obtain ⟨rfl, _⟩ := List.cons.inj ends
      cases blank
    | cons first others => exact ih (List.cons.inj ends).2
  | @token offset byte raw more kind literal tokens nonzero inked found legal after ih =>
    rcases eq_nil_or_concat more with rfl | ⟨inner, last, rfl⟩
    · cases after
      rw [append_nil] at ends
      exact ⟨[], _, rfl, lexeme_kind_of_ends_less found legal ends⟩
    · rw [concat_eq_append] at ends ih
      have lastByte : last = 60 := by
        have := congrArg List.getLast? ends
        rw [← append_assoc, ← cons_append, List.getLast?_concat,
          List.getLast?_concat] at this
        exact Option.some.inj this
      subst lastByte
      obtain ⟨before, token, rfl, kind⟩ := ih rfl
      exact ⟨_ :: before, token, rfl, kind⟩

end Laid

end Covenant.Condition
