import Covenant.Proofs.Descent

/-!
# The depth of the descent

The bound on the depth never decides what is read. A function that has not taken a token calls only
functions below it, and there are fewer than sixteen levels; so sixteen steps for each token, and
those for the levels, are enough, and one step more gives the same tree or the same fault.
-/

set_option autoImplicit false

namespace Covenant.Condition

open List

def Phrase.height : Phrase → Nat
  | .primary => 1
  | .postfixForm => 2
  | .powerOperand => 3
  | .signedOperand => 4
  | .product => 5
  | .sum => 6
  | .comparison => 7
  | .negation => 8
  | .conjunction => 9
  | .disjunction => 10
  | .expression => 11
  | .comprehension => 12

theorem Phrase.height_of_tighter? {phrase tighter : Phrase}
    (next : phrase.tighter? = some tighter) :
    phrase.height = tighter.height + 1 ∧ phrase.height ≤ 11 := by
  cases phrase <;> cases next <;> decide

theorem length_tail_of_nextKind {tokens : List Token} {kind : TokenKind}
    (next : nextKind tokens = kind) (inside : kind ≠ .endOfText) :
    tokens.tail.length + 1 = tokens.length := by
  obtain ⟨token, split, _⟩ := eq_cons_of_nextKind next inside
  rw [split]
  rfl

/-- Whether a fault is found in the tokens of a condition and not in the spelling of its text. -/
def SyntaxCause.grammatical : SyntaxCause → Bool
  | .otherCallInPrecondition | .returnInPrecondition | .severalImplications | .tooManyBackticks =>
    false
  | _ => true

/-- One step more gives the same answer, which leaves an end of the tokens or points at one. -/
structure Settles {α : Type} (tokens : List Token) (more outcome : Except Fault (α × List Token)) :
    Prop where
  same : more = outcome
  ends : ∀ value rest, outcome = .ok (value, rest) → rest <:+ tokens
  points : ∀ fault, outcome = .error fault →
    fault.cause.grammatical = true ∧ ∃ rest, rest <:+ tokens ∧ fault.offset = nextOffset rest

namespace Settles

variable {α β : Type} {tokens rest : List Token}
  {more outcome moreElse otherwise : Except Fault (α × List Token)}

theorem ok {value : α} (suffix : rest <:+ tokens) :
    Settles tokens (.ok (value, rest)) (.ok (value, rest)) where
  same := rfl
  ends _ _ same := by
    cases same
    exact suffix
  points := nofun

theorem refused {cause : SyntaxCause} (grammatical : cause.grammatical = true) :
    Settles tokens (refuse tokens cause : Except Fault (α × List Token)) (refuse tokens cause) where
  same := rfl
  ends := nofun
  points _ same := by
    cases same
    exact ⟨grammatical, tokens, suffix_rfl, rfl⟩

theorem within (suffix : rest <:+ tokens) (settles : Settles rest more outcome) :
    Settles tokens more outcome where
  same := settles.same
  ends value rest same := (settles.ends value rest same).trans suffix
  points fault same := by
    obtain ⟨grammatical, rest, inner, offset⟩ := settles.points fault same
    exact ⟨grammatical, rest, inner.trans suffix, offset⟩

theorem tail (settles : Settles tokens.tail more outcome) : Settles tokens more outcome :=
  settles.within (tail_suffix tokens)

theorem bind {next other : α × List Token → Except Fault (β × List Token)}
    (settles : Settles tokens more outcome)
    (after : ∀ value rest, outcome = .ok (value, rest) → rest.length ≤ tokens.length →
      Settles rest (next (value, rest)) (other (value, rest))) :
    Settles tokens (more >>= next) (outcome >>= other) := by
  rw [settles.same]
  cases ended : outcome with
  | error fault =>
    refine ⟨rfl, nofun, fun _ same => ?_⟩
    cases same
    exact settles.points fault ended
  | ok found =>
    have suffix := settles.ends found.1 found.2 ended
    exact (after found.1 found.2 ended suffix.length_le).within suffix

theorem ite {test : Prop} [Decidable test] (yes : test → Settles tokens more outcome)
    (no : ¬test → Settles tokens moreElse otherwise) :
    Settles tokens (if test then more else moreElse) (if test then outcome else otherwise) := by
  split
  · next holds => exact yes holds
  · next fails => exact no fails

end Settles

variable {depth : Nat} {tokens : List Token}

theorem expect_settles (kind : TokenKind) (tokens : List Token) :
    Settles tokens (expect kind tokens) (expect kind tokens) := by
  cases tokens with
  | nil => exact .refused rfl
  | cons token rest => exact .ite (fun _ => .ok (suffix_cons token rest)) fun _ => .refused rfl

theorem numberConstant_settles (value? : Option Literal) (literal : Text) (rest : List Token) :
    Settles rest (numberConstant value? literal rest) (numberConstant value? literal rest) := by
  cases value? with
  | none => exact .refused rfl
  | some value => exact .ok suffix_rfl

/-- What a reader makes of tokens at a depth is not changed by one step more. -/
def SettledAt {α : Type} (reader : Nat → List Token → Except Fault (α × List Token)) (depth : Nat)
    (tokens : List Token) : Prop :=
  Settles tokens (reader (depth + 1) tokens) (reader depth tokens)

/-- The given depth is enough for all tokens that are few enough. -/
structure Steady (depth : Nat) : Prop where
  read : ∀ (phrase : Phrase) {tokens : List Token},
    16 * tokens.length + phrase.height ≤ depth → SettledAt phrase.read depth tokens
  extend : ∀ (phrase : Phrase) {left : Expr} {tokens : List Token},
    16 * tokens.length + 1 ≤ depth → SettledAt (phrase.extend · left) depth tokens
  comparisonLinks : ∀ {tokens : List Token}, 16 * tokens.length + 1 ≤ depth →
    SettledAt comparisonLinks depth tokens
  moreItems : ∀ {closing : TokenKind} {tokens : List Token}, 16 * tokens.length + 1 ≤ depth →
    SettledAt (moreItems · closing) depth tokens
  targetNames : ∀ {tokens : List Token}, 16 * tokens.length + 1 ≤ depth →
    SettledAt targetNames depth tokens
  comprehensionTail : ∀ {element : Expr} {tokens : List Token}, 16 * tokens.length + 1 ≤ depth →
    SettledAt (comprehensionTail · element) depth tokens
  comprehensionConditions : ∀ {tokens : List Token}, 16 * tokens.length + 1 ≤ depth →
    SettledAt comprehensionConditions depth tokens
  enclosed : ∀ {closing : TokenKind} {tokens : List Token}, 16 * tokens.length + 12 ≤ depth →
    SettledAt (enclosed · closing) depth tokens

namespace Steady

section

variable {β : Type}

/-- What is read is shorter, so less depth is needed for what comes after it. -/
theorem read_bind {next other : Expr × List Token → Except Fault (β × List Token)}
    (steady : Steady depth) (phrase : Phrase) (height : Nat) (tall : phrase.height = height)
    (enough : 16 * tokens.length + height ≤ depth)
    (after : ∀ tree rest, rest.length < tokens.length →
      Settles rest (next (tree, rest)) (other (tree, rest))) :
    Settles tokens (phrase.read (depth + 1) tokens >>= next) (phrase.read depth tokens >>= other) :=
  (steady.read phrase (tall ▸ enough)).bind fun tree rest parsed _ =>
    after tree rest (phrase.length_lt_of_read parsed)

theorem expect_bind {kind : TokenKind}
    {next other : Token × List Token → Except Fault (β × List Token)}
    (after : ∀ token rest, tokens = token :: rest →
      Settles rest (next (token, rest)) (other (token, rest))) :
    Settles tokens (expect kind tokens >>= next) (expect kind tokens >>= other) :=
  (expect_settles kind tokens).bind fun token rest expected _ =>
    after token rest (expect_eq_ok_iff.mp expected).1

end

theorem zero : Steady 0 where
  read := by
    intro phrase tokens enough
    cases phrase <;> simp [Phrase.height] at enough
  extend _ _ _ := by omega
  comparisonLinks := by omega
  moreItems := by omega
  targetNames := by omega
  comprehensionTail := by omega
  comprehensionConditions := by omega
  enclosed := by omega

variable (steady : Steady depth)

include steady

variable {phrase tighter : Phrase}

theorem read_joined (joins : phrase.joins = true) (next : phrase.tighter? = some tighter)
    (enough : 16 * tokens.length + phrase.height ≤ depth + 1) :
    SettledAt phrase.read (depth + 1) tokens := by
  have heights := Phrase.height_of_tighter? next
  rw [SettledAt, Phrase.read_of_joins joins next, Phrase.read_of_joins joins next]
  exact steady.read_bind tighter _ rfl (by omega) fun _ _ _ => steady.extend phrase (by omega)

theorem extend_joined {left : Expr} (other : phrase ≠ .postfixForm)
    (enough : 16 * tokens.length + 1 ≤ depth + 1) :
    SettledAt (phrase.extend · left) (depth + 1) tokens := by
  change Settles tokens (phrase.extend (depth + 2) left tokens)
    (phrase.extend (depth + 1) left tokens)
  cases operator : phrase.infixed? (nextKind tokens) with
  | none =>
    rw [Phrase.extend_of_infixed?_eq_none other operator,
      Phrase.extend_of_infixed?_eq_none other operator]
    exact .ok suffix_rfl
  | some node =>
    have inside := Phrase.ne_endOfText_of_infixed? operator
    have taken := length_tail_of_nextKind rfl inside
    obtain ⟨tighter, next⟩ := Phrase.exists_tighter? operator
    have heights := Phrase.height_of_tighter? next
    rw [Phrase.extend_of_infixed?_eq_some next operator,
      Phrase.extend_of_infixed?_eq_some next operator]
    refine .tail ?_
    exact steady.read_bind tighter _ rfl (by omega) fun _ _ _ => steady.extend phrase (by omega)

theorem read_prefixed (leads : phrase.leads = true) (next : phrase.tighter? = some tighter)
    (enough : 16 * tokens.length + phrase.height ≤ depth + 1) :
    SettledAt phrase.read (depth + 1) tokens := by
  have heights := Phrase.height_of_tighter? next
  unfold SettledAt
  cases operator : phrase.prefixed? (nextKind tokens) with
  | none =>
    rw [Phrase.read_of_prefixed?_eq_none leads next operator,
      Phrase.read_of_prefixed?_eq_none leads next operator]
    exact steady.read _ (by omega)
  | some node =>
    have inside := Phrase.ne_endOfText_of_prefixed? operator
    have taken := length_tail_of_nextKind rfl inside
    rw [Phrase.read_of_prefixed?_eq_some operator, Phrase.read_of_prefixed?_eq_some operator]
    exact .tail (steady.read_bind phrase _ rfl (by omega) fun _ _ _ => .ok suffix_rfl)

theorem read_expression (enough : 16 * tokens.length + 11 ≤ depth + 1) :
    SettledAt Phrase.expression.read (depth + 1) tokens := by
  rw [SettledAt, Phrase.read, Phrase.read]
  refine steady.read_bind .disjunction 10 rfl (by omega) fun _ rest _ => ?_
  refine .ite (fun next => .tail ?_) fun _ => .ok suffix_rfl
  have taken := length_tail_of_nextKind next (by decide)
  refine steady.read_bind .disjunction 10 rfl (by omega) fun _ _ shorter => ?_
  refine expect_bind fun word rest split => ?_
  rw [split, length_cons] at shorter
  exact steady.read_bind .expression 11 rfl (by omega) fun _ _ _ =>
    .ok suffix_rfl

theorem read_comparison (enough : 16 * tokens.length + 7 ≤ depth + 1) :
    SettledAt Phrase.comparison.read (depth + 1) tokens := by
  rw [SettledAt, Phrase.read, Phrase.read]
  refine steady.read_bind .sum 6 rfl (by omega) fun _ _ _ => ?_
  exact (steady.comparisonLinks (by omega)).bind fun _ _ _ _ => .ok suffix_rfl

theorem comparisonLinks_step (enough : 16 * tokens.length + 1 ≤ depth + 1) :
    SettledAt Condition.comparisonLinks (depth + 1) tokens := by
  rw [SettledAt, Condition.comparisonLinks, Condition.comparisonLinks]
  cases operator : compareOperator? tokens with
  | none => exact .ok suffix_rfl
  | some marked =>
    obtain ⟨op, afterMark⟩ := marked
    obtain ⟨mark, rfl, spelled⟩ := compareOperator?_spelling operator
    have taken : 1 ≤ mark.length := by
      rw [← length_map (f := Token.kind), spelled]
      cases op <;> decide
    rw [length_append] at enough
    refine .within (suffix_append mark afterMark) ?_
    refine steady.read_bind .sum 6 rfl (by omega) fun _ _ _ => ?_
    exact (steady.comparisonLinks (by omega)).bind fun _ _ _ _ => .ok suffix_rfl

theorem read_powerOperand (enough : 16 * tokens.length + 3 ≤ depth + 1) :
    SettledAt Phrase.powerOperand.read (depth + 1) tokens := by
  rw [SettledAt, Phrase.read, Phrase.read]
  refine steady.read_bind .postfixForm 2 rfl (by omega) fun _ _ _ => ?_
  refine .ite (fun next => .tail ?_) fun _ => .ok suffix_rfl
  have taken := length_tail_of_nextKind next (by decide)
  exact steady.read_bind .signedOperand 4 rfl (by omega) fun _ _ _ =>
    .ok suffix_rfl

theorem read_postfixForm (enough : 16 * tokens.length + 2 ≤ depth + 1) :
    SettledAt Phrase.postfixForm.read (depth + 1) tokens := by
  rw [SettledAt, Phrase.read, Phrase.read]
  exact steady.read_bind .primary 1 rfl (by omega) fun _ _ _ =>
    steady.extend .postfixForm (by omega)

theorem extend_postfixForm {base : Expr} (enough : 16 * tokens.length + 1 ≤ depth + 1) :
    SettledAt (morePostfix · base) (depth + 1) tokens := by
  rw [SettledAt, morePostfix, morePostfix]
  cases next : nextKind tokens
  case openBracket =>
    have taken := length_tail_of_nextKind next (by decide)
    refine .tail (steady.read_bind .expression 11 rfl (by omega)
      fun _ _ shorter => expect_bind fun closing last split => ?_)
    rw [split, length_cons] at shorter
    exact steady.extend .postfixForm (by omega)
  case dot =>
    have taken := length_tail_of_nextKind next (by decide)
    refine .tail (expect_bind fun label last split => ?_)
    rw [split, length_cons] at taken
    exact steady.extend .postfixForm (by omega)
  case openParen =>
    have taken := length_tail_of_nextKind next (by decide)
    refine .tail ((steady.enclosed (by omega)).bind fun _ _ _ shorter => ?_)
    exact steady.extend .postfixForm (by omega)
  all_goals exact .ok suffix_rfl

theorem moreItems_step {closing : TokenKind} (enough : 16 * tokens.length + 1 ≤ depth + 1) :
    SettledAt (Condition.moreItems · closing) (depth + 1) tokens := by
  rw [SettledAt, Condition.moreItems, Condition.moreItems]
  refine .ite (fun next => .ite (fun _ => .ok (tail_suffix tokens)) fun _ => .tail ?_)
    fun _ => .ok suffix_rfl
  have taken := length_tail_of_nextKind next (by decide)
  refine steady.read_bind .expression 11 rfl (by omega) fun _ _ _ => ?_
  exact (steady.moreItems (by omega)).bind fun _ _ _ _ => .ok suffix_rfl

theorem targetNames_step (enough : 16 * tokens.length + 1 ≤ depth + 1) :
    SettledAt Condition.targetNames (depth + 1) tokens := by
  rw [SettledAt, Condition.targetNames, Condition.targetNames]
  refine expect_bind fun target after split => ?_
  rw [split, length_cons] at enough
  refine .ite (fun next => .tail ?_) fun _ => .ok suffix_rfl
  have taken := length_tail_of_nextKind next (by decide)
  exact (steady.targetNames (by omega)).bind fun _ _ _ _ => .ok suffix_rfl

theorem comprehensionConditions_step (enough : 16 * tokens.length + 1 ≤ depth + 1) :
    SettledAt Condition.comprehensionConditions (depth + 1) tokens := by
  rw [SettledAt, Condition.comprehensionConditions, Condition.comprehensionConditions]
  refine .ite (fun next => .tail ?_) fun _ => .ok suffix_rfl
  have taken := length_tail_of_nextKind next (by decide)
  refine steady.read_bind .disjunction 10 rfl (by omega) fun _ _ _ => ?_
  exact (steady.comprehensionConditions (by omega)).bind fun _ _ _ _ => .ok suffix_rfl

theorem comprehensionTail_step {element : Expr} (enough : 16 * tokens.length + 1 ≤ depth + 1) :
    SettledAt (Condition.comprehensionTail · element) (depth + 1) tokens := by
  rw [SettledAt, Condition.comprehensionTail, Condition.comprehensionTail]
  refine expect_bind fun forToken afterFor split => ?_
  rw [split, length_cons] at enough
  refine (steady.targetNames (by omega)).bind fun _ afterTargets _ shorter => ?_
  refine expect_bind fun inToken afterIn split => ?_
  rw [split, length_cons] at shorter
  refine steady.read_bind .disjunction 10 rfl (by omega) fun _ _ _ => ?_
  exact (steady.comprehensionConditions (by omega)).bind fun _ _ _ _ => .ok suffix_rfl

theorem enclosed_step {closing : TokenKind} (enough : 16 * tokens.length + 12 ≤ depth + 1) :
    SettledAt (Condition.enclosed · closing) (depth + 1) tokens := by
  rw [SettledAt, Condition.enclosed, Condition.enclosed]
  refine .ite (fun _ => .ok (tail_suffix tokens)) fun _ => ?_
  refine steady.read_bind .expression 11 rfl (by omega) fun _ _ _ => ?_
  refine .ite (fun _ => ?_) fun _ => ?_
  · exact (steady.comprehensionTail (by omega)).bind fun _ _ _ _ =>
      expect_bind fun _ _ _ => .ok suffix_rfl
  · exact (steady.moreItems (by omega)).bind fun _ _ _ _ =>
      expect_bind fun _ _ _ => .ok suffix_rfl

theorem read_primary (enough : 16 * tokens.length + 1 ≤ depth + 1) :
    SettledAt Phrase.primary.read (depth + 1) tokens := by
  cases tokens with
  | nil =>
    rw [SettledAt, Phrase.read, Phrase.read]
    exact .refused rfl
  | cons token others =>
    have suffix := suffix_cons token others
    rw [length_cons] at enough
    rw [SettledAt, Phrase.read, Phrase.read]
    cases token.kind
    case intLiteral | floatLiteral => exact .within suffix (numberConstant_settles _ _ _)
    case textLiteral =>
      obtain ⟨texts, split, _⟩ := adjacentTexts_spec (token :: others)
      exact .ok ⟨texts, split.symm⟩
    case openParen | openBracket =>
      exact .within suffix ((steady.enclosed (by omega)).bind fun _ _ _ _ => .ok suffix_rfl)
    all_goals first | exact .ok suffix | exact .refused rfl

theorem succ : Steady (depth + 1) where
  read := by
    intro phrase tokens enough
    cases phrase with
    | expression => exact steady.read_expression enough
    | disjunction | conjunction | sum | product => exact steady.read_joined rfl rfl enough
    | negation | signedOperand => exact steady.read_prefixed rfl rfl enough
    | comparison => exact steady.read_comparison enough
    | powerOperand => exact steady.read_powerOperand enough
    | postfixForm => exact steady.read_postfixForm enough
    | primary => exact steady.read_primary enough
    | comprehension =>
      rw [SettledAt, Phrase.read, Phrase.read]
      change _ + 12 ≤ depth + 1 at enough
      exact steady.read_bind .expression 11 rfl (by omega) fun _ _ _ =>
        steady.comprehensionTail (by omega)
  extend := by
    intro phrase left tokens enough
    cases phrase with
    | postfixForm => exact steady.extend_postfixForm enough
    | _ => exact steady.extend_joined (by decide) enough
  comparisonLinks := steady.comparisonLinks_step
  moreItems := steady.moreItems_step
  targetNames := steady.targetNames_step
  comprehensionTail := steady.comprehensionTail_step
  comprehensionConditions := steady.comprehensionConditions_step
  enclosed := steady.enclosed_step

end Steady

theorem steady (depth : Nat) : Steady depth := by
  induction depth with
  | zero => exact .zero
  | succ depth ih => exact ih.succ

theorem expression_of_depthBound_le (enough : depthBound tokens ≤ depth) :
    expression depth tokens = expression (depthBound tokens) tokens := by
  induction enough with
  | refl => rfl
  | @step depth enough ih =>
    rw [← ih]
    refine ((steady depth).read .expression ?_).same
    change _ + 11 ≤ depth
    exact Nat.le_trans (by unfold depthBound; omega) enough

end Covenant.Condition
