import Covenant.Proofs.Grammar
import Covenant.Proofs.Outcome

/-!
# Soundness of the descent

Whatever a function of the descent reads is a phrase of its kind, and the tree it gives is the one
the phrase stands for. The functions call one another with a smaller bound on their depth, so all
of them are sound at a bound once all of them are at the bound before.
-/

set_option autoImplicit false

namespace Covenant.Condition

open List

variable {tokens : List Token} {kind : TokenKind} {node : Expr → Expr → Expr}

variable {rest : List Token} {wanted : TokenKind}

theorem expect_eq_ok_iff {token : Token} :
    expect wanted tokens = .ok (token, rest) ↔ tokens = token :: rest ∧ token.kind = wanted := by
  cases tokens with
  | nil =>
    constructor
    · intro expected
      cases expected
    · rintro ⟨split, _⟩
      cases split
  | cons first others =>
    by_cases kind : first.kind = wanted
    · simp only [expect, kind, ↓reduceIte, Except.ok.injEq, Prod.mk.injEq]
      constructor
      · rintro ⟨rfl, rfl⟩
        exact ⟨rfl, kind⟩
      · rintro ⟨split, _⟩
        cases split
        exact ⟨rfl, rfl⟩
    · simp only [expect, kind, ↓reduceIte]
      constructor
      · intro expected
        cases expected
      · rintro ⟨split, wantedKind⟩
        cases split
        exact absurd wantedKind kind

theorem expect_bind {α : Type} {result : α} {next : Token × List Token → Except Fault α}
    (parsed : (expect wanted tokens >>= next) = .ok result) :
    ∃ token rest, tokens = token :: rest ∧ token.kind = wanted ∧
      next (token, rest) = .ok result := by
  obtain ⟨⟨token, rest⟩, expected, done⟩ := bind_eq_ok_iff.mp parsed
  obtain ⟨split, kind⟩ := expect_eq_ok_iff.mp expected
  exact ⟨token, rest, split, kind, done⟩

theorem eq_cons_of_nextKind (next : nextKind tokens = kind) (inside : kind ≠ .endOfText) :
    ∃ token, tokens = token :: tokens.tail ∧ token.kind = kind := by
  cases tokens with
  | nil => exact absurd next.symm inside
  | cons token rest => exact ⟨token, rfl, next⟩

/-!
## Phrases with operators
-/

namespace Phrase

/-- The function that goes on to the right of a phrase it is given. -/
def extend : Phrase → Nat → Expr → List Token → Except Fault (Expr × List Token)
  | .postfixForm => morePostfix
  | phrase => phrase.join

def joins : Phrase → Bool
  | .disjunction | .conjunction | .sum | .product => true
  | _ => false

def leads : Phrase → Bool
  | .negation | .signedOperand => true
  | _ => false

variable {phrase tighter : Phrase} {depth : Nat} {tokens : List Token} {left : Expr}

theorem read_of_joins (joins : phrase.joins = true) (next : phrase.tighter? = some tighter) :
    phrase.read (depth + 1) tokens =
      tighter.read depth tokens >>= fun found => phrase.extend depth found.1 found.2 := by
  cases phrase <;> cases joins <;> cases next <;> (rw [read]; rfl)

theorem extend_of_infixed?_eq_none (other : phrase ≠ .postfixForm)
    (stops : phrase.infixed? (nextKind tokens) = none) :
    phrase.extend (depth + 1) left tokens = .ok (left, tokens) := by
  have joined : phrase.join (depth + 1) left tokens = .ok (left, tokens) := by rw [join, stops]
  cases phrase <;> first | exact joined | exact absurd rfl other

theorem ne_endOfText_of_infixed?
    (operator : phrase.infixed? kind = some node) : kind ≠ .endOfText := by
  rintro rfl
  cases phrase <;> cases operator

theorem ne_endOfText_of_prefixed? {node : Expr → Expr}
    (operator : phrase.prefixed? kind = some node) : kind ≠ .endOfText := by
  rintro rfl
  cases phrase <;> cases operator

theorem exists_tighter?
    (operator : phrase.infixed? kind = some node) : ∃ tighter, phrase.tighter? = some tighter := by
  cases phrase <;> first | exact ⟨_, rfl⟩ | cases operator

theorem extend_of_infixed?_eq_some (next : phrase.tighter? = some tighter)
    (goesOn : phrase.infixed? (nextKind tokens) = some node) :
    phrase.extend (depth + 1) left tokens =
      tighter.read depth tokens.tail >>= fun found =>
        phrase.extend depth (node left found.1) found.2 := by
  have joined : phrase.join (depth + 1) left tokens =
      tighter.read depth tokens.tail >>=
        fun found => phrase.join depth (node left found.1) found.2 := by
    rw [join, goesOn, next]
  cases phrase <;> first | exact joined | cases goesOn

theorem read_of_prefixed?_eq_none (leads : phrase.leads = true)
    (next : phrase.tighter? = some tighter)
    (stops : phrase.prefixed? (nextKind tokens) = none) :
    phrase.read (depth + 1) tokens = tighter.read depth tokens := by
  cases phrase <;> cases leads <;> cases next <;> rw [read, stops]

theorem read_of_prefixed?_eq_some {node : Expr → Expr}
    (goesOn : phrase.prefixed? (nextKind tokens) = some node) :
    phrase.read (depth + 1) tokens =
      phrase.read depth tokens.tail >>= fun found => .ok (node found.1, found.2) := by
  cases phrase
  case negation | signedOperand =>
    rw [read, goesOn]
    rfl
  all_goals cases goesOn

end Phrase

/-!
## What the functions read
-/

theorem compareOperator?_spelling {op : CompareOp}
    (found : compareOperator? tokens = some (op, rest)) :
    ∃ mark, tokens = mark ++ rest ∧ mark.map Token.kind = op.spelling := by
  cases tokens with
  | nil => cases found
  | cons token others =>
    unfold compareOperator? at found
    cases kind : token.kind <;> simp only [kind] at found <;> try cases found
    -- Only `not in` and `is not` are spelled with two words.
    case notWord | isWord =>
      split at found
      · next second =>
        cases found
        obtain ⟨word, split, wordKind⟩ := eq_cons_of_nextKind second (by decide)
        exact ⟨[token, word], by rw [split]; rfl, by simp [kind, wordKind, CompareOp.spelling]⟩
      · cases found <;> exact ⟨[token], rfl, by simp [kind, CompareOp.spelling]⟩
    all_goals exact ⟨[token], rfl, by simp [kind, CompareOp.spelling]⟩

theorem targetNames_sound {depth : Nat} {names : List Text}
    (parsed : targetNames depth tokens = .ok (names, rest)) :
    ∃ used, tokens = used ++ rest ∧ TargetNames used names := by
  induction depth generalizing tokens names with
  | zero => cases parsed
  | succ depth ih =>
    rw [targetNames] at parsed
    obtain ⟨target, after, rfl, targetKind, parsed⟩ := expect_bind parsed
    dsimp only at parsed
    by_cases next : nextKind after = .comma
    · rw [if_pos next, bind_eq_ok_iff] at parsed
      obtain ⟨⟨more, last⟩, others, done⟩ := parsed
      cases done
      obtain ⟨comma, split, commaKind⟩ := eq_cons_of_nextKind next (by decide)
      obtain ⟨used, usedSplit, derived⟩ := ih others
      refine ⟨target :: comma :: used, ?_, .more targetKind commaKind derived⟩
      rw [split, usedSplit]
      rfl
    · rw [if_neg next] at parsed
      cases parsed
      exact ⟨[target], rfl, .one targetKind⟩

theorem adjacentTexts_spec (tokens : List Token) :
    ∃ texts, tokens = texts ++ (adjacentTexts tokens).2 ∧
      (∀ token ∈ texts, token.kind = .textLiteral) ∧
      (adjacentTexts tokens).1 = texts.flatMap Token.literal := by
  induction tokens with
  | nil => exact ⟨[], rfl, by simp, rfl⟩
  | cons token rest ih =>
    by_cases kind : token.kind = .textLiteral
    · obtain ⟨texts, split, each, joined⟩ := ih
      refine ⟨token :: texts, ?_, forall_mem_cons.mpr ⟨kind, each⟩, ?_⟩
      · rw [adjacentTexts, if_pos kind]
        exact congrArg (token :: ·) split
      · rw [adjacentTexts, if_pos kind, flatMap_cons, ← joined]
    · rw [adjacentTexts, if_neg kind]
      exact ⟨[], rfl, by simp, rfl⟩

/-- Tokens read as items after commas, and perhaps a last comma. -/
def FurtherItems (tokens rest : List Token) (trees : List Expr) : Prop :=
  ∃ (items : List Marked) (last : List Token),
    tokens = items.flatMap Marked.tokens ++ (last ++ rest) ∧ trees = items.map Marked.tree ∧
      (∀ item ∈ items, item.mark.map Token.kind = [.comma]) ∧
      (∀ item ∈ items, Derives .expression item.body item.tree) ∧
      (last = [] ∨ last.map Token.kind = [.comma])

theorem nextKind_items {items : List Marked} {last : List Token} (rest : List Token)
    (commas : ∀ item ∈ items, item.mark.map Token.kind = [.comma])
    (lastComma : last = [] ∨ last.map Token.kind = [.comma]) :
    items = [] ∧ last = [] ∨
      nextKind (items.flatMap Marked.tokens ++ (last ++ rest)) = .comma := by
  cases items with
  | nil =>
    obtain rfl | lastKind := lastComma
    · exact .inl ⟨rfl, rfl⟩
    · obtain ⟨comma, others, rfl, commaKind, _⟩ := map_eq_cons_iff.mp lastKind
      exact .inr commaKind
  | cons item others =>
    obtain ⟨mark, body, tree⟩ := item
    obtain ⟨comma, none, split, commaKind, _⟩ :=
      map_eq_cons_iff.mp (commas _ mem_cons_self)
    dsimp only at split
    subst split
    exact .inr commaKind

theorem decide_nextKind_items {items : List Marked} {last rest : List Token}
    (commas : ∀ item ∈ items, item.mark.map Token.kind = [.comma])
    (lastComma : last = [] ∨ last.map Token.kind = [.comma]) (ends : nextKind rest ≠ .comma) :
    decide (nextKind (items.flatMap Marked.tokens ++ (last ++ rest)) = .comma) =
      !(items.isEmpty && last.isEmpty) := by
  obtain ⟨rfl, rfl⟩ | comma := nextKind_items rest commas lastComma
  · exact decide_eq_false ends
  · rw [decide_eq_true comma]
    cases items with
    | cons item others => rfl
    | nil =>
      cases last with
      | cons mark others => rfl
      | nil => exact absurd comma ends

/-- What the tokens between two brackets stand for. A comma follows the first item unless it is the
only one and the last comma is left out. -/
inductive Encloses : List Token → Enclosed → Prop where
  | items {items : List Marked} {last : List Token} :
      CommasBetween items last → (∀ item ∈ items, Derives .expression item.body item.tree) →
      Encloses (items.flatMap Marked.tokens ++ last)
        (.items (items.map Marked.tree) (!(items.tail.isEmpty && last.isEmpty)))
  | generator {tokens : List Token} {tree : Expr} :
      Derives .comprehension tokens tree → Encloses tokens (.generator tree)

theorem grouped_items {items : List Marked} {last : List Token}
    (single : items.length = 1 → last ≠ []) :
    (Enclosed.items (items.map Marked.tree) (!(items.tail.isEmpty && last.isEmpty))).grouped =
      .tuple (items.map Marked.tree) := by
  cases items with
  | nil => rfl
  | cons first others =>
    cases others with
    | cons second others => rfl
    | nil =>
      cases last with
      | cons comma others => rfl
      | nil => exact absurd rfl (single rfl)

namespace Encloses

variable {tokens : List Token} {content : Enclosed} {opening closing : Token}

theorem grouped (encloses : Encloses tokens content) (openingKind : opening.kind = .openParen)
    (closingKind : closing.kind = .closeParen) :
    Derives .primary (opening :: (tokens ++ [closing])) content.grouped := by
  cases encloses with
  | generator derived => exact .generator openingKind derived closingKind
  | @items items last between each =>
    rw [append_assoc]
    by_cases single : items.length = 1 ∧ last = []
    · obtain ⟨one, rfl⟩ := single
      obtain ⟨⟨mark, body, tree⟩, rfl⟩ := length_eq_one_iff.mp one
      obtain ⟨rfl, _⟩ := between
      rw [flatMap_singleton]
      exact .group openingKind (each _ mem_cons_self) closingKind
    · have tuple := fun one none => single ⟨one, none⟩
      rw [grouped_items tuple]
      exact .tuple openingKind between tuple each closingKind

theorem listed (encloses : Encloses tokens content) (openingKind : opening.kind = .openBracket)
    (closingKind : closing.kind = .closeBracket) :
    Derives .primary (opening :: (tokens ++ [closing])) content.listed := by
  cases encloses with
  | generator derived => exact .listed openingKind derived closingKind
  | items between each =>
    rw [append_assoc]
    exact .list openingKind between each closingKind

theorem called {before : List Token} {function : Expr} (encloses : Encloses tokens content)
    (derived : Derives .postfixForm before function) (openingKind : opening.kind = .openParen)
    (closingKind : closing.kind = .closeParen) :
    Derives .postfixForm (before ++ opening :: (tokens ++ [closing]))
      (.call function content.arguments) := by
  cases encloses with
  | generator generator => exact .generatorCall derived openingKind generator closingKind
  | items between each =>
    rw [append_assoc]
    exact .call derived openingKind between each closingKind

end Encloses

/-- Every function of the descent is sound at the given depth. -/
structure Sound (depth : Nat) : Prop where
  read : ∀ (phrase : Phrase) {tokens tree rest}, phrase.read depth tokens = .ok (tree, rest) →
    ∃ used, tokens = used ++ rest ∧ Derives phrase used tree
  extend : ∀ (phrase : Phrase) {before left tokens tree rest}, Derives phrase before left →
    phrase.extend depth left tokens = .ok (tree, rest) →
    ∃ used, tokens = used ++ rest ∧ Derives phrase (before ++ used) tree
  comparisonLinks : ∀ {tokens links rest}, comparisonLinks depth tokens = .ok (links, rest) →
    ∃ found : List (CompareOp × Marked), tokens = found.flatMap (·.2.tokens) ++ rest ∧
      links = found.map (fun link => (link.1, link.2.tree)) ∧
      (∀ link ∈ found, link.2.mark.map Token.kind = link.1.spelling) ∧
      (∀ link ∈ found, Derives .sum link.2.body link.2.tree)
  moreItems : ∀ {closing tokens trees rest}, moreItems depth closing tokens = .ok (trees, rest) →
    FurtherItems tokens rest trees
  enclosed : ∀ {closing tokens content rest}, closing = .closeParen ∨ closing = .closeBracket →
    enclosed depth closing tokens = .ok (content, rest) →
    ∃ used token, tokens = used ++ token :: rest ∧ token.kind = closing ∧ Encloses used content
  comprehensionTail : ∀ {before element tokens tree rest}, Derives .expression before element →
    comprehensionTail depth element tokens = .ok (tree, rest) →
    ∃ used, tokens = used ++ rest ∧ Derives .comprehension (before ++ used) tree
  comprehensionConditions : ∀ {tokens trees rest},
    comprehensionConditions depth tokens = .ok (trees, rest) →
    ∃ conditions : List Marked, tokens = conditions.flatMap Marked.tokens ++ rest ∧
      trees = conditions.map Marked.tree ∧
      (∀ condition ∈ conditions, condition.mark.map Token.kind = [.ifWord]) ∧
      (∀ condition ∈ conditions, Derives .disjunction condition.body condition.tree)

namespace Sound

variable {depth : Nat} {tokens rest : List Token} {tree : Expr}

theorem read_bind {α : Type} (sound : Sound depth) (phrase : Phrase) {result : α}
    {next : Expr × List Token → Except Fault α}
    (parsed : (phrase.read depth tokens >>= next) = .ok result) :
    ∃ used tree rest, tokens = used ++ rest ∧ Derives phrase used tree ∧
      next (tree, rest) = .ok result := by
  obtain ⟨⟨tree, rest⟩, first, done⟩ := bind_eq_ok_iff.mp parsed
  obtain ⟨used, split, derived⟩ := sound.read phrase first
  exact ⟨used, tree, rest, split, derived, done⟩

variable {phrase tighter : Phrase} {before : List Token}

theorem zero : Sound 0 where
  read := by
    intro phrase tokens tree rest parsed
    cases phrase <;> cases parsed
  extend := by
    intro phrase before left tokens tree rest derived parsed
    cases phrase <;> cases parsed
  comparisonLinks := nofun
  moreItems := nofun
  enclosed := nofun
  comprehensionTail := nofun
  comprehensionConditions := nofun

variable (sound : Sound depth)

include sound

theorem read_joined (joins : phrase.joins = true)
    (next : phrase.tighter? = some tighter)
    (parsed : phrase.read (depth + 1) tokens = .ok (tree, rest)) :
    ∃ used, tokens = used ++ rest ∧ Derives phrase used tree := by
  rw [Phrase.read_of_joins joins next] at parsed
  obtain ⟨before, left, middle, rfl, derived, parsed⟩ := sound.read_bind _ parsed
  obtain ⟨used, rfl, extended⟩ := sound.extend _ (.looser next derived) parsed
  exact ⟨before ++ used, by rw [append_assoc], extended⟩

theorem extend_joined {left : Expr} (other : phrase ≠ .postfixForm)
    (derived : Derives phrase before left)
    (parsed : phrase.extend (depth + 1) left tokens = .ok (tree, rest)) :
    ∃ used, tokens = used ++ rest ∧ Derives phrase (before ++ used) tree := by
  cases operator : phrase.infixed? (nextKind tokens) with
  | none =>
    rw [Phrase.extend_of_infixed?_eq_none other operator] at parsed
    cases parsed
    exact ⟨[], rfl, by rwa [append_nil]⟩
  | some node =>
    have inside := Phrase.ne_endOfText_of_infixed? operator
    obtain ⟨tighter, next⟩ := Phrase.exists_tighter? operator
    rw [Phrase.extend_of_infixed?_eq_some next operator] at parsed
    obtain ⟨token, split, kind⟩ := eq_cons_of_nextKind rfl inside
    obtain ⟨rightTokens, right, middle, rightSplit, rightDerived, parsed⟩ :=
      sound.read_bind _ parsed
    rw [← kind] at operator
    obtain ⟨used, rfl, extended⟩ :=
      sound.extend _ (.infixed next derived operator rightDerived) parsed
    refine ⟨token :: (rightTokens ++ used), ?_, ?_⟩
    · rw [split, rightSplit]
      simp
    · rw [append_assoc, cons_append] at extended
      exact extended

theorem read_prefixed (leads : phrase.leads = true)
    (next : phrase.tighter? = some tighter)
    (parsed : phrase.read (depth + 1) tokens = .ok (tree, rest)) :
    ∃ used, tokens = used ++ rest ∧ Derives phrase used tree := by
  cases operator : phrase.prefixed? (nextKind tokens) with
  | none =>
    rw [Phrase.read_of_prefixed?_eq_none leads next operator] at parsed
    obtain ⟨used, split, derived⟩ := sound.read _ parsed
    exact ⟨used, split, .looser next derived⟩
  | some node =>
    have inside := Phrase.ne_endOfText_of_prefixed? operator
    rw [Phrase.read_of_prefixed?_eq_some operator] at parsed
    obtain ⟨token, split, kind⟩ := eq_cons_of_nextKind rfl inside
    obtain ⟨used, operand, middle, usedSplit, derived, done⟩ := sound.read_bind _ parsed
    cases done
    rw [← kind] at operator
    refine ⟨token :: used, ?_, .prefixed operator derived⟩
    rw [split, usedSplit]
    rfl

theorem read_expression (parsed : Phrase.expression.read (depth + 1) tokens = .ok (tree, rest)) :
    ∃ used, tokens = used ++ rest ∧ Derives .expression used tree := by
  rw [Phrase.read] at parsed
  obtain ⟨thenTokens, thenBranch, afterThen, rfl, thenDerived, parsed⟩ :=
    sound.read_bind .disjunction parsed
  dsimp only at parsed
  by_cases next : nextKind afterThen = .ifWord
  · rw [if_pos next] at parsed
    obtain ⟨ifToken, split, ifKind⟩ := eq_cons_of_nextKind next (by decide)
    obtain ⟨testTokens, test, afterTest, testSplit, testDerived, parsed⟩ :=
      sound.read_bind .disjunction parsed
    obtain ⟨elseToken, afterWord, rfl, elseKind, parsed⟩ := expect_bind parsed
    obtain ⟨elseTokens, elseBranch, last, rfl, elseDerived, done⟩ :=
      sound.read_bind .expression parsed
    cases done
    refine ⟨_, ?_, .conditional thenDerived ifKind testDerived elseKind elseDerived⟩
    rw [split, testSplit]
    simp
  · rw [if_neg next] at parsed
    cases parsed
    exact ⟨thenTokens, rfl, .looser rfl thenDerived⟩

theorem read_comparison (parsed : Phrase.comparison.read (depth + 1) tokens = .ok (tree, rest)) :
    ∃ used, tokens = used ++ rest ∧ Derives .comparison used tree := by
  rw [Phrase.read] at parsed
  obtain ⟨firstTokens, first, middle, rfl, firstDerived, parsed⟩ := sound.read_bind .sum parsed
  rw [bind_eq_ok_iff] at parsed
  obtain ⟨⟨links, last⟩, linksParsed, done⟩ := parsed
  cases done
  obtain ⟨found, rfl, rfl, spelled, derived⟩ := sound.comparisonLinks linksParsed
  cases found with
  | nil => exact ⟨firstTokens, rfl, .looser rfl firstDerived⟩
  | cons link others =>
    refine ⟨_, ?_, .chain firstDerived (cons_ne_nil link others) spelled derived⟩
    rw [append_assoc]

theorem comparisonLinks_step {links : List (CompareOp × Expr)}
    (parsed : Condition.comparisonLinks (depth + 1) tokens = .ok (links, rest)) :
    ∃ found : List (CompareOp × Marked), tokens = found.flatMap (·.2.tokens) ++ rest ∧
      links = found.map (fun link => (link.1, link.2.tree)) ∧
      (∀ link ∈ found, link.2.mark.map Token.kind = link.1.spelling) ∧
      (∀ link ∈ found, Derives .sum link.2.body link.2.tree) := by
  rw [Condition.comparisonLinks] at parsed
  cases operator : compareOperator? tokens with
  | none =>
    rw [operator] at parsed
    cases parsed
    exact ⟨[], rfl, rfl, by simp, by simp⟩
  | some marked =>
    obtain ⟨op, afterMark⟩ := marked
    rw [operator] at parsed
    obtain ⟨mark, rfl, spelled⟩ := compareOperator?_spelling operator
    obtain ⟨body, operand, middle, rfl, derived, parsed⟩ := sound.read_bind .sum parsed
    rw [bind_eq_ok_iff] at parsed
    obtain ⟨⟨others, last⟩, othersParsed, done⟩ := parsed
    cases done
    obtain ⟨found, rfl, rfl, eachSpelled, eachDerived⟩ := sound.comparisonLinks othersParsed
    refine ⟨(op, ⟨mark, body, operand⟩) :: found, ?_, rfl,
      forall_mem_cons.mpr ⟨spelled, eachSpelled⟩,
      forall_mem_cons.mpr ⟨derived, eachDerived⟩⟩
    simp [Marked.tokens]

theorem read_powerOperand
    (parsed : Phrase.powerOperand.read (depth + 1) tokens = .ok (tree, rest)) :
    ∃ used, tokens = used ++ rest ∧ Derives .powerOperand used tree := by
  rw [Phrase.read] at parsed
  obtain ⟨baseTokens, base, middle, rfl, baseDerived, parsed⟩ :=
    sound.read_bind .postfixForm parsed
  dsimp only at parsed
  by_cases next : nextKind middle = .doubleStar
  · rw [if_pos next] at parsed
    obtain ⟨operator, split, kind⟩ := eq_cons_of_nextKind next (by decide)
    obtain ⟨exponentTokens, exponent, last, exponentSplit, exponentDerived, done⟩ :=
      sound.read_bind .signedOperand parsed
    cases done
    refine ⟨_, ?_, .power baseDerived kind exponentDerived⟩
    rw [split, exponentSplit]
    simp
  · rw [if_neg next] at parsed
    cases parsed
    exact ⟨baseTokens, rfl, .looser rfl baseDerived⟩

theorem read_postfixForm (parsed : Phrase.postfixForm.read (depth + 1) tokens = .ok (tree, rest)) :
    ∃ used, tokens = used ++ rest ∧ Derives .postfixForm used tree := by
  rw [Phrase.read] at parsed
  obtain ⟨before, base, middle, rfl, derived, parsed⟩ := sound.read_bind .primary parsed
  obtain ⟨used, rfl, extended⟩ :=
    sound.extend .postfixForm (.looser rfl derived) parsed
  exact ⟨before ++ used, by rw [append_assoc], extended⟩

theorem extend_postfixForm {base : Expr}
    (derived : Derives .postfixForm before base)
    (parsed : morePostfix (depth + 1) base tokens = .ok (tree, rest)) :
    ∃ used, tokens = used ++ rest ∧ Derives .postfixForm (before ++ used) tree := by
  -- Each form is read up to its end; what follows extends it further.
  have goOn {used middle : List Token} {next : Expr} (split : tokens = used ++ middle)
      (longer : Derives .postfixForm (before ++ used) next)
      (parsed : morePostfix depth next middle = .ok (tree, rest)) :
      ∃ used, tokens = used ++ rest ∧ Derives .postfixForm (before ++ used) tree := by
    obtain ⟨more, rfl, extended⟩ := sound.extend .postfixForm longer parsed
    refine ⟨used ++ more, by rw [split, append_assoc], ?_⟩
    rwa [← append_assoc]
  rw [morePostfix] at parsed
  cases next : nextKind tokens <;> simp only [next] at parsed
  case openBracket =>
    obtain ⟨opening, split, openingKind⟩ := eq_cons_of_nextKind next (by decide)
    obtain ⟨positionTokens, position, middle, positionSplit, positionDerived, parsed⟩ :=
      sound.read_bind .expression parsed
    obtain ⟨closing, last, rfl, closingKind, parsed⟩ := expect_bind parsed
    refine goOn ?_ (.index derived openingKind positionDerived closingKind) parsed
    rw [split, positionSplit]
    simp
  case dot =>
    obtain ⟨dot, split, dotKind⟩ := eq_cons_of_nextKind next (by decide)
    obtain ⟨label, middle, labelSplit, labelKind, parsed⟩ := expect_bind parsed
    refine goOn ?_ (.member derived dotKind labelKind) parsed
    rw [split, labelSplit]
    rfl
  case openParen =>
    obtain ⟨opening, split, openingKind⟩ := eq_cons_of_nextKind next (by decide)
    rw [bind_eq_ok_iff] at parsed
    obtain ⟨⟨content, middle⟩, enclosed, parsed⟩ := parsed
    obtain ⟨used, closing, usedSplit, closingKind, encloses⟩ := sound.enclosed (by simp) enclosed
    refine goOn ?_ (encloses.called derived openingKind closingKind) parsed
    rw [split, usedSplit]
    simp
  all_goals
    cases parsed
    exact ⟨[], rfl, by rwa [append_nil]⟩

theorem moreItems_step {closing : TokenKind} {trees : List Expr}
    (parsed : Condition.moreItems (depth + 1) closing tokens = .ok (trees, rest)) :
    FurtherItems tokens rest trees := by
  rw [Condition.moreItems] at parsed
  by_cases next : nextKind tokens = .comma
  · rw [if_pos next] at parsed
    obtain ⟨comma, split, commaKind⟩ := eq_cons_of_nextKind next (by decide)
    by_cases ended : nextKind tokens.tail = closing
    · rw [if_pos ended] at parsed
      cases parsed
      exact ⟨[], [comma], split, rfl, by simp, by simp, .inr (by simp [commaKind])⟩
    · rw [if_neg ended] at parsed
      obtain ⟨body, item, middle, bodySplit, derived, parsed⟩ :=
        sound.read_bind .expression parsed
      rw [bind_eq_ok_iff] at parsed
      obtain ⟨⟨more, last⟩, moreParsed, done⟩ := parsed
      cases done
      obtain ⟨items, lastComma, itemsSplit, rfl, commas, each, ends⟩ := sound.moreItems moreParsed
      refine ⟨⟨[comma], body, item⟩ :: items, lastComma, ?_, rfl,
        forall_mem_cons.mpr ⟨by simp [commaKind], commas⟩,
        forall_mem_cons.mpr ⟨derived, each⟩, ends⟩
      rw [split, bodySplit, itemsSplit]
      simp [Marked.tokens]
  · rw [if_neg next] at parsed
    cases parsed
    exact ⟨[], [], rfl, rfl, by simp, by simp, .inl rfl⟩

theorem comprehensionConditions_step {trees : List Expr}
    (parsed : Condition.comprehensionConditions (depth + 1) tokens = .ok (trees, rest)) :
    ∃ conditions : List Marked, tokens = conditions.flatMap Marked.tokens ++ rest ∧
      trees = conditions.map Marked.tree ∧
      (∀ condition ∈ conditions, condition.mark.map Token.kind = [.ifWord]) ∧
      (∀ condition ∈ conditions, Derives .disjunction condition.body condition.tree) := by
  rw [Condition.comprehensionConditions] at parsed
  by_cases next : nextKind tokens = .ifWord
  · rw [if_pos next] at parsed
    obtain ⟨word, split, wordKind⟩ := eq_cons_of_nextKind next (by decide)
    obtain ⟨body, condition, middle, bodySplit, derived, parsed⟩ :=
      sound.read_bind .disjunction parsed
    rw [bind_eq_ok_iff] at parsed
    obtain ⟨⟨more, last⟩, moreParsed, done⟩ := parsed
    cases done
    obtain ⟨conditions, rfl, rfl, marks, each⟩ := sound.comprehensionConditions moreParsed
    refine ⟨⟨[word], body, condition⟩ :: conditions, ?_, rfl,
      forall_mem_cons.mpr ⟨by simp [wordKind], marks⟩,
      forall_mem_cons.mpr ⟨derived, each⟩⟩
    rw [split, bodySplit]
    simp [Marked.tokens]
  · rw [if_neg next] at parsed
    cases parsed
    exact ⟨[], rfl, rfl, by simp, by simp⟩

theorem comprehensionTail_step {before : List Token} {element : Expr}
    (derived : Derives .expression before element)
    (parsed : Condition.comprehensionTail (depth + 1) element tokens = .ok (tree, rest)) :
    ∃ used, tokens = used ++ rest ∧ Derives .comprehension (before ++ used) tree := by
  rw [Condition.comprehensionTail] at parsed
  obtain ⟨forToken, afterFor, rfl, forKind, targeted⟩ := expect_bind parsed
  rw [bind_eq_ok_iff] at targeted
  obtain ⟨⟨targets, afterTargets⟩, targetsParsed, iterated⟩ := targeted
  obtain ⟨targetTokens, rfl, targetNames⟩ := targetNames_sound targetsParsed
  obtain ⟨inToken, afterIn, rfl, inKind, parsed⟩ := expect_bind iterated
  obtain ⟨iterableTokens, iterable, afterIterable, rfl, iterableDerived, parsed⟩ :=
    sound.read_bind .disjunction parsed
  rw [bind_eq_ok_iff] at parsed
  obtain ⟨⟨trees, last⟩, conditionsParsed, done⟩ := parsed
  cases done
  obtain ⟨conditions, rfl, rfl, marks, each⟩ := sound.comprehensionConditions conditionsParsed
  refine ⟨_, ?_, .comprehension derived forKind targetNames inKind iterableDerived marks each⟩
  simp

theorem enclosed_step {closing : TokenKind} {content : Enclosed}
    (closes : closing = .closeParen ∨ closing = .closeBracket)
    (parsed : Condition.enclosed (depth + 1) closing tokens = .ok (content, rest)) :
    ∃ used token, tokens = used ++ token :: rest ∧ token.kind = closing ∧
      Encloses used content := by
  rw [Condition.enclosed] at parsed
  by_cases empty : nextKind tokens = closing
  · rw [if_pos empty] at parsed
    cases parsed
    cases tokens with
    | nil => obtain rfl | rfl := closes <;> cases empty
    | cons token others => exact ⟨[], token, rfl, empty, @Encloses.items [] [] rfl (by simp)⟩
  · rw [if_neg empty] at parsed
    obtain ⟨firstTokens, first, middle, rfl, derived, parsed⟩ := sound.read_bind .expression parsed
    dsimp only at parsed
    by_cases generates : nextKind middle = .forWord
    · rw [if_pos generates, bind_eq_ok_iff] at parsed
      obtain ⟨⟨tree, afterTail⟩, tailParsed, parsed⟩ := parsed
      obtain ⟨token, last, rfl, kind, done⟩ := expect_bind parsed
      cases done
      obtain ⟨used, rfl, generator⟩ := sound.comprehensionTail derived tailParsed
      exact ⟨firstTokens ++ used, token, by simp, kind, .generator generator⟩
    · rw [if_neg generates, bind_eq_ok_iff] at parsed
      obtain ⟨⟨more, afterItems⟩, moreParsed, parsed⟩ := parsed
      obtain ⟨token, after, rfl, rfl, done⟩ := expect_bind parsed
      obtain ⟨items, last, rfl, rfl, commas, each, ends⟩ := sound.moreItems moreParsed
      cases done
      have next : nextKind (token :: after) ≠ .comma := by
        change token.kind ≠ _
        obtain kind | kind := closes <;> rw [kind] <;> decide
      rw [decide_nextKind_items commas ends next]
      refine ⟨_, token, ?_, rfl, @Encloses.items (⟨[], firstTokens, first⟩ :: items) last
        ⟨rfl, commas, ends⟩ (forall_mem_cons.mpr ⟨derived, each⟩)⟩
      simp [Marked.tokens]

theorem read_primary (parsed : Phrase.primary.read (depth + 1) tokens = .ok (tree, rest)) :
    ∃ used, tokens = used ++ rest ∧ Derives .primary used tree := by
  cases tokens with
  | nil =>
    rw [Phrase.read] at parsed
    cases parsed
  | cons token others =>
    rw [Phrase.read] at parsed
    cases kind : token.kind <;> simp only [kind] at parsed
    case intLiteral | floatLiteral =>
      unfold numberConstant at parsed
      split at parsed
      · next number =>
        cases parsed
        exact ⟨[token], rfl, .constant (by simpa [Token.constant?, kind] using number)⟩
      · cases parsed
    case textLiteral =>
      obtain ⟨texts, split, each, joined⟩ := adjacentTexts_spec others
      rw [adjacentTexts, if_pos kind] at parsed
      dsimp only at parsed
      rw [joined, ← flatMap_cons] at parsed
      cases parsed
      refine ⟨token :: texts, congrArg (token :: ·) split, ?_⟩
      exact .texts (cons_ne_nil token texts) (forall_mem_cons.mpr ⟨kind, each⟩)
    case name =>
      cases parsed
      exact ⟨[token], rfl, .name kind⟩
    case openParen | openBracket =>
      obtain ⟨⟨content, last⟩, enclosed, done⟩ := bind_eq_ok_iff.mp parsed
      cases done
      obtain ⟨used, closing, rfl, closingKind, encloses⟩ := sound.enclosed (by simp) enclosed
      first
        | exact ⟨_, by simp, encloses.grouped kind closingKind⟩
        | exact ⟨_, by simp, encloses.listed kind closingKind⟩
    case trueWord | falseWord | noneWord =>
      cases parsed
      exact ⟨[token], rfl, .constant (by simp [Token.constant?, kind])⟩
    all_goals cases parsed

theorem read_comprehension
    (parsed : Phrase.comprehension.read (depth + 1) tokens = .ok (tree, rest)) :
    ∃ used, tokens = used ++ rest ∧ Derives .comprehension used tree := by
  rw [Phrase.read, bind_eq_ok_iff] at parsed
  obtain ⟨⟨element, middle⟩, elementParsed, parsed⟩ := parsed
  obtain ⟨before, rfl, derived⟩ := sound.read _ elementParsed
  obtain ⟨used, rfl, generator⟩ := sound.comprehensionTail derived parsed
  exact ⟨before ++ used, by rw [append_assoc], generator⟩

theorem succ : Sound (depth + 1) where
  read := by
    intro phrase tokens tree rest parsed
    cases phrase with
    | expression => exact sound.read_expression parsed
    | disjunction | conjunction | sum | product => exact sound.read_joined rfl rfl parsed
    | negation | signedOperand => exact sound.read_prefixed rfl rfl parsed
    | comparison => exact sound.read_comparison parsed
    | powerOperand => exact sound.read_powerOperand parsed
    | postfixForm => exact sound.read_postfixForm parsed
    | primary => exact sound.read_primary parsed
    | comprehension => exact sound.read_comprehension parsed
  extend := by
    intro phrase before left tokens tree rest derived parsed
    cases phrase with
    | postfixForm => exact sound.extend_postfixForm derived parsed
    | _ => exact sound.extend_joined (by decide) derived parsed
  comparisonLinks := sound.comparisonLinks_step
  moreItems := sound.moreItems_step
  enclosed := sound.enclosed_step
  comprehensionTail := sound.comprehensionTail_step
  comprehensionConditions := sound.comprehensionConditions_step

end Sound

theorem sound (depth : Nat) : Sound depth := by
  induction depth with
  | zero => exact .zero
  | succ depth ih => exact ih.succ

theorem Phrase.length_lt_of_read (phrase : Phrase) {depth : Nat} {rest : List Token} {tree : Expr}
    (parsed : phrase.read depth tokens = .ok (tree, rest)) :
    rest.length < tokens.length := by
  obtain ⟨used, rfl, derived⟩ := (sound depth).read phrase parsed
  have := length_pos_iff.mpr derived.ne_nil
  rw [length_append]
  omega

end Covenant.Condition
