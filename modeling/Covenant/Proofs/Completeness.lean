import Covenant.Proofs.Depth

/-!
# Completeness of the descent

Every phrase is read as the tree it stands for, wherever the token after it cannot continue it. A
loop reads its phrase in pieces from the left while the grammar takes it apart from the right; so
there the statement is about what the loop does with the phrase and with anything after it.
-/

set_option autoImplicit false

namespace Covenant.Condition

open List

variable {rest tokens used baseTokens : List Token} {phrase : Phrase} {kind : TokenKind}
  {tree base : Expr} {operator : Token}

/-- At every depth from some depth on, the reader gives the answer. -/
def Gives {α : Type} (reader : Nat → Except Fault α) (answer : α) : Prop :=
  ∃ enough, ∀ depth, enough ≤ depth → reader depth = .ok answer

namespace Gives

variable {α β : Type} {reader : Nat → Except Fault α} {answer : α}

theorem of_forall (gives : ∀ depth, reader depth = .ok answer) : Gives reader answer :=
  ⟨0, fun depth _ => gives depth⟩

theorem of_succ (gives : Gives (fun depth => reader (depth + 1)) answer) : Gives reader answer := by
  obtain ⟨enough, gives⟩ := gives
  refine ⟨enough + 1, fun depth deep => ?_⟩
  obtain ⟨depth, rfl⟩ : ∃ below, depth = below + 1 := ⟨depth - 1, by omega⟩
  exact gives depth (by omega)

theorem bind {next : Nat → α → Except Fault β} {last : β} (first : Gives reader answer)
    (second : Gives (fun depth => next depth answer) last) :
    Gives (fun depth => reader depth >>= next depth) last := by
  obtain ⟨enough, gives⟩ := first
  obtain ⟨more, givesLast⟩ := second
  refine ⟨enough + more, fun depth deep => ?_⟩
  dsimp only
  rw [gives depth (by omega)]
  exact givesLast depth (by omega)

theorem unique {other : α} (first : Gives reader answer) (second : Gives reader other) :
    answer = other := by
  obtain ⟨enough, gives⟩ := first
  obtain ⟨more, givesOther⟩ := second
  have both := (gives (enough + more) (by omega)).symm.trans (givesOther _ (by omega))
  exact Except.ok.inj both

theorem expect {wanted : TokenKind} {token : Token} (kind : token.kind = wanted) :
    Gives (fun _ => Condition.expect wanted (token :: rest)) (token, rest) :=
  of_forall fun _ => expect_eq_ok_iff.mpr ⟨rfl, kind⟩

end Gives

/-- The height of the phrases that a token of this kind continues. A kind that continues none is
above all of them. -/
def TokenKind.reach : TokenKind → Nat
  | .textLiteral => 1
  | .openBracket | .dot | .openParen => 2
  | .doubleStar => 3
  | .star | .slash | .doubleSlash | .percent => 5
  | .plus | .minus => 6
  | .equal | .notEqual | .less | .lessEqual | .greater | .greaterEqual | .inWord | .notWord
  | .isWord => 7
  | .andWord => 9
  | .orWord => 10
  | .ifWord => 11
  | _ => 13

section

variable {height : Nat} {token : Token} {rest : List Token} {kind : TokenKind}

theorem nextKind_cons : nextKind (token :: rest) = token.kind := rfl

theorem lt_reach_cons (same : token.kind = kind) (above : height < kind.reach) :
    height < (nextKind (token :: rest)).reach := by
  rw [nextKind_cons, same]
  exact above

theorem nextKind_ne_of_lt_reach (above : height < (nextKind rest).reach)
    (below : kind.reach ≤ height) : nextKind rest ≠ kind := by
  intro same
  rw [same] at above
  omega

end

namespace Phrase

def loops : Phrase → Bool
  | .disjunction | .conjunction | .sum | .product | .postfixForm => true
  | _ => false

/-- The height above which the token after a phrase must reach. A loop goes on with operators of
its own height. -/
def limit (phrase : Phrase) : Nat := if phrase.loops then phrase.height - 1 else phrase.height

theorem limit_le_height (phrase : Phrase) : phrase.limit ≤ phrase.height := by
  cases phrase <;> decide

theorem reach_of_infixed? {node : Expr → Expr → Expr}
    (operator : phrase.infixed? kind = some node) :
    phrase.limit < kind.reach ∧ kind.reach = phrase.height := by
  cases phrase <;> cases kind <;> first | decide | cases operator

theorem extend_gives (phrase : Phrase) (ends : phrase.height < (nextKind rest).reach) :
    Gives (fun depth => phrase.extend depth tree rest) (tree, rest) := by
  have stops : phrase.infixed? (nextKind rest) = none := by
    cases operator : phrase.infixed? (nextKind rest) with
    | none => rfl
    | some node =>
      have := (reach_of_infixed? operator).2
      omega
  refine .of_succ (.of_forall fun depth => ?_)
  by_cases postfixes : phrase = .postfixForm
  · subst postfixes
    change morePostfix _ _ _ = _
    rw [morePostfix]
    cases next : nextKind rest <;> rw [next] at ends <;>
      first | rfl | exact absurd ends (by decide)
  · exact extend_of_infixed?_eq_none postfixes stops

end Phrase

/-- The tokens are read as the tree, and a loop goes on with the tokens after them. -/
def Complete (phrase : Phrase) (used : List Token) (tree : Expr) : Prop :=
  ∀ (rest : List Token) (answer : Expr × List Token), phrase.limit < (nextKind rest).reach →
    Gives (fun depth => phrase.extend depth tree rest) answer →
    Gives (fun depth => phrase.read depth (used ++ rest)) answer

namespace Complete

variable {phrase tighter : Phrase} {used : List Token} {tree : Expr}

variable {rest : List Token}

theorem gives (complete : Complete phrase used tree)
    (ends : phrase.height < (nextKind rest).reach) :
    Gives (fun depth => phrase.read depth (used ++ rest)) (tree, rest) :=
  complete rest _ (Nat.lt_of_le_of_lt phrase.limit_le_height ends) (phrase.extend_gives ends)

theorem of_gives (once : phrase.loops = false)
    (gives : ∀ rest : List Token, phrase.height < (nextKind rest).reach →
      Gives (fun depth => phrase.read depth (used ++ rest)) (tree, rest)) :
    Complete phrase used tree := by
  intro rest answer ends extended
  have same : phrase.limit = phrase.height := by rw [Phrase.limit, once]; rfl
  rw [same] at ends
  rw [← (phrase.extend_gives ends).unique extended]
  exact gives rest ends

/-!
## One step for each form of the grammar
-/

theorem looser_joined (joins : phrase.joins = true) (next : phrase.tighter? = some tighter)
    (complete : Complete tighter used tree) : Complete phrase used tree := by
  intro rest answer ends extended
  have lower : tighter.height < (nextKind rest).reach := by
    cases phrase <;> cases joins <;> cases next <;> exact ends
  refine .of_succ ?_
  simp only [Phrase.read_of_joins joins next]
  exact (complete.gives lower).bind extended

theorem looser_prefixed (leads : phrase.leads = true) (next : phrase.tighter? = some tighter)
    (derived : Derives tighter used tree) (complete : Complete tighter used tree) :
    Complete phrase used tree := by
  have stops (rest : List Token) : phrase.prefixed? (nextKind (used ++ rest)) = none := by
    obtain ⟨first, others, rfl, begins⟩ := derived.begins
    change phrase.prefixed? first.kind = none
    cases phrase <;> cases leads <;> cases next <;> revert begins <;>
      cases first.kind <;> decide
  have heights := Phrase.height_of_tighter? next
  refine of_gives (by cases phrase <;> first | rfl | cases leads) fun rest ends => .of_succ ?_
  simp only [Phrase.read_of_prefixed?_eq_none leads next (stops rest)]
  exact complete.gives (by omega)

theorem looser_expression (complete : Complete .disjunction used tree) :
    Complete .expression used tree := by
  refine of_gives rfl fun rest ends => .of_succ ?_
  have noTest : nextKind rest ≠ .ifWord := nextKind_ne_of_lt_reach ends (by decide)
  simp only [Phrase.read]
  refine (complete.gives (Nat.lt_of_succ_lt ends)).bind (.of_forall fun _ => ?_)
  exact if_neg noTest

theorem conditional {thenTokens testTokens elseTokens : List Token} {ifToken elseToken : Token}
    {thenBranch test elseBranch : Expr}
    (thenComplete : Complete .disjunction thenTokens thenBranch) (ifKind : ifToken.kind = .ifWord)
    (testComplete : Complete .disjunction testTokens test) (elseKind : elseToken.kind = .elseWord)
    (elseComplete : Complete .expression elseTokens elseBranch) :
    Complete .expression (thenTokens ++ ifToken :: (testTokens ++ elseToken :: elseTokens))
      (.conditional thenBranch test elseBranch) := by
  refine of_gives rfl fun rest ends => .of_succ ?_
  simp only [Phrase.read, append_assoc, cons_append]
  refine (thenComplete.gives (lt_reach_cons ifKind (by decide))).bind ?_
  simp only [nextKind_cons, ifKind, ↓reduceIte, tail_cons]
  refine (testComplete.gives (lt_reach_cons elseKind (by decide))).bind ?_
  refine (Gives.expect elseKind).bind ?_
  exact (elseComplete.gives ends).bind (.of_forall fun _ => rfl)

theorem infixed {leftTokens rightTokens : List Token} {left right : Expr}
    {node : Expr → Expr → Expr} (next : phrase.tighter? = some tighter)
    (leftComplete : Complete phrase leftTokens left)
    (joins : phrase.infixed? operator.kind = some node)
    (rightComplete : Complete tighter rightTokens right) :
    Complete phrase (leftTokens ++ operator :: rightTokens) (node left right) := by
  intro rest answer ends extended
  have lower : tighter.height < (nextKind rest).reach := by
    cases phrase <;> first | (cases next; exact ends) | cases joins
  have step (depth : Nat) :
      phrase.extend (depth + 1) left (operator :: (rightTokens ++ rest)) =
        tighter.read depth (rightTokens ++ rest) >>= fun found =>
          phrase.extend depth (node left found.1) found.2 :=
    Phrase.extend_of_infixed?_eq_some next joins
  simp only [append_assoc, cons_append]
  refine leftComplete _ _ (Phrase.reach_of_infixed? joins).1 (.of_succ ?_)
  simp only [step]
  exact (rightComplete.gives lower).bind extended

theorem prefixed {node : Expr → Expr} (leads : phrase.prefixed? operator.kind = some node)
    (complete : Complete phrase used tree) :
    Complete phrase (operator :: used) (node tree) := by
  have once : phrase.loops = false := by
    cases phrase <;> first | rfl | cases leads
  refine of_gives once fun rest ends => .of_succ ?_
  have step (depth : Nat) :
      phrase.read (depth + 1) (operator :: (used ++ rest)) =
        phrase.read depth (used ++ rest) >>= fun found => .ok (node found.1, found.2) :=
    Phrase.read_of_prefixed?_eq_some leads
  simp only [cons_append, step]
  exact (complete.gives ends).bind (.of_forall fun _ => rfl)

theorem comparisonLinks_nil (ends : Phrase.comparison.height < (nextKind rest).reach) :
    Gives (fun depth => comparisonLinks depth rest) ([], rest) := by
  have noOperator : compareOperator? rest = none := by
    cases rest with
    | nil => rfl
    | cons token others =>
      change _ < token.kind.reach at ends
      cases kind : token.kind <;> rw [kind] at ends <;>
        first | exact absurd ends (by decide) | simp only [compareOperator?, kind]
  refine .of_succ (.of_forall fun _ => ?_)
  rw [comparisonLinks, noOperator]

theorem looser_comparison (complete : Complete .sum used tree) :
    Complete .comparison used tree := by
  refine of_gives rfl fun rest ends => .of_succ ?_
  simp only [Phrase.read]
  refine (complete.gives (Nat.lt_of_succ_lt ends)).bind ?_
  exact (comparisonLinks_nil ends).bind (.of_forall fun _ => rfl)

theorem looser_powerOperand (complete : Complete .postfixForm used tree) :
    Complete .powerOperand used tree := by
  refine of_gives rfl fun rest ends => .of_succ ?_
  have noExponent : nextKind rest ≠ .doubleStar := nextKind_ne_of_lt_reach ends (by decide)
  simp only [Phrase.read]
  refine (complete.gives (Nat.lt_of_succ_lt ends)).bind (.of_forall fun _ => ?_)
  exact if_neg noExponent

theorem looser_postfixForm (complete : Complete .primary used tree) :
    Complete .postfixForm used tree := by
  intro rest answer ends extended
  refine .of_succ ?_
  simp only [Phrase.read]
  exact (complete.gives ends).bind extended

theorem looser (next : phrase.tighter? = some tighter) (derived : Derives tighter used tree)
    (complete : Complete tighter used tree) : Complete phrase used tree := by
  cases phrase <;> cases next
  case expression => exact complete.looser_expression
  case disjunction | conjunction | sum | product => exact looser_joined rfl rfl complete
  case negation | signedOperand => exact looser_prefixed rfl rfl derived complete
  case comparison => exact complete.looser_comparison
  case powerOperand => exact complete.looser_powerOperand
  case postfixForm => exact complete.looser_postfixForm

end Complete

variable {mark : List Token} {op : CompareOp}

theorem compareOperator?_of_spelling (spelled : mark.map Token.kind = op.spelling)
    (operand : nextKind tokens ≠ .notWord) :
    compareOperator? (mark ++ tokens) = some (op, tokens) := by
  have one {kind : TokenKind} (spelled : mark.map Token.kind = [kind]) :
      ∃ token : Token, mark = [token] ∧ token.kind = kind := by
    obtain ⟨token, rest, rfl, kind, none⟩ := map_eq_cons_iff.mp spelled
    rw [map_eq_nil_iff.mp none]
    exact ⟨token, rfl, kind⟩
  have two {kind second : TokenKind} (spelled : mark.map Token.kind = [kind, second]) :
      ∃ token word : Token, mark = [token, word] ∧ token.kind = kind ∧ word.kind = second := by
    obtain ⟨token, rest, rfl, kind, others⟩ := map_eq_cons_iff.mp spelled
    obtain ⟨word, rest, rfl, second, none⟩ := map_eq_cons_iff.mp others
    rw [map_eq_nil_iff.mp none]
    exact ⟨token, word, rfl, kind, second⟩
  cases op
  case notWithin | notIdentical =>
    obtain ⟨token, word, rfl, kind, second⟩ := two spelled
    simp [compareOperator?, nextKind, kind, second]
  all_goals
    obtain ⟨token, rfl, kind⟩ := one spelled
    simp [compareOperator?, kind, operand]

theorem CompareOp.reach_of_spelling (spelled : mark.map Token.kind = op.spelling) :
    ∃ token others, mark = token :: others ∧ token.kind.reach = 7 := by
  obtain ⟨kind, kinds, spelling, reach⟩ :
      ∃ kind kinds, op.spelling = kind :: kinds ∧ kind.reach = 7 := by
    cases op <;> exact ⟨_, _, rfl, rfl⟩
  rw [spelling] at spelled
  obtain ⟨token, others, rfl, rfl, _⟩ := map_eq_cons_iff.mp spelled
  exact ⟨token, others, rfl, reach⟩

theorem Derives.nextKind_ne (derived : Derives phrase used tree) (rest : List Token)
    (no : phrase.begins kind = false) :
    nextKind (used ++ rest) ≠ kind := by
  obtain ⟨first, others, rfl, begins⟩ := derived.begins
  change first.kind ≠ kind
  rintro rfl
  rw [begins] at no
  cases no

namespace Complete

theorem comparisonLinks {links : List (CompareOp × Marked)}
    (ends : Phrase.comparison.height < (nextKind rest).reach)
    (spelled : ∀ link ∈ links, link.2.mark.map Token.kind = link.1.spelling)
    (derived : ∀ link ∈ links, Derives .sum link.2.body link.2.tree)
    (complete : ∀ link ∈ links, Complete .sum link.2.body link.2.tree) :
    Phrase.sum.height < (nextKind (links.flatMap (·.2.tokens) ++ rest)).reach ∧
      Gives (fun depth => Condition.comparisonLinks depth (links.flatMap (·.2.tokens) ++ rest))
        (links.map fun link => (link.1, link.2.tree), rest) := by
  induction links with
  | nil =>
    exact ⟨Nat.lt_of_succ_lt ends, comparisonLinks_nil ends⟩
  | cons link others ih =>
    obtain ⟨op, mark, body, tree⟩ := link
    rw [forall_mem_cons] at spelled derived complete
    obtain ⟨after, givesOthers⟩ := ih spelled.2 derived.2 complete.2
    simp only [flatMap_cons, Marked.tokens_mk, append_assoc]
    constructor
    · obtain ⟨token, more, split, reach⟩ := CompareOp.reach_of_spelling spelled.1
      change mark = _ at split
      rw [split]
      exact lt_reach_cons rfl (by rw [reach]; decide)
    · refine .of_succ ?_
      have found := compareOperator?_of_spelling spelled.1
        (derived.1.nextKind_ne (others.flatMap (·.2.tokens) ++ rest) rfl)
      dsimp only at found
      simp only [Condition.comparisonLinks, found]
      exact (complete.1.gives after).bind (givesOthers.bind (.of_forall fun _ => rfl))

theorem chain {firstTokens : List Token} {first : Expr} {links : List (CompareOp × Marked)}
    (firstComplete : Complete .sum firstTokens first) (several : links ≠ [])
    (spelled : ∀ link ∈ links, link.2.mark.map Token.kind = link.1.spelling)
    (derived : ∀ link ∈ links, Derives .sum link.2.body link.2.tree)
    (complete : ∀ link ∈ links, Complete .sum link.2.body link.2.tree) :
    Complete .comparison (firstTokens ++ links.flatMap (·.2.tokens))
      (.comparison first (links.map fun link => (link.1, link.2.tree))) := by
  refine of_gives rfl fun rest ends => .of_succ ?_
  obtain ⟨after, givesLinks⟩ := comparisonLinks ends spelled derived complete
  simp only [Phrase.read, append_assoc]
  refine (firstComplete.gives after).bind (givesLinks.bind (.of_forall fun _ => ?_))
  rw [if_neg (by simpa using several)]
  rfl

theorem power {exponentTokens : List Token} {exponent : Expr}
    (baseComplete : Complete .postfixForm baseTokens base) (kind : operator.kind = .doubleStar)
    (exponentComplete : Complete .signedOperand exponentTokens exponent) :
    Complete .powerOperand (baseTokens ++ operator :: exponentTokens)
      (.binary .power base exponent) := by
  refine of_gives rfl fun rest ends => .of_succ ?_
  -- No token continues signed operands only, so what ends a power ends its exponent.
  have exponentEnds : Phrase.signedOperand.height < (nextKind rest).reach := by
    revert ends
    cases nextKind rest <;> decide
  simp only [Phrase.read, append_assoc, cons_append]
  refine (baseComplete.gives (lt_reach_cons kind (by decide))).bind ?_
  simp only [nextKind_cons, kind, ↓reduceIte, tail_cons]
  exact (exponentComplete.gives exponentEnds).bind (.of_forall fun _ => rfl)

/-!
## Items, targets and conditions
-/

theorem lt_reach_items {items : List Marked} {last rest : List Token}
    (ends : Phrase.expression.height < (nextKind rest).reach)
    (commas : ∀ item ∈ items, item.mark.map Token.kind = [.comma])
    (lastComma : last = [] ∨ last.map Token.kind = [.comma]) :
    Phrase.expression.height <
      (nextKind (items.flatMap Marked.tokens ++ (last ++ rest))).reach := by
  obtain ⟨rfl, rfl⟩ | comma := nextKind_items rest commas lastComma
  · exact ends
  · rw [comma]
    decide

theorem moreItems {closing : TokenKind} {items : List Marked} {last : List Token}
    (closes : closing = .closeParen ∨ closing = .closeBracket) (ends : nextKind rest = closing)
    (commas : ∀ item ∈ items, item.mark.map Token.kind = [.comma])
    (lastComma : last = [] ∨ last.map Token.kind = [.comma])
    (derived : ∀ item ∈ items, Derives .expression item.body item.tree)
    (complete : ∀ item ∈ items, Complete .expression item.body item.tree) :
    Gives (fun depth =>
        Condition.moreItems depth closing (items.flatMap Marked.tokens ++ (last ++ rest)))
      (items.map Marked.tree, rest) := by
  induction items with
  | nil =>
    rw [flatMap_nil, nil_append]
    refine .of_succ (.of_forall fun depth => ?_)
    rw [Condition.moreItems]
    obtain rfl | lastKind := lastComma
    · refine if_neg ?_
      rw [nil_append, ends]
      obtain rfl | rfl := closes <;> decide
    · obtain ⟨comma, others, rfl, commaKind, none⟩ := map_eq_cons_iff.mp lastKind
      obtain rfl := map_eq_nil_iff.mp none
      exact (if_pos commaKind).trans (if_pos ends)
  | cons item others ih =>
    obtain ⟨mark, body, tree⟩ := item
    rw [forall_mem_cons] at commas derived complete
    obtain ⟨comma, none, split, commaKind, empty⟩ := map_eq_cons_iff.mp commas.1
    obtain rfl := map_eq_nil_iff.mp empty
    dsimp only at split
    subst split
    have inside :
        nextKind (body ++ (others.flatMap Marked.tokens ++ (last ++ rest))) ≠ closing := by
      refine derived.1.nextKind_ne _ ?_
      obtain rfl | rfl := closes <;> rfl
    have after := lt_reach_items (by rw [ends]; obtain rfl | rfl := closes <;> decide)
      commas.2 lastComma
    simp only [flatMap_cons, Marked.tokens_mk, append_assoc, cons_append,
      nil_append]
    refine .of_succ ?_
    simp only [Condition.moreItems, nextKind_cons, commaKind, ↓reduceIte, tail_cons, inside]
    refine (complete.1.gives after).bind ?_
    exact (ih commas.2 derived.2 complete.2).bind (.of_forall fun _ => rfl)

theorem targetNames {names : List Text} (targets : TargetNames used names)
    (ends : nextKind rest ≠ .comma) :
    Gives (fun depth => Condition.targetNames depth (used ++ rest)) (names, rest) := by
  induction targets with
  | one kind =>
    refine .of_succ ?_
    simp only [Condition.targetNames]
    exact (Gives.expect kind).bind (.of_forall fun _ => if_neg ends)
  | more kind commaKind _ ih =>
    refine .of_succ ?_
    simp only [Condition.targetNames, cons_append]
    refine (Gives.expect kind).bind ?_
    simp only [nextKind_cons, commaKind, ↓reduceIte, tail_cons]
    exact ih.bind (.of_forall fun _ => rfl)

theorem comprehensionConditions {conditions : List Marked}
    (ends : Phrase.comprehension.height < (nextKind rest).reach)
    (words : ∀ condition ∈ conditions, condition.mark.map Token.kind = [.ifWord])
    (complete : ∀ condition ∈ conditions, Complete .disjunction condition.body condition.tree) :
    Phrase.disjunction.height <
        (nextKind (conditions.flatMap Marked.tokens ++ rest)).reach ∧
      Gives (fun depth =>
          Condition.comprehensionConditions depth (conditions.flatMap Marked.tokens ++ rest))
        (conditions.map Marked.tree, rest) := by
  induction conditions with
  | nil =>
    have noWord : nextKind rest ≠ .ifWord := nextKind_ne_of_lt_reach ends (by decide)
    refine ⟨Nat.lt_trans (by decide) ends, .of_succ (.of_forall fun _ => ?_)⟩
    rw [flatMap_nil, nil_append, Condition.comprehensionConditions, if_neg noWord]
    rfl
  | cons condition others ih =>
    obtain ⟨mark, body, tree⟩ := condition
    rw [forall_mem_cons] at words complete
    obtain ⟨after, givesOthers⟩ := ih words.2 complete.2
    obtain ⟨word, none, split, wordKind, empty⟩ := map_eq_cons_iff.mp words.1
    obtain rfl := map_eq_nil_iff.mp empty
    dsimp only at split
    subst split
    simp only [flatMap_cons, Marked.tokens_mk, append_assoc, cons_append,
      nil_append]
    refine ⟨lt_reach_cons wordKind (by decide), .of_succ ?_⟩
    simp only [Condition.comprehensionConditions, nextKind_cons, wordKind, ↓reduceIte,
      tail_cons]
    exact (complete.1.gives after).bind (givesOthers.bind (.of_forall fun _ => rfl))

theorem comprehension {elementTokens targetTokens iterableTokens : List Token}
    {forToken inToken : Token} {element iterable : Expr} {targets : List Text}
    {conditions : List Marked} (elementComplete : Complete .expression elementTokens element)
    (forKind : forToken.kind = .forWord) (bound : TargetNames targetTokens targets)
    (inKind : inToken.kind = .inWord)
    (iterableComplete : Complete .disjunction iterableTokens iterable)
    (words : ∀ condition ∈ conditions, condition.mark.map Token.kind = [.ifWord])
    (complete : ∀ condition ∈ conditions, Complete .disjunction condition.body condition.tree) :
    Complete .comprehension
      (elementTokens ++ forToken :: (targetTokens ++ inToken ::
        (iterableTokens ++ conditions.flatMap Marked.tokens)))
      (.comprehension element targets iterable (conditions.map Marked.tree)) := by
  refine of_gives rfl fun rest ends => .of_succ ?_
  obtain ⟨after, givesConditions⟩ := comprehensionConditions ends words complete
  simp only [Phrase.read, append_assoc, cons_append]
  refine (elementComplete.gives (lt_reach_cons forKind (by decide))).bind (.of_succ ?_)
  simp only [comprehensionTail]
  refine (Gives.expect forKind).bind ?_
  refine (targetNames bound (by rw [nextKind_cons, inKind]; decide)).bind ?_
  refine (Gives.expect inKind).bind ?_
  refine (iterableComplete.gives after).bind ?_
  exact givesConditions.bind (.of_forall fun _ => rfl)

/-!
## What stands after an opening mark
-/

section

variable {tokens last : List Token} {tree : Expr} {opening closing : Token} {items : List Marked}

theorem enclosed_items (items : List Marked) (last rest : List Token)
    (closes : kind = .closeParen ∨ kind = .closeBracket) (closingKind : closing.kind = kind)
    (between : CommasBetween items last)
    (derived : ∀ item ∈ items, Derives .expression item.body item.tree)
    (complete : ∀ item ∈ items, Complete .expression item.body item.tree) :
    Gives (fun depth =>
        enclosed depth kind (items.flatMap Marked.tokens ++ last ++ closing :: rest))
      (.items (items.map Marked.tree) (!(items.tail.isEmpty && last.isEmpty)), rest) := by
  refine .of_succ ?_
  rw [append_assoc]
  cases items with
  | nil =>
    obtain rfl := between
    refine .of_forall fun depth => ?_
    rw [enclosed]
    exact if_pos closingKind
  | cons first others =>
    obtain ⟨mark, body, tree⟩ := first
    obtain ⟨rfl, commas, lastComma⟩ := between
    rw [forall_mem_cons] at derived complete
    have inhabited :
        nextKind (body ++ (others.flatMap Marked.tokens ++ (last ++ closing :: rest))) ≠ kind := by
      refine derived.1.nextKind_ne _ ?_
      obtain rfl | rfl := closes <;> rfl
    have after := @lt_reach_items others last (closing :: rest)
      (lt_reach_cons closingKind (by obtain rfl | rfl := closes <;> decide)) commas lastComma
    have noGenerator :
        nextKind (others.flatMap Marked.tokens ++ (last ++ closing :: rest)) ≠ .forWord := by
      obtain ⟨rfl, rfl⟩ | comma := nextKind_items (closing :: rest) commas lastComma
      · change closing.kind ≠ _
        rw [closingKind]
        obtain rfl | rfl := closes <;> decide
      · rw [comma]
        decide
    have separated := @decide_nextKind_items others last (closing :: rest) commas lastComma (by
      rw [nextKind_cons, closingKind]
      obtain rfl | rfl := closes <;> decide)
    simp only [flatMap_cons, Marked.tokens_mk, nil_append, append_assoc, enclosed, inhabited,
      ↓reduceIte]
    refine (complete.1.gives after).bind ?_
    simp only [noGenerator, ↓reduceIte, separated]
    have ends : nextKind (closing :: rest) = kind := closingKind
    refine (moreItems closes ends commas lastComma derived.2 complete.2).bind ?_
    exact (Gives.expect closingKind).bind (.of_forall fun _ => rfl)

theorem enclosed_generator (rest : List Token) (closes : kind = .closeParen ∨ kind = .closeBracket)
    (closingKind : closing.kind = kind) (derived : Derives .comprehension tokens tree)
    (complete : Complete .comprehension tokens tree) :
    Gives (fun depth => enclosed depth kind (tokens ++ closing :: rest))
      (.generator tree, rest) := by
  have inhabited : nextKind (tokens ++ closing :: rest) ≠ kind := by
    refine derived.nextKind_ne _ ?_
    obtain rfl | rfl := closes <;> rfl
  obtain ⟨enough, gives⟩ := @gives _ _ _ (closing :: rest) complete
    (lt_reach_cons closingKind (by obtain rfl | rfl := closes <;> decide))
  refine .of_succ ⟨enough, fun depth deep => ?_⟩
  have parsed := gives (depth + 1) (by omega)
  dsimp only at parsed ⊢
  rw [Phrase.read, bind_eq_ok_iff] at parsed
  obtain ⟨⟨element, middle⟩, elementParsed, tailParsed⟩ := parsed
  have generates : nextKind middle = .forWord := by
    cases depth with
    | zero => cases tailParsed
    | succ depth =>
      dsimp only at tailParsed
      rw [comprehensionTail] at tailParsed
      obtain ⟨forToken, afterFor, rfl, forKind, _⟩ := expect_bind tailParsed
      exact forKind
  rw [enclosed, if_neg inhabited, bind_eq_ok_iff]
  refine ⟨_, elementParsed, (if_pos generates).trans ?_⟩
  refine bind_eq_ok_iff.mpr ⟨_, tailParsed, ?_⟩
  exact bind_eq_ok_iff.mpr ⟨_, expect_eq_ok_iff.mpr ⟨rfl, closingKind⟩, rfl⟩

theorem index {position : Expr} (baseComplete : Complete .postfixForm baseTokens base)
    (openingKind : opening.kind = .openBracket)
    (positionComplete : Complete .expression tokens position)
    (closingKind : closing.kind = .closeBracket) :
    Complete .postfixForm (baseTokens ++ opening :: (tokens ++ [closing]))
      (.index base position) := by
  intro rest answer ends extended
  simp only [append_assoc, cons_append, nil_append]
  refine baseComplete _ _ (lt_reach_cons openingKind (by decide)) (.of_succ ?_)
  simp only [Phrase.extend, morePostfix, nextKind_cons, openingKind, tail_cons]
  refine (positionComplete.gives (lt_reach_cons closingKind (by decide))).bind ?_
  exact (Gives.expect closingKind).bind extended

theorem member {dot label : Token} (baseComplete : Complete .postfixForm baseTokens base)
    (dotKind : dot.kind = .dot) (labelKind : label.kind = .name) :
    Complete .postfixForm (baseTokens ++ [dot, label]) (.attribute base label.literal) := by
  intro rest answer ends extended
  simp only [append_assoc, cons_append, nil_append]
  refine baseComplete _ _ (lt_reach_cons dotKind (by decide)) (.of_succ ?_)
  simp only [Phrase.extend, morePostfix, nextKind_cons, dotKind, tail_cons]
  exact (Gives.expect labelKind).bind extended

theorem called {functionTokens : List Token} {function : Expr} {content : Enclosed}
    (functionComplete : Complete .postfixForm functionTokens function)
    (openingKind : opening.kind = .openParen)
    (gives : ∀ rest, Gives (fun depth => enclosed depth .closeParen (tokens ++ closing :: rest))
      (content, rest)) :
    Complete .postfixForm (functionTokens ++ opening :: (tokens ++ [closing]))
      (.call function content.arguments) := by
  intro rest answer ends extended
  simp only [append_assoc, cons_append, nil_append]
  refine functionComplete _ _ (lt_reach_cons openingKind (by decide)) (.of_succ ?_)
  simp only [Phrase.extend, morePostfix, nextKind_cons, openingKind, tail_cons]
  exact (gives rest).bind extended

theorem grouped {content : Enclosed} (openingKind : opening.kind = .openParen)
    (gives : ∀ rest, Gives (fun depth => enclosed depth .closeParen (tokens ++ closing :: rest))
      (content, rest)) :
    Complete .primary (opening :: (tokens ++ [closing])) content.grouped := by
  refine of_gives rfl fun rest ends => .of_succ ?_
  simp only [Phrase.read, cons_append, append_assoc, nil_append, openingKind]
  exact (gives rest).bind (.of_forall fun _ => rfl)

theorem listed {content : Enclosed} (openingKind : opening.kind = .openBracket)
    (gives : ∀ rest, Gives (fun depth => enclosed depth .closeBracket (tokens ++ closing :: rest))
      (content, rest)) :
    Complete .primary (opening :: (tokens ++ [closing])) content.listed := by
  refine of_gives rfl fun rest ends => .of_succ ?_
  simp only [Phrase.read, cons_append, append_assoc, nil_append, openingKind]
  exact (gives rest).bind (.of_forall fun _ => rfl)

theorem group (openingKind : opening.kind = .openParen) (derived : Derives .expression tokens tree)
    (complete : Complete .expression tokens tree) (closingKind : closing.kind = .closeParen) :
    Complete .primary (opening :: (tokens ++ [closing])) tree := by
  refine @grouped tokens opening closing (.items [tree] false) openingKind fun rest => ?_
  have gives := enclosed_items [⟨[], tokens, tree⟩] [] rest (.inl rfl) closingKind
    ⟨rfl, by simp, .inl rfl⟩ (by simpa using derived) (by simpa using complete)
  simpa [Marked.tokens] using gives

end

theorem constant {token : Token} {value : Literal} (stands : token.constant? = some value) :
    Complete .primary [token] (.literal value) := by
  refine of_gives rfl fun rest _ => .of_succ (.of_forall fun depth => ?_)
  change Phrase.primary.read (depth + 1) (token :: rest) = _
  rw [Phrase.read]
  unfold Token.constant? at stands
  cases kind : token.kind <;> simp only [kind] at stands <;> simp_all [numberConstant]

theorem adjacentTexts_append {texts : List Token}
    (each : ∀ token ∈ texts, token.kind = .textLiteral) (ends : nextKind rest ≠ .textLiteral) :
    adjacentTexts (texts ++ rest) = (texts.flatMap Token.literal, rest) := by
  induction texts with
  | nil =>
    cases rest with
    | nil => rfl
    | cons token others => exact if_neg ends
  | cons token others ih =>
    rw [forall_mem_cons] at each
    rw [cons_append, adjacentTexts, if_pos each.1, ih each.2]
    rfl

theorem texts {used : List Token} (nonempty : used ≠ [])
    (each : ∀ token ∈ used, token.kind = .textLiteral) :
    Complete .primary used (.literal (.text (used.flatMap Token.literal))) := by
  refine of_gives rfl fun rest ends => .of_succ (.of_forall fun depth => ?_)
  have noText : nextKind rest ≠ .textLiteral := nextKind_ne_of_lt_reach ends (by decide)
  cases used with
  | nil => exact absurd rfl nonempty
  | cons token others =>
    change Phrase.primary.read (depth + 1) (token :: (others ++ rest)) = _
    rw [Phrase.read, each token mem_cons_self, ← cons_append,
      adjacentTexts_append each noText]

theorem name {token : Token} (kind : token.kind = .name) :
    Complete .primary [token] (.name token.literal token.offset) := by
  refine of_gives rfl fun rest _ => .of_succ (.of_forall fun depth => ?_)
  change Phrase.primary.read (depth + 1) (token :: rest) = _
  rw [Phrase.read, kind]

end Complete

theorem Derives.complete (derived : Derives phrase used tree) : Complete phrase used tree := by
  induction derived with
  | looser next inner ih => exact .looser next inner ih
  | conditional _ ifKind _ elseKind _ thenIh testIh elseIh =>
    exact .conditional thenIh ifKind testIh elseKind elseIh
  | infixed next _ joins _ leftIh rightIh => exact .infixed next leftIh joins rightIh
  | prefixed leads _ ih => exact .prefixed leads ih
  | chain _ several spelled each firstIh ih => exact .chain firstIh several spelled each ih
  | power _ kind _ baseIh exponentIh => exact .power baseIh kind exponentIh
  | index _ openingKind _ closingKind baseIh positionIh =>
    exact .index baseIh openingKind positionIh closingKind
  | member _ dotKind labelKind ih => exact .member ih dotKind labelKind
  | call _ openingKind between each closingKind functionIh ih =>
    rw [← append_assoc (flatMap _ _)]
    exact .called functionIh openingKind fun rest =>
      Complete.enclosed_items _ _ rest (.inl rfl) closingKind between each ih
  | generatorCall _ openingKind inner closingKind functionIh ih =>
    exact .called functionIh openingKind fun rest =>
      Complete.enclosed_generator rest (.inl rfl) closingKind inner ih
  | constant stands => exact .constant stands
  | texts nonempty each => exact .texts nonempty each
  | name kind => exact .name kind
  | group openingKind inner closingKind ih => exact .group openingKind inner ih closingKind
  | generator openingKind inner closingKind ih =>
    exact .grouped openingKind fun rest =>
      Complete.enclosed_generator rest (.inl rfl) closingKind inner ih
  | tuple openingKind between single each closingKind ih =>
    rw [← append_assoc, ← grouped_items single]
    exact .grouped openingKind fun rest =>
      Complete.enclosed_items _ _ rest (.inl rfl) closingKind between each ih
  | list openingKind between each closingKind ih =>
    rw [← append_assoc]
    exact .listed openingKind fun rest =>
      Complete.enclosed_items _ _ rest (.inr rfl) closingKind between each ih
  | listed openingKind inner closingKind ih =>
    exact .listed openingKind fun rest =>
      Complete.enclosed_generator rest (.inr rfl) closingKind inner ih
  | comprehension _ forKind bound inKind _ words _ elementIh iterableIh ih =>
    exact .comprehension elementIh forKind bound inKind iterableIh words ih

/-!
## Whole token lists
-/

def sentence (tokens : List Token) : List Token := tokens.takeWhile (·.kind != .endOfText)

theorem ProperTokens.ne_endOfText (proper : ProperTokens tokens) :
    ∀ token ∈ tokens, token.kind ≠ .endOfText := by
  intro token member ended
  have is := proper token member
  rw [ended] at is
  cases is

theorem sentence_append_left (inside : ∀ token ∈ used, token.kind ≠ .endOfText)
    (rest : List Token) : sentence (used ++ rest) = used ++ sentence rest :=
  takeWhile_append_of_pos fun token member => bne_iff_ne.mpr (inside token member)

theorem sentence_eq_nil (ends : nextKind rest = .endOfText) :
    sentence rest = [] := by
  cases rest with
  | nil => rfl
  | cons token others =>
    rw [nextKind_cons] at ends
    rw [sentence, takeWhile_cons, ends]
    rfl

theorem sentence_append (inside : ∀ token ∈ used, token.kind ≠ .endOfText)
    (ends : nextKind rest = .endOfText) : sentence (used ++ rest) = used := by
  rw [sentence_append_left inside, sentence_eq_nil ends, append_nil]

theorem exists_sentence_append (tokens : List Token) :
    ∃ rest, tokens = sentence tokens ++ rest ∧ nextKind rest = .endOfText := by
  induction tokens with
  | nil => exact ⟨[], rfl, rfl⟩
  | cons token others ih =>
    by_cases kind : token.kind = .endOfText
    · refine ⟨token :: others, ?_, kind⟩
      rw [sentence, takeWhile_cons, kind]
      rfl
    · obtain ⟨rest, split, ends⟩ := ih
      refine ⟨rest, ?_, ends⟩
      have inside : (token.kind != .endOfText) = true := bne_iff_ne.mpr kind
      rw [sentence, takeWhile_cons, inside]
      exact congrArg (token :: ·) split

theorem parseTokens_eq_ok_iff :
    parseTokens tokens = .ok tree ↔ Derives .expression (sentence tokens) tree := by
  constructor
  · intro parsed
    rw [parseTokens, bind_eq_ok_iff] at parsed
    obtain ⟨⟨found, rest⟩, read, done⟩ := parsed
    change Phrase.expression.read (depthBound tokens) tokens = _ at read
    obtain ⟨used, split, derived⟩ := (sound _).read _ read
    have ends : nextKind rest = .endOfText := by
      dsimp only at done
      cases kind : nextKind rest <;> rw [kind] at done <;> first | rfl | cases done
    dsimp only at done
    rw [ends] at done
    cases done
    rwa [split, sentence_append derived.proper.ne_endOfText ends]
  · intro derived
    obtain ⟨rest, split, ends⟩ := exists_sentence_append tokens
    obtain ⟨enough, gives⟩ := derived.complete.gives (by rw [ends]; decide)
    have read : expression (depthBound tokens) tokens = .ok (tree, rest) := by
      rw [← expression_of_depthBound_le (Nat.le_add_left (depthBound tokens) enough)]
      have deep := gives (enough + depthBound tokens) (Nat.le_add_right _ _)
      rwa [← split] at deep
    rw [parseTokens, bind_eq_ok_iff]
    refine ⟨(tree, rest), read, ?_⟩
    dsimp only
    rw [ends]
    rfl

theorem parse_eq_ok_iff {source : Text} :
    parse source = .ok tree ↔ Derives .expression (sentence (scan source)) tree := by
  rw [← parseTokens_eq_ok_iff, parse]
  cases parseTokens (scan source) with
  | ok found =>
    exact ⟨fun same => congrArg _ (Except.ok.inj same),
      fun same => congrArg _ (Except.ok.inj same)⟩
  | error fault => exact ⟨nofun, nofun⟩

/-- The grammar gives a token list at most one tree. The parser finds it where it exists; else it
refuses the list, and never because its depth is bounded. -/
theorem parses_exactly_the_grammar (tokens : List Token) :
    (∀ tree, parseTokens tokens = .ok tree ↔ Derives .expression (sentence tokens) tree) ∧
      (∀ tree other, Derives .expression (sentence tokens) tree →
        Derives .expression (sentence tokens) other → tree = other) ∧
      ((∀ tree, ¬ Derives .expression (sentence tokens) tree) →
        ∃ fault, parseTokens tokens = .error fault ∧
          ∀ source, scan source = tokens →
            parse source = .error ⟨source, fault.offset, fault.cause⟩) ∧
      ∀ depth, depthBound tokens ≤ depth →
        expression depth tokens = expression (depthBound tokens) tokens := by
  refine ⟨fun tree => parseTokens_eq_ok_iff, fun tree other first second => ?_, fun none => ?_,
    fun depth => expression_of_depthBound_le⟩
  · have both := (parseTokens_eq_ok_iff.mpr first).symm.trans (parseTokens_eq_ok_iff.mpr second)
    exact Except.ok.inj both
  · cases result : parseTokens tokens with
    | ok tree => exact absurd (parseTokens_eq_ok_iff.mp result) (none tree)
    | error fault =>
      refine ⟨fault, rfl, ?_⟩
      rintro source rfl
      rw [parse, result]

/-- A power binds tighter than a sign on its left and looser than one on its right. -/
theorem parses_exactly_the_grammar_power :
    Derives .expression (sentence (scan [45, 97, 42, 42, 45, 98]))
      (.unary .negate (.binary .power (.name [97] 1) (.unary .negate (.name [98] 5)))) :=
  ((parses_exactly_the_grammar _).1 _).mp rfl

end Covenant.Condition
