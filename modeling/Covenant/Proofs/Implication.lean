import Covenant.Proofs.Coverage
import Covenant.Proofs.Effects
import Covenant.Proofs.Offsets

/-!
# Implications

An implication is spelled out as text around the texts of its two sides. Each side is still read as
it is read alone, because a closing parenthesis ends every token before it, and the whole means what
the two sides mean.
-/

set_option autoImplicit false

namespace Covenant.Condition

open List

/-!
## Texts in parentheses
-/

/-- The tokens of a text in parentheses, the first of which stands at the offset. -/
def grouped (offset : Nat) (text : Text) (tokens : List Token) : List Token :=
  ⟨.openParen, [40], offset⟩ ::
    (tokens.map (Token.moved (offset + 1)) ++ [⟨.closeParen, [41], offset + 1 + text.length⟩])

variable {tokens : List Token} {tree : Expr}

theorem Laid.scanFrom_grouped {text : Text} (laid : Laid 0 text tokens) (offset : Nat)
    (more : Text) :
    scanFrom offset 0 (40 :: (text ++ 41 :: more)) =
      grouped offset text tokens ++ scanFrom (offset + 1 + text.length + 1) 0 more := by
  change ⟨.openParen, [40], offset⟩ :: scanFrom (offset + 1) 0 (text ++ 41 :: more) = _
  have inside := laid.scanFrom_append (offset + 1) more
  rw [Nat.zero_add] at inside
  rw [inside, grouped, cons_append, append_assoc]
  rfl

theorem Derives.loosen (derived : Derives .primary tokens tree) : Derives .negation tokens tree :=
  .looser rfl (.looser rfl (.looser rfl (.looser rfl (.looser rfl (.looser rfl (.looser rfl
    derived))))))

theorem Derives.asDisjunction (derived : Derives .negation tokens tree) :
    Derives .disjunction tokens tree :=
  .looser rfl (.looser rfl derived)

theorem Derives.grouped (derived : Derives .expression tokens tree) (offset : Nat) (text : Text) :
    Derives .negation (grouped offset text tokens) (tree.moved (offset + 1)) :=
  (Derives.group rfl (derived.moved (offset + 1)) rfl).loosen

/-- The tree of an implication whose consequence has a text of the given length. -/
def Expr.implied (premise consequence : Expr) (length : Nat) : Expr :=
  .conditional (consequence.moved 1) (premise.moved (length + 7)) (.literal (.bool true))

theorem scanFrom_if (offset : Nat) (more : Text) :
    scanFrom offset 0 (" if " ++ 40 :: more) =
      ⟨.ifWord, "if", offset + 1⟩ :: scanFrom (offset + 4) 0 (40 :: more) := rfl

theorem scanFrom_and (offset : Nat) (more : Text) :
    scanFrom offset 0 (" and " ++ 40 :: more) =
      ⟨.andWord, "and", offset + 1⟩ :: scanFrom (offset + 5) 0 (40 :: more) := rfl

theorem scanFrom_else (offset : Nat) :
    scanFrom offset 0 " else True" =
      [⟨.elseWord, "else", offset + 1⟩,
        ⟨.trueWord, "True", offset + 6⟩, endToken (offset + 10)] := rfl

section

variable {left right : Text} {leftTree rightTree : Expr} (leftParsed : parse left = .ok leftTree)
  (rightParsed : parse right = .ok rightTree) (noZeroLeft : 0 ∉ left) (noZeroRight : 0 ∉ right)

include leftParsed rightParsed noZeroLeft noZeroRight

theorem parse_implicationText :
    parse (implicationText left right) = .ok (leftTree.implied rightTree right.length) := by
  obtain ⟨leftTokens, _, leftLaid, leftDerived⟩ := laid_of_parse leftParsed noZeroLeft
  obtain ⟨rightTokens, _, rightLaid, rightDerived⟩ := laid_of_parse rightParsed noZeroRight
  have consequence := rightDerived.grouped 0 right
  have premise := leftDerived.grouped (0 + 1 + right.length + 1 + 4) left
  have always (offset : Nat) :
      Derives .negation [⟨.trueWord, "True", offset⟩] (.literal (.bool true)) :=
    (Derives.constant rfl).loosen
  rw [parse_eq_ok_iff, implicationText_eq_framed, framed, scan, rightLaid.scanFrom_grouped,
    scanFrom_if, leftLaid.scanFrom_grouped, scanFrom_else,
    sentence_append_left consequence.proper.ne_endOfText]
  change Derives _ (_ ++ _ :: sentence _) _
  rw [sentence_append_left premise.proper.ne_endOfText]
  have distance : 0 + 1 + right.length + 1 + 4 + 1 = right.length + 7 := by omega
  rw [distance] at premise
  exact .conditional consequence.asDisjunction rfl premise.asDisjunction rfl
    (.looser rfl (always _).asDisjunction)

theorem parse_conjunctionText :
    parse (conjunctionText left right) =
      .ok (.logic .both (leftTree.moved 1) (rightTree.moved (left.length + 8))) := by
  obtain ⟨leftTokens, _, leftLaid, leftDerived⟩ := laid_of_parse leftParsed noZeroLeft
  obtain ⟨rightTokens, _, rightLaid, rightDerived⟩ := laid_of_parse rightParsed noZeroRight
  have first := leftDerived.grouped 0 left
  have second := rightDerived.grouped (0 + 1 + left.length + 1 + 5) right
  rw [parse_eq_ok_iff, conjunctionText_eq_framed, framed, scan, leftLaid.scanFrom_grouped,
    scanFrom_and, rightLaid.scanFrom_grouped, sentence_append_left first.proper.ne_endOfText]
  change Derives _ (_ ++ _ :: sentence _) _
  rw [sentence_append second.proper.ne_endOfText rfl]
  have distance : 0 + 1 + left.length + 1 + 5 + 1 = left.length + 8 := by omega
  rw [distance] at second
  exact .looser rfl (.looser rfl (.infixed rfl (.looser rfl first) rfl second))

end

/-!
## Truth
-/

open Stateful Evaluation

/-- Whether the value of an expression is a true one. -/
def Expr.judge (world : World) (scope : Scope) (expr : Expr) : Evaluation Bool := do
  truth (← expr.eval world scope)

section

variable {world : World} {scope : Scope} {memory : Memory}

theorem truth_run (value : Value) :
    (truth value).run memory = (.ok (truthy (memory.view value)), memory) := rfl

theorem Expr.judge_moved (distance : Nat) (expr : Expr) :
    (expr.moved distance).judge world scope = expr.judge world scope := by
  rw [Expr.judge, Expr.judge, Expr.eval_moved]

theorem Expr.judge_conditional (consequence test alternative : Expr) :
    (Expr.conditional consequence test alternative).judge world scope = (do
      if ← test.judge world scope then consequence.judge world scope
      else alternative.judge world scope) := by
  rw [Expr.judge, Expr.judge, Expr.eval, bind_assoc, bind_assoc]
  refine bind_congr fun value => ?_
  rw [bind_assoc]
  refine bind_congr fun holds => ?_
  cases holds <;> rfl

theorem Expr.judge_true : (Expr.literal (.bool true)).judge world scope = pure true := by
  refine funext fun memory => ?_
  have present : memory.view (.ofBool true) = .ofBool true := by
    unfold Memory.view
    split <;> rfl
  change (truth (.ofBool true)).run memory = (.ok true, memory)
  rw [truth_run, present]
  rfl

theorem Expr.judge_both (left right : Expr) :
    (Expr.logic .both left right).judge world scope = (do
      if ← left.judge world scope then right.judge world scope else return false) := by
  rw [Expr.judge, Expr.judge, Expr.eval, bind_assoc, bind_assoc]
  refine bind_congr fun value => ?_
  rw [bind_assoc]
  -- The truth of the left value is asked for twice, in the same memory both times.
  refine funext fun memory => ?_
  refine (run_bind_of_ok (truth_run value)).trans ?_
  refine Eq.trans ?_ (run_bind_of_ok (truth_run value)).symm
  cases holds : truthy (memory.view value) with
  | true => rfl
  | false =>
    rw [run_bind_of_ok (run_pure value memory), truth_run, holds]
    rfl

variable {firstOutcome secondOutcome : Except Failure Bool}

theorem run_decided {first second : Evaluation Bool}
    (firstRun : first.run memory = (firstOutcome, memory))
    (secondRun : second.run memory = (secondOutcome, memory)) (otherwise : Bool) :
    (do if ← first then second else return otherwise : Evaluation Bool).run memory =
      (firstOutcome >>= fun holds => if holds then secondOutcome else .ok otherwise, memory) := by
  cases firstOutcome with
  | error failure => exact run_bind_of_error firstRun
  | ok holds =>
    rw [run_bind_of_ok firstRun]
    cases holds with
    | false => rfl
    | true => exact secondRun

variable {left right : Expr}
  (leftRun : (left.judge world scope).run memory = (firstOutcome, memory))
  (rightRun : (right.judge world scope).run memory = (secondOutcome, memory))

include leftRun rightRun

theorem Expr.judge_implied_run (length : Nat) :
    ((left.implied right length).judge world scope).run memory =
      (firstOutcome >>= fun holds => if holds then secondOutcome else .ok true, memory) := by
  rw [Expr.implied, Expr.judge_conditional, Expr.judge_moved, Expr.judge_moved, Expr.judge_true]
  exact run_decided leftRun rightRun true

theorem Expr.judge_both_run :
    ((Expr.logic .both left right).judge world scope).run memory =
      (firstOutcome >>= fun holds => if holds then secondOutcome else .ok false, memory) := by
  rw [Expr.judge_both]
  exact run_decided leftRun rightRun false

end

def reported (condition : Condition) : Failure → Failure
  | .crash reason => .evaluation .panic (condition.source ++ ": " ++ reason)
  | failure => failure

theorem value_run (condition : Condition) (world : World) (scope : Scope) (memory : Memory) :
    (value world scope condition).run memory =
      (((condition.expr.eval world scope).run memory).1.mapError condition.reported,
        ((condition.expr.eval world scope).run memory).2) := by
  rw [value, run_tryCatch]
  rcases (condition.expr.eval world scope).run memory with ⟨failure | value, final⟩
  · cases failure <;> rfl
  · rfl

theorem holds_run (condition : Condition) (world : World) (scope : Scope) (memory : Memory) :
    (condition.holds world scope).run memory =
      (((condition.expr.judge world scope).run memory).1.mapError condition.reported,
        ((condition.expr.judge world scope).run memory).2) := by
  have ran := value_run condition world scope memory
  rcases evaluated : (condition.expr.eval world scope).run memory with ⟨failure | value, final⟩
  · rw [evaluated] at ran
    rw [holds, run_bind_of_error ran, Expr.judge, run_bind_of_error evaluated]
    rfl
  · rw [evaluated] at ran
    rw [holds, run_bind_of_ok ran, Expr.judge, run_bind_of_ok evaluated]
    rfl

def outcome (world : World) (scope : Scope) (memory : Memory) (condition : Condition) :
    Except Failure Bool :=
  ((condition.holds world scope).run memory).1

def Fails (world : World) (scope : Scope) (memory : Memory) (condition : Condition) : Prop :=
  ∃ failure, condition.outcome world scope memory = .error failure

/-- Evaluating the condition writes nothing. -/
def Quiet (world : World) (scope : Scope) (memory : Memory) (condition : Condition) : Prop :=
  ((condition.holds world scope).run memory).2 = memory

section

variable {world : World} {scope : Scope} {memory : Memory} {condition : Condition}
  {result : Except Failure Bool}
  (ran : (condition.expr.judge world scope).run memory = (result, memory))

include ran

theorem fails_iff : condition.Fails world scope memory ↔ ∃ failure, result = .error failure := by
  rw [Fails, outcome, holds_run, ran]
  cases result with
  | error failure => exact ⟨fun _ => ⟨failure, rfl⟩, fun _ => ⟨_, rfl⟩⟩
  | ok answer => exact ⟨nofun, nofun⟩

theorem outcome_eq_ok_iff {answer : Bool} :
    condition.outcome world scope memory = .ok answer ↔ result = .ok answer := by
  rw [outcome, holds_run, ran]
  exact mapError_eq_ok_iff

end

theorem Quiet.run {world : World} {scope : Scope} {memory : Memory} {condition : Condition}
    (quiet : condition.Quiet world scope memory) :
    ∃ result, (condition.expr.judge world scope).run memory = (result, memory) := by
  rw [Quiet, holds_run] at quiet
  exact ⟨_, Prod.ext rfl quiet⟩

section

variable {world : World} {scope : Scope} {memory : Memory}
  {premise consequence implication equivalence : Condition}
  (premiseQuiet : premise.Quiet world scope memory)
  (consequenceQuiet : consequence.Quiet world scope memory)

include premiseQuiet consequenceQuiet

theorem implied_meaning {length : Nat}
    (tree : implication.expr = premise.expr.implied consequence.expr length) :
    (implication.Fails world scope memory ↔
      premise.Fails world scope memory ∨
        premise.outcome world scope memory = .ok true ∧ consequence.Fails world scope memory) ∧
    ∀ answer, implication.outcome world scope memory = .ok answer →
      (answer = true ↔ (premise.outcome world scope memory = .ok true →
        consequence.outcome world scope memory = .ok true)) := by
  obtain ⟨first, firstRun⟩ := premiseQuiet.run
  obtain ⟨second, secondRun⟩ := consequenceQuiet.run
  have ran := Expr.judge_implied_run firstRun secondRun length
  rw [← tree] at ran
  simp only [fails_iff ran, fails_iff firstRun, fails_iff secondRun, outcome_eq_ok_iff ran,
    outcome_eq_ok_iff firstRun, outcome_eq_ok_iff secondRun]
  rcases first with failure | holds
  · simp [bind, Except.bind]
  · cases holds <;> cases second <;> simp [bind, Except.bind]

theorem equivalent_meaning {forward backward near far : Nat}
    (tree : equivalence.expr =
      .logic .both ((premise.expr.implied consequence.expr forward).moved near)
        ((consequence.expr.implied premise.expr backward).moved far)) :
    (equivalence.Fails world scope memory ↔
      premise.Fails world scope memory ∨ consequence.Fails world scope memory) ∧
    ∀ answer, equivalence.outcome world scope memory = .ok answer →
      (answer = true ↔ (premise.outcome world scope memory = .ok true ↔
        consequence.outcome world scope memory = .ok true)) := by
  obtain ⟨first, firstRun⟩ := premiseQuiet.run
  obtain ⟨second, secondRun⟩ := consequenceQuiet.run
  have there := Expr.judge_implied_run firstRun secondRun forward
  have back := Expr.judge_implied_run secondRun firstRun backward
  rw [← Expr.judge_moved near] at there
  rw [← Expr.judge_moved far] at back
  have ran := Expr.judge_both_run there back
  rw [← tree] at ran
  simp only [fails_iff ran, fails_iff firstRun, fails_iff secondRun, outcome_eq_ok_iff ran,
    outcome_eq_ok_iff firstRun, outcome_eq_ok_iff secondRun]
  rcases first with failure | firstHolds
  · simp [bind, Except.bind]
  · rcases second with failure | secondHolds
    · cases firstHolds <;> simp [bind, Except.bind]
    · cases firstHolds <;> cases secondHolds <;> simp [bind, Except.bind]

end

/-!
## Signs between two conditions
-/

theorem foldl_max_append (first second : List Nat) :
    (first ++ second).foldl max 0 = max (first.foldl max 0) (second.foldl max 0) := by
  rw [foldl_append]
  nth_rewrite 1 [← Nat.max_zero (first.foldl max 0)]
  exact foldl_assoc

theorem desugar_of_noArrow {mode : Mode} {source : Text} {plain : Plain}
    (noArrow : ¬ arrow <:+: source) (desugared : desugar mode source = .ok plain) :
    ∃ named, spellReturns mode source = .ok named ∧ ¬ arrow <:+: named ∧
      (∀ length ∈ runLengths 0 named, length ≤ 2) ∧
      plain = ⟨spellBackticks named, (runLengths 0 named).foldl max 0⟩ := by
  obtain ⟨named, spelled, returns, implications, short, rfl⟩ := desugar_eq_ok_iff.mp desugared
  obtain ⟨rfl, _⟩ := spellReturns_eq_ok_iff.mp returns
  have noArrow : ¬ arrow <:+: nameReturns false 0 source := by
    rw [infix_nameReturns_iff (by decide) (Text.forall_mem rfl)]
    exact noArrow
  rw [spellImplications_of_noArrow noArrow] at implications
  cases implications
  exact ⟨_, returns, noArrow, short, rfl⟩

theorem ne_append_less_of_parse {text : Text} (parsed : parse text = .ok tree)
    (noZero : 0 ∉ text) (front : Text) : text ≠ front ++ [60] := by
  intro ends
  obtain ⟨tokens, _, laid, derived⟩ := laid_of_parse parsed noZero
  -- The operator `<` is then the last token, and no phrase ends with it.
  obtain ⟨before, last, split, kind⟩ := laid.kind_of_ends_less ends
  obtain ⟨others, final, again, ending⟩ := derived.ends
  rw [split] at again
  obtain ⟨_, same⟩ := append_inj' again rfl
  cases same
  rw [kind] at ending
  cases ending

section

variable {mode : Mode} {left right : Text} {leftPlain rightPlain : Plain}
  (noLeft : ¬ arrow <:+: left) (noRight : ¬ arrow <:+: right)
  (leftDesugared : desugar mode left = .ok leftPlain)
  (rightDesugared : desugar mode right = .ok rightPlain)

include noLeft noRight leftDesugared rightDesugared

theorem desugar_arrow (noLess : ∀ front, leftPlain.text ≠ front ++ [60]) :
    desugar mode (left ++ (arrow ++ right)) =
      .ok ⟨implicationText leftPlain.text rightPlain.text,
        max leftPlain.depth rightPlain.depth⟩ := by
  obtain ⟨leftNamed, leftReturns, noLeft, leftShort, rfl⟩ :=
    desugar_of_noArrow noLeft leftDesugared
  obtain ⟨rightNamed, rightReturns, noRight, rightShort, rfl⟩ :=
    desugar_of_noArrow noRight rightDesugared
  refine desugar_eq_ok_iff.mpr ⟨_, _,
    spellReturns_marked (by decide) (Text.forall_mem rfl) (by decide) leftReturns rightReturns,
    spellImplications_arrow noLeft noRight fun front ends => ?_, ?_, ?_⟩
  · refine noLess (spellBackticks front) ?_
    dsimp only
    rw [ends, spellBackticks_append_cons (by decide)]
    rfl
  · rw [runLengths_implicationText]
    exact forall_mem_append.mpr ⟨rightShort, leftShort⟩
  · rw [runLengths_implicationText, spellBackticks_implicationText, foldl_max_append, Nat.max_comm]

theorem desugar_doubleArrow :
    desugar mode (left ++ (doubleArrow ++ right)) =
      .ok ⟨conjunctionText (implicationText leftPlain.text rightPlain.text)
          (implicationText rightPlain.text leftPlain.text),
        max leftPlain.depth rightPlain.depth⟩ := by
  obtain ⟨leftNamed, leftReturns, noLeft, leftShort, rfl⟩ :=
    desugar_of_noArrow noLeft leftDesugared
  obtain ⟨rightNamed, rightReturns, noRight, rightShort, rfl⟩ :=
    desugar_of_noArrow noRight rightDesugared
  refine desugar_eq_ok_iff.mpr ⟨_, _,
    spellReturns_marked (by decide) (Text.forall_mem rfl) (by decide) leftReturns rightReturns,
    spellImplications_doubleArrow noLeft noRight, ?_, ?_⟩
  · rw [runLengths_conjunctionText, runLengths_implicationText, runLengths_implicationText]
    simp only [forall_mem_append]
    exact ⟨⟨rightShort, leftShort⟩, leftShort, rightShort⟩
  · rw [runLengths_conjunctionText, runLengths_implicationText, runLengths_implicationText,
      spellBackticks_conjunctionText, spellBackticks_implicationText,
      spellBackticks_implicationText, foldl_max_append, foldl_max_append, foldl_max_append,
      Nat.max_comm ((runLengths 0 rightNamed).foldl max 0), Nat.max_self]

end

/-- Two conditions with an arrow between them are a condition that holds where the first implies
the second, and with a double arrow one that holds where the two agree. -/
theorem implications_keep_meaning {mode : Mode} {left right : Text}
    {premise consequence : Condition} (noZeroLeft : 0 ∉ left) (noZeroRight : 0 ∉ right)
    (noArrowLeft : Text.contains left arrow = false)
    (noArrowRight : Text.contains right arrow = false)
    (leftCompiled : compile mode left = .ok premise)
    (rightCompiled : compile mode right = .ok consequence) :
    ∃ implication equivalence : Condition,
      compile mode (left ++ arrow ++ right) = .ok implication ∧
      compile mode (left ++ doubleArrow ++ right) = .ok equivalence ∧
      implication.depth = max premise.depth consequence.depth ∧
      equivalence.depth = max premise.depth consequence.depth ∧
      implication.expr = premise.expr.implied consequence.expr consequence.plain.length ∧
      equivalence.expr =
        .logic .both (implication.expr.moved 1)
          ((consequence.expr.implied premise.expr premise.plain.length).moved
            (implication.plain.length + 8)) ∧
      ∀ world scope memory, premise.Quiet world scope memory →
        consequence.Quiet world scope memory →
        (implication.Fails world scope memory ↔
          premise.Fails world scope memory ∨
            premise.outcome world scope memory = .ok true ∧
              consequence.Fails world scope memory) ∧
        (∀ answer, implication.outcome world scope memory = .ok answer →
          (answer = true ↔ (premise.outcome world scope memory = .ok true →
            consequence.outcome world scope memory = .ok true))) ∧
        (equivalence.Fails world scope memory ↔
          premise.Fails world scope memory ∨ consequence.Fails world scope memory) ∧
        (∀ answer, equivalence.outcome world scope memory = .ok answer →
          (answer = true ↔ (premise.outcome world scope memory = .ok true ↔
            consequence.outcome world scope memory = .ok true))) := by
  obtain ⟨leftPlain, leftTree, leftDesugared, leftParsed, rfl⟩ := compile_eq_ok_iff.mp leftCompiled
  obtain ⟨rightPlain, rightTree, rightDesugared, rightParsed, rfl⟩ :=
    compile_eq_ok_iff.mp rightCompiled
  rw [← Bool.not_eq_true, Text.contains_iff] at noArrowLeft noArrowRight
  rw [← zero_mem_desugar_iff leftDesugared] at noZeroLeft
  rw [← zero_mem_desugar_iff rightDesugared] at noZeroRight
  have leftImplies := parse_implicationText leftParsed rightParsed noZeroLeft noZeroRight
  have rightImplies := parse_implicationText rightParsed leftParsed noZeroRight noZeroLeft
  have both := parse_conjunctionText leftImplies rightImplies
    (by simp [zero_mem_implicationText_iff, noZeroLeft, noZeroRight])
    (by simp [zero_mem_implicationText_iff, noZeroLeft, noZeroRight])
  rw [List.append_assoc, List.append_assoc]
  refine ⟨_, _, compile_eq_ok_iff.mpr ⟨_, _, desugar_arrow noArrowLeft noArrowRight leftDesugared
      rightDesugared (ne_append_less_of_parse leftParsed noZeroLeft), leftImplies, rfl⟩,
    compile_eq_ok_iff.mpr ⟨_, _, desugar_doubleArrow noArrowLeft noArrowRight leftDesugared
      rightDesugared, both, rfl⟩, rfl, rfl, rfl, rfl, ?_⟩
  intro world scope memory premiseQuiet consequenceQuiet
  rw [← and_assoc]
  exact ⟨implied_meaning premiseQuiet consequenceQuiet rfl,
    equivalent_meaning premiseQuiet consequenceQuiet rfl⟩

/-- Neither the parenthesis in the quoted text nor the backtick disturbs the implication. -/
theorem implications_keep_meaning_quoted :
    ∃ premise consequence implication : Condition,
      compile .postcondition (Text.ofString "x`==')'") = .ok premise ∧
      compile .postcondition (Text.ofString "return") = .ok consequence ∧
      compile .postcondition (Text.ofString "x`==')'-->return") = .ok implication ∧
      implication.depth = 1 ∧
      ∀ world scope memory, implication.Fails world scope memory ↔
        premise.Fails world scope memory ∨
          premise.outcome world scope memory = .ok true ∧
            consequence.Fails world scope memory := by
  have premise : compile .postcondition (Text.ofString "x`==')'") =
      .ok ⟨Text.ofString "x`==')'", Text.ofString "x__BACKTICK__==')'", 1,
        .comparison (.name (Text.ofString "x__BACKTICK__") 0)
          [(.equal, .literal (.text [41]))]⟩ := rfl
  have consequence : compile .postcondition (Text.ofString "return") =
      .ok ⟨Text.ofString "return", returnName, 0, .name returnName 0⟩ := rfl
  obtain ⟨implication, _, compiled, _, depth, _, _, _, meaning⟩ :=
    implications_keep_meaning (by decide) (by decide) (by decide) (by decide) premise consequence
  refine ⟨_, _, implication, premise, consequence, compiled, depth, ?_⟩
  intro world scope memory
  refine (meaning world scope memory ?_ ?_).1
  · exact (sideEffectFree_of_isArithmetic world rfl scope memory).symm
  · exact (sideEffectFree_of_isArithmetic world rfl scope memory).symm

end Covenant.Condition
