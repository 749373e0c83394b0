import Covenant.Proofs.Coverage
import Covenant.Proofs.TextConstants

/-!
# Quoted texts

Sugar is removed also inside of quotes. A quoted text keeps its value as long as its own bytes hold
no sugar: outside of quotes, removing sugar changes words and adds parentheses, and neither joins
quoted texts nor divides them.
-/

set_option autoImplicit false

namespace Covenant.Condition

open List

theorem texts_of_parse {text : Text} {tree : Expr} (parsed : parse text = .ok tree) :
    tree.texts = joinedTexts none (scan text) := by
  obtain ⟨tokens, ending, scanned, inside⟩ := (scanned 0 text).ends
  rw [parse_eq_ok_iff, scan, scanned, sentence_append inside rfl] at parsed
  have ends : nextKind [endToken ending] ≠ .textLiteral :=
    show TokenKind.endOfText ≠ .textLiteral by decide
  rw [scan, scanned, parsed.holdTexts _ ends]
  exact (append_nil _).symm

/-!
## Quotations in a text
-/

/-- The bytes hold neither the word `return` nor a backtick nor an arrow. -/
def Unsugared (body : Text) : Prop :=
  findReturn? false body = none ∧ backtick ∉ body ∧ Text.contains body arrow = false

instance (body : Text) : Decidable (Unsugared body) := inferInstanceAs (Decidable (_ ∧ _))

/-- The bodies of the quotations in a text, up to a zero byte; `skip` bytes of the front belong to
one already found. An unclosed quote leaves none. -/
def quotations : Nat → Text → Option (List Text)
  | _, [] => some []
  | skip + 1, _ :: rest => quotations skip rest
  | 0, byte :: rest =>
    if byte = 0 then some []
    else if isQuote byte then
      match quotedBody byte rest with
      | (some _, length) => (quotations length rest).map (rest.take (length - 1) :: ·)
      | (none, _) => none
    else quotations 0 rest

/-- The text has quotations without sugar. Joined with the `run` before it where only blanks are
between, they have the given values. -/
inductive Quoting : Option Text → Text → List Text → Prop where
  | done {run} : Quoting run [] run.toList
  | stop {run rest} : Quoting run (0 :: rest) run.toList
  | blank {run byte rest texts} : isBlank byte = true → Quoting run rest texts →
      Quoting run (byte :: rest) texts
  | plain {run byte rest texts} : isPlainByte byte = true → Quoting none rest texts →
      Quoting run (byte :: rest) (run.toList ++ texts)
  | quoted {run quote body value rest texts} : isQuote quote = true →
      quotedBody quote (body ++ [quote]) = (some value, body.length + 1) → Unsugared body →
      Quoting (some (run.getD [] ++ value)) rest texts →
      Quoting run (quote :: (body ++ quote :: rest)) texts

theorem quotations_skip (raw : Text) (last : UInt8) (more : Text) :
    quotations (raw.length + 1) (raw ++ last :: more) = quotations 0 more := by
  induction raw with
  | nil => rfl
  | cons byte rest ih => exact ih

variable {byte : UInt8}

theorem isPlainByte_eq_false_of_blank (blank : isBlank byte = true) : isPlainByte byte = false := by
  simp [isPlainByte, blank]

theorem isPlainByte_eq_false_of_quote (quote : isQuote byte = true) : isPlainByte byte = false := by
  simp [isPlainByte, quote]

theorem not_mem_of_plain {part : Text} (plain : ∀ byte ∈ part, isPlainByte byte = true)
    (special : isPlainByte byte = false) : byte ∉ part := by
  intro member
  rw [plain byte member] at special
  cases special

theorem isWordByte_eq_false : isPlainByte byte = false → isWordByte byte = false :=
  forall_byte (by decide +kernel) byte

theorem isQuote_spec : isQuote byte = true → byte ≠ 0 ∧ isBlank byte = false :=
  forall_byte (by decide +kernel) byte

theorem exists_quoting {text : Text} {bodies : List Text} (closed : quotations 0 text = some bodies)
    (unsugared : ∀ body ∈ bodies, Unsugared body) (run : Option Text) :
    ∃ texts, Quoting run text texts := by
  induction length : text.length using Nat.strongRecOn generalizing text bodies run with
  | ind size ih =>
    cases text with
    | nil => exact ⟨_, .done⟩
    | cons byte rest =>
      rw [quotations] at closed
      split at closed
      · rename_i zero
        subst zero
        exact ⟨_, .stop⟩
      split at closed
      · rename_i nonzero quote
        split at closed
        · rename_i value taken found
          obtain ⟨body, more, rfl, rfl, _, closes⟩ := quotedBody_eq_some found
          rw [quotations_skip] at closed
          obtain ⟨others, closedMore, rfl⟩ := Option.map_eq_some_iff.mp closed
          rw [Nat.add_sub_cancel, take_left, forall_mem_cons] at unsugared
          have shorter : more.length < size := by
            rw [← length, length_cons, length_append, length_cons]
            omega
          obtain ⟨texts, quoting⟩ :=
            ih more.length shorter closedMore unsugared.2 (some (run.getD [] ++ value)) rfl
          exact ⟨texts, .quoted quote (closes []) unsugared.1 quoting⟩
        · cases closed
      · rename_i nonzero noQuote
        have shorter : rest.length < size := by
          rw [← length]
          exact Nat.lt_succ_self _
        cases blank : isBlank byte with
        | true =>
          obtain ⟨texts, quoting⟩ := ih rest.length shorter closed unsugared run rfl
          exact ⟨texts, .blank blank quoting⟩
        | false =>
          obtain ⟨texts, quoting⟩ := ih rest.length shorter closed unsugared none rfl
          rw [Bool.not_eq_true] at noQuote
          exact ⟨_, .plain (isPlainByte_iff.mpr ⟨nonzero, blank, noQuote⟩) quoting⟩

namespace Quoting

variable {run : Option Text} {byte stop : UInt8} {word front rest text : Text}
  {texts others : List Text}

theorem plain_iff (plain : isPlainByte byte = true) :
    Quoting run (byte :: rest) texts ↔
      ∃ others, texts = run.toList ++ others ∧ Quoting none rest others := by
  obtain ⟨nonzero, inked, noQuote⟩ := isPlainByte_iff.mp plain
  constructor
  · intro quoting
    cases quoting with
    | stop => exact absurd rfl nonzero
    | blank blank _ =>
      rw [inked] at blank
      cases blank
    | plain _ quoting => exact ⟨_, rfl, quoting⟩
    | quoted quote _ _ _ =>
      rw [noQuote] at quote
      cases quote
  · intro found
    obtain ⟨others, rfl, quoting⟩ := found
    exact .plain plain quoting

theorem letters_iff (plain : ∀ byte ∈ word, isPlainByte byte = true) :
    Quoting none (word ++ rest) texts ↔ Quoting none rest texts := by
  induction word with
  | nil => rfl
  | cons first letters ih =>
    rw [forall_mem_cons] at plain
    rw [cons_append, plain_iff plain.1, ← ih plain.2]
    simp

theorem word_iff (inhabited : word ≠ []) (plain : ∀ byte ∈ word, isPlainByte byte = true) :
    Quoting run (word ++ rest) texts ↔
      ∃ others, texts = run.toList ++ others ∧ Quoting none rest others := by
  cases word with
  | nil => exact absurd rfl inhabited
  | cons first letters =>
    rw [forall_mem_cons] at plain
    rw [cons_append, plain_iff plain.1]
    simp only [letters_iff plain.2]

theorem joinedTexts_scanFrom (quoting : Quoting run text texts) (offset : Nat) :
    joinedTexts run (scanFrom offset 0 text) = texts := by
  -- A quotation and its token agree byte for byte; a word is one token but many steps of `Quoting`.
  induction length : text.length using Nat.strongRecOn generalizing run text texts offset with
  | ind size ih =>
    cases quoting with
    | done => exact append_nil _
    | stop => exact append_nil _
    | @blank _ byte rest _ blank quoting =>
      rw [scanFrom_blank (isBlank_ne_zero blank) blank]
      exact ih rest.length (by rw [← length]; exact Nat.lt_succ_self _) quoting _ rfl
    | @plain _ byte rest others plain quoting =>
      obtain ⟨nonzero, inked, noQuote⟩ := isPlainByte_iff.mp plain
      obtain ⟨raw, more, rfl, taken, noText, letters⟩ := lexeme_plain noQuote rest
      have shorter : more.length < size := by
        rw [← length, length_cons, length_append]
        omega
      rw [scanFrom_lexeme offset nonzero inked taken, joinedTexts_other noText]
      rw [letters_iff letters] at quoting
      exact congrArg _ (ih more.length shorter quoting _ rfl)
    | @quoted _ quote body value rest _ isQuote closed unsugared quoting =>
      have found : lexeme quote (body ++ [quote] ++ rest) =
          ⟨.textLiteral, value, (body ++ [quote]).length + 1⟩ := by
        rw [append_assoc, length_append]
        exact lexeme_quoted isQuote ((quotedBody_closed closed).2 rest)
      have shorter : rest.length < size := by
        rw [← length, length_cons, length_append, length_cons]
        omega
      obtain ⟨nonzero, inked⟩ := isQuote_spec isQuote
      have scanned := scanFrom_lexeme offset nonzero inked (congrArg Lexeme.length found)
      rw [found, append_assoc] at scanned
      change scanFrom offset 0 (quote :: (body ++ quote :: rest)) = _ at scanned
      rw [scanned, joinedTexts_text rfl]
      exact ih rest.length shorter quoting _ rfl

/-!
## Removing sugar
-/

theorem nameReturns (quoting : Quoting run text texts) (before : Bool) :
    Quoting run (Condition.nameReturns before 0 text) texts := by
  induction quoting generalizing before with
  | done => exact .done
  | stop =>
    rw [nameReturns_byte (returnAt_cons rfl)]
    exact .stop
  | blank blank _ ih =>
    have ends := isWordByte_eq_false (isPlainByte_eq_false_of_blank blank)
    rw [nameReturns_byte (returnAt_cons ends)]
    exact .blank blank (ih _)
  | @plain run byte rest texts plain _ ih =>
    cases here : returnAt before (byte :: rest) with
    | false =>
      rw [nameReturns_byte here]
      exact .plain plain (ih _)
    | true =>
      obtain ⟨_, tail, split, _⟩ := returnAt_iff.mp here
      -- The hypothesis is about the text after the first letter, where no word begins.
      have letters : rest = returnWord.tail ++ tail := (List.cons.inj split).2
      have inside := ih true
      rw [letters, nameReturns_letters (Text.forall_mem rfl),
        letters_iff (Text.forall_mem rfl)] at inside
      rw [split] at here ⊢
      rw [nameReturns_found here]
      exact (word_iff (by decide) (Text.forall_mem rfl)).mpr ⟨_, rfl, inside⟩
  | @quoted run quote body value rest texts isQuote closed unsugared _ ih =>
    have ends := isWordByte_eq_false (isPlainByte_eq_false_of_quote isQuote)
    rw [nameReturns_byte (returnAt_cons ends), ends, nameReturns_append_cons ends,
      nameReturns_of_findReturn?_eq_none unsugared.1]
    exact .quoted isQuote closed unsugared (ih false)

section

variable {part : Text} (inhabited : part ≠ []) (plain : ∀ byte ∈ part, isPlainByte byte = true)
  (avoids : ∀ body, Unsugared body → ¬ part <:+: body)

include inhabited plain avoids

theorem replace {replacement : Text} (newInhabited : replacement ≠ [])
    (newPlain : ∀ byte ∈ replacement, isPlainByte byte = true) (quoting : Quoting run text texts) :
    Quoting run (Text.replace part replacement text) texts := by
  induction length : text.length using Nat.strongRecOn generalizing run text texts with
  | ind size ih =>
    by_cases isPrefix : part <+: text
    · obtain ⟨rest, rfl⟩ := isPrefix
      obtain ⟨others, rfl, quotingRest⟩ := (word_iff inhabited plain).mp quoting
      have shorter : rest.length < size := by
        have := length_pos_iff.mpr inhabited
        rw [← length, length_append]
        omega
      rw [Text.replace_append inhabited]
      exact (word_iff newInhabited newPlain).mpr ⟨_, rfl, ih _ shorter quotingRest rfl⟩
    · cases quoting with
      | done => exact .done
      | stop =>
        rw [Text.replace_cons isPrefix]
        exact .stop
      | blank blank quotingRest =>
        rw [Text.replace_cons isPrefix]
        exact .blank blank (ih _ (by simp [← length]) quotingRest rfl)
      | plain plain quotingRest =>
        rw [Text.replace_cons isPrefix]
        exact .plain plain (ih _ (by simp [← length]) quotingRest rfl)
      | @quoted _ quote body value rest _ isQuote closed unsugared quotingRest =>
        have apart := not_mem_of_plain plain (isPlainByte_eq_false_of_quote isQuote)
        rw [Text.replace_cons isPrefix, Text.replace_append_cons inhabited apart,
          Text.replace_of_absent (avoids body unsugared)]
        refine .quoted isQuote closed unsugared (ih _ ?_ quotingRest rfl)
        rw [← length, length_cons, length_append, length_cons]
        omega

theorem split {left right : Text} (noZero : 0 ∉ left)
    (quoting : Quoting run (left ++ (part ++ right)) texts) :
    ∃ first second, texts = first ++ second ∧ Quoting run left first ∧
      Quoting none right second := by
  induction length : left.length using Nat.strongRecOn generalizing run left texts with
  | ind size ih =>
    cases left with
    | nil =>
      obtain ⟨others, rfl, quotingRight⟩ := (word_iff inhabited plain).mp quoting
      exact ⟨_, others, rfl, .done, quotingRight⟩
    | cons byte more =>
      rw [mem_cons, not_or] at noZero
      have shorter : more.length < size := by
        rw [← length]
        exact Nat.lt_succ_self _
      rw [cons_append] at quoting
      generalize whole : more ++ (part ++ right) = tail at quoting
      cases quoting with
      | stop => exact absurd rfl noZero.1
      | blank blank quotingTail =>
        rw [← whole] at quotingTail
        obtain ⟨first, second, rfl, quotingMore, quotingRight⟩ :=
          ih more.length shorter noZero.2 quotingTail rfl
        exact ⟨first, second, rfl, .blank blank quotingMore, quotingRight⟩
      | plain plain quotingTail =>
        rw [← whole] at quotingTail
        obtain ⟨first, second, rfl, quotingMore, quotingRight⟩ :=
          ih more.length shorter noZero.2 quotingTail rfl
        exact ⟨_, second, (append_assoc _ _ _).symm, .plain plain quotingMore,
          quotingRight⟩
      | @quoted _ quote body value rest _ isQuote closed unsugared quotingRest =>
        have apart := not_mem_of_plain plain (isPlainByte_eq_false_of_quote isQuote)
        rcases append_eq_append_iff.mp whole with
          ⟨after, rfl, begins⟩ | ⟨after, rfl, begins⟩
        · -- The part would begin within the quotation, and no quote can end it.
          have isPrefix : part <+: after ++ byte :: rest := ⟨right, begins⟩
          rw [Text.prefix_append_cons apart] at isPrefix
          have occurs := isPrefix.isInfix.trans (suffix_append more after).isInfix
          exact absurd occurs (avoids _ unsugared)
        · cases after with
          | nil =>
            cases part with
            | nil => exact absurd rfl inhabited
            | cons first others =>
              obtain ⟨rfl, _⟩ := List.cons.inj begins
              exact absurd mem_cons_self apart
          | cons first others =>
            obtain ⟨rfl, rfl⟩ := List.cons.inj begins
            have noZeroOthers : 0 ∉ others := fun member => noZero.2 (by simp [member])
            obtain ⟨firstTexts, secondTexts, rfl, quotingOthers, quotingRight⟩ :=
              ih others.length (by simp at shorter; omega) noZeroOthers quotingRest rfl
            exact ⟨firstTexts, secondTexts, rfl,
              .quoted isQuote closed unsugared quotingOthers, quotingRight⟩

end

theorem append_cons (quoting : Quoting run front texts) (noZero : 0 ∉ front)
    (plain : isPlainByte stop = true) (next : Quoting none rest others) :
    Quoting run (front ++ stop :: rest) (texts ++ others) := by
  induction quoting with
  | done => exact .plain plain next
  | stop => exact absurd mem_cons_self noZero
  | blank blank _ ih => exact .blank blank (ih fun member => noZero (mem_cons_of_mem _ member))
  | plain plain _ ih =>
    rw [append_assoc]
    exact .plain plain (ih fun member => noZero (mem_cons_of_mem _ member))
  | @quoted run quote body value tail texts isQuote closed unsugared _ ih =>
    rw [cons_append, append_assoc, cons_append]
    refine .quoted isQuote closed unsugared (ih fun member => noZero ?_)
    simp [member]

theorem unquoted (outside : ∀ byte ∈ text, byte ≠ 0 ∧ isQuote byte = false) :
    Quoting none text [] := by
  induction text with
  | nil => exact .done
  | cons byte rest ih =>
    rw [forall_mem_cons] at outside
    cases blank : isBlank byte with
    | true => exact .blank blank (ih outside.2)
    | false =>
      have plain := isPlainByte_iff.mpr ⟨outside.1.1, blank, outside.1.2⟩
      exact .plain plain (ih outside.2)

theorem framed {first middle second ending : Text} {firstTexts secondTexts : List Text}
    (firstQuoting : Quoting none first firstTexts) (noZeroFirst : 0 ∉ first)
    (secondQuoting : Quoting none second secondTexts) (noZeroSecond : 0 ∉ second)
    (middleOutside : ∀ byte ∈ middle, byte ≠ 0 ∧ isQuote byte = false)
    (endingOutside : ∀ byte ∈ ending, byte ≠ 0 ∧ isQuote byte = false) :
    Quoting none (Condition.framed first middle second ending) (firstTexts ++ secondTexts) := by
  have noZeroMiddle : 0 ∉ middle := fun member => (middleOutside 0 member).1 rfl
  have after := secondQuoting.append_cons noZeroSecond (by decide : isPlainByte 41 = true)
    (unquoted endingOutside)
  have between := (unquoted middleOutside).append_cons noZeroMiddle
    (by decide : isPlainByte 40 = true) after
  have whole := firstQuoting.append_cons noZeroFirst (by decide : isPlainByte 41 = true) between
  rw [append_nil] at whole
  exact .plain (by decide) whole

theorem spellBackticks (quoting : Quoting run text texts) :
    Quoting run (Condition.spellBackticks text) texts := by
  have noBacktick {part : Text} (member : backtick ∈ part) (body : Text)
      (unsugared : Unsugared body) : ¬ part <:+: body := fun occurs =>
    unsugared.2.1 (occurs.subset member)
  have double : Quoting run (Text.replace [backtick, backtick] doubleBacktickSuffix text) texts :=
    quoting.replace (by decide) (Text.forall_mem rfl) (noBacktick (by decide)) (by decide)
      (Text.forall_mem rfl)
  exact double.replace (by decide) (Text.forall_mem rfl) (noBacktick (by decide)) (by decide)
    (Text.forall_mem rfl)

section

variable {left right : Text} {leftTexts rightTexts : List Text}
  (leftQuoting : Quoting none left leftTexts) (noZeroLeft : 0 ∉ left)
  (rightQuoting : Quoting none right rightTexts) (noZeroRight : 0 ∉ right)

include leftQuoting noZeroLeft rightQuoting noZeroRight

theorem implicationText :
    Quoting none (Condition.implicationText left right) (rightTexts ++ leftTexts) := by
  rw [implicationText_eq_framed]
  exact rightQuoting.framed noZeroRight leftQuoting noZeroLeft (Text.forall_mem rfl)
    (Text.forall_mem rfl)

theorem equivalenceText :
    Quoting none
      (conjunctionText (Condition.implicationText left right)
        (Condition.implicationText right left))
      (rightTexts ++ leftTexts ++ (leftTexts ++ rightTexts)) := by
  rw [conjunctionText_eq_framed]
  refine (implicationText leftQuoting noZeroLeft rightQuoting noZeroRight).framed ?_
    (implicationText rightQuoting noZeroRight leftQuoting noZeroLeft) ?_ (Text.forall_mem rfl)
    (Text.forall_mem rfl)
  · simp [zero_mem_implicationText_iff, noZeroLeft, noZeroRight]
  · simp [zero_mem_implicationText_iff, noZeroLeft, noZeroRight]

end

/-- Spelling out an implication changes the order of the quotations, and one in both directions
repeats each of them. -/
theorem spelled {spelled : Text} (spells : Spelled text spelled)
    (noZero : 0 ∈ text → ¬ arrow <:+: text) (quoting : Quoting none text texts) :
    ∃ found, Quoting none spelled found ∧
      found.Perm (if Text.contains text doubleArrow then texts ++ texts else texts) ∧
      (¬ arrow <:+: text → found = texts) := by
  have avoidsArrow (body : Text) (unsugared : Unsugared body) : ¬ arrow <:+: body := by
    rw [← Text.contains_iff, unsugared.2.2]
    decide
  have avoidsDouble (body : Text) (unsugared : Unsugared body) : ¬ doubleArrow <:+: body :=
    fun occurs => avoidsArrow body unsugared (arrow_infix_doubleArrow.trans occurs)
  cases spells with
  | same noArrow =>
    have noDouble : ¬ Text.contains text doubleArrow = true := fun occurs =>
      noArrow (arrow_infix_doubleArrow.trans (Text.contains_iff.mp occurs))
    rw [if_neg noDouble]
    exact ⟨texts, quoting, .refl _, fun _ => rfl⟩
  | @implied premise consequence noDouble =>
    have occurs : arrow <:+: premise ++ (arrow ++ consequence) :=
      ⟨premise, consequence, append_assoc _ _ _⟩
    have noZero : 0 ∉ premise ++ (arrow ++ consequence) := fun member => noZero member occurs
    simp only [mem_append, not_or] at noZero
    obtain ⟨first, second, rfl, premiseQuoting, consequenceQuoting⟩ :=
      quoting.split (by decide) (Text.forall_mem rfl) avoidsArrow noZero.1
    rw [if_neg (by rwa [Text.contains_iff])]
    exact ⟨_, implicationText premiseQuoting noZero.1 consequenceQuoting noZero.2.2,
      perm_append_comm, fun noArrow => absurd occurs noArrow⟩
  | @equivalent left right =>
    have double : doubleArrow <:+: left ++ (doubleArrow ++ right) :=
      ⟨left, right, append_assoc _ _ _⟩
    have occurs := arrow_infix_doubleArrow.trans double
    have noZero : 0 ∉ left ++ (doubleArrow ++ right) := fun member => noZero member occurs
    simp only [mem_append, not_or] at noZero
    obtain ⟨first, second, rfl, leftQuoting, rightQuoting⟩ :=
      quoting.split (by decide) (Text.forall_mem rfl) avoidsDouble noZero.1
    rw [if_pos (Text.contains_iff.mpr double)]
    exact ⟨_, equivalenceText leftQuoting noZero.1 rightQuoting noZero.2.2,
      perm_append_comm.append_right _, fun noArrow => absurd occurs noArrow⟩

end Quoting

/-- Where every quotation is closed and holds no sugar, the text constants of a condition are the
quoted texts of its source: each once, or twice after an implication in both directions. A zero byte
must not stand together with an implication. -/
theorem quotations_keep_values {mode : Mode} {source : Text} {condition : Condition}
    {bodies : List Text} (compiled : compile mode source = .ok condition)
    (zeroApart : 0 ∈ source → Text.contains source arrow = false)
    (closed : quotations 0 source = some bodies) (unsugared : ∀ body ∈ bodies, Unsugared body) :
    condition.expr.texts.Perm
        (if Text.contains source doubleArrow then
          joinedTexts none (scan source) ++ joinedTexts none (scan source)
        else joinedTexts none (scan source)) ∧
      (Text.contains source arrow = false →
        condition.expr.texts = joinedTexts none (scan source)) := by
  obtain ⟨plain, expr, desugared, parsed, rfl⟩ := compile_eq_ok_iff.mp compiled
  obtain ⟨named, spelled, returns, implications, _, rfl⟩ := desugar_eq_ok_iff.mp desugared
  obtain ⟨rfl, _⟩ := spellReturns_eq_ok_iff.mp returns
  obtain ⟨texts, quoting⟩ := exists_quoting closed unsugared none
  have same {part : Text} (inhabited : part ≠ [])
      (noWord : ∀ byte ∈ part, isWordByte byte = false) :
      Text.contains (nameReturns false 0 source) part = Text.contains source part := by
    rw [Bool.eq_iff_iff, Text.contains_iff, Text.contains_iff,
      infix_nameReturns_iff inhabited noWord]
  have zeroApartNamed :
      0 ∈ nameReturns false 0 source → ¬ arrow <:+: nameReturns false 0 source := by
    rw [mem_nameReturns_iff rfl, ← Text.contains_iff, same (by decide) (Text.forall_mem rfl),
      Bool.not_eq_true]
    exact zeroApart
  obtain ⟨found, spelledQuoting, perm, unchanged⟩ :=
    (quoting.nameReturns false).spelled (spellImplications_spelled implications) zeroApartNamed
  have source := quoting.joinedTexts_scanFrom 0
  have read := texts_of_parse parsed
  dsimp only
  rw [read, scan, spelledQuoting.spellBackticks.joinedTexts_scanFrom 0, scan, source]
  rw [same (by decide) (Text.forall_mem rfl)] at perm
  refine ⟨perm, fun noArrow => unchanged ?_⟩
  rw [← Text.contains_iff, same (by decide) (Text.forall_mem rfl), noArrow]
  decide

theorem quotations_keep_values_joined :
    ∃ condition : Condition,
      compile .postcondition (Text.ofString "x`=='a'-->return=='b' 'c'") = .ok condition ∧
        condition.expr.texts.Perm [Text.ofString "a", Text.ofString "bc"] := by
  obtain ⟨condition, compiled⟩ : ∃ condition : Condition,
      compile .postcondition (Text.ofString "x`=='a'-->return=='b' 'c'") = .ok condition :=
    ⟨_, rfl⟩
  have closed : quotations 0 (Text.ofString "x`=='a'-->return=='b' 'c'") =
      some [Text.ofString "a", Text.ofString "b", Text.ofString "c"] := rfl
  exact ⟨condition, compiled, (quotations_keep_values compiled (by decide) closed (by decide)).1⟩

/-- The word `return` is named in a quotation too. -/
theorem return_named_in_quotation :
    ∃ condition : Condition,
      compile .postcondition (Text.ofString "return == 'return'") = .ok condition ∧
        joinedTexts none (scan (Text.ofString "return == 'return'")) = [Text.ofString "return"] ∧
        condition.expr.texts = [Text.ofString "__RETURN__"] :=
  ⟨_, rfl, rfl, rfl⟩

-- None of the other conditions can be left out: an arrow cuts the quotation that it stands in, a
-- quote that is not closed swallows another quotation, and a zero byte hides what follows it.
example :
    (∃ condition : Condition,
      compile .postcondition "' --> 1) if (2 == '" = .ok condition ∧
        condition.expr.texts = [") if ("]) ∧
    (∃ condition : Condition,
      compile .postcondition "'a' == '<--> 1) if (2 == \"" = .ok condition ∧
        Text.ofString "a" ∉ condition.expr.texts) ∧
    ∃ condition : Condition,
      compile .postcondition (Text.ofString "'a' --> 1)" ++ [0]) = .ok condition ∧
        condition.expr.texts = [] :=
  ⟨⟨_, rfl, rfl⟩, ⟨_, rfl, by decide⟩, ⟨_, rfl, rfl⟩⟩

end Covenant.Condition
