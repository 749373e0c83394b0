import Covenant.Proofs.MarkedWords
import Mathlib.Data.List.Chain
import Mathlib.Data.List.TakeWhile

/-!
# Names in compiled postconditions

Each name in the tree of a postcondition is a run of words and marks of its source, spelled out. A
name never stands right after a number, which is why no name begins in the middle of a run. The
other way round, a word with marks is a postcondition that is a single name.
-/

set_option autoImplicit false

namespace Covenant.Condition

open List

/-!
## Names among tokens
-/

/-- Names and numbers need another token between them. -/
def TokenKind.separates : TokenKind → Bool
  | .name | .intLiteral | .floatLiteral => false
  | _ => true

/-- One of two neighbours separates. -/
def Follows (before after : Token) : Prop :=
  before.kind.separates = true ∨ after.kind.separates = true

mutual

def Expr.names : Expr → List Text
  | .name label _ => [label]
  | .literal _ => []
  | .unary _ operand | .attribute operand _ => operand.names
  | .binary _ left right | .logic _ left right | .index left right => left.names ++ right.names
  | .comparison first links => first.names ++ Expr.namesLinks links
  | .conditional thenBranch test elseBranch =>
    thenBranch.names ++ (test.names ++ elseBranch.names)
  | .call function arguments => function.names ++ Expr.namesAll arguments
  | .list items | .tuple items => Expr.namesAll items
  | .comprehension element _ iterable conditions =>
    element.names ++ (iterable.names ++ Expr.namesAll conditions)

def Expr.namesAll : List Expr → List Text
  | [] => []
  | expr :: exprs => expr.names ++ Expr.namesAll exprs

def Expr.namesLinks : List (CompareOp × Expr) → List Text
  | [] => []
  | (_, operand) :: links => operand.names ++ Expr.namesLinks links

end

theorem Expr.namesAll_eq (exprs : List Expr) : Expr.namesAll exprs = exprs.flatMap Expr.names := by
  induction exprs with
  | nil => rfl
  | cons expr exprs ih => exact congrArg (expr.names ++ ·) ih

theorem Expr.namesLinks_eq (links : List (CompareOp × Expr)) :
    Expr.namesLinks links = (links.map Prod.snd).flatMap Expr.names := by
  induction links with
  | nil => rfl
  | cons link links ih => exact congrArg (link.2.names ++ ·) ih

theorem Expr.names_of_children? {tree : Expr} {trees : List Expr}
    (children : tree.children? = some trees) : tree.names = trees.flatMap Expr.names := by
  cases tree <;> cases children <;> simp [Expr.names, namesAll_eq, namesLinks_eq]

/-- The names are among the tokens, and no two tokens in a row are names or numbers. -/
structure HoldNames (tokens : List Token) (names : List Text) : Prop where
  separate : tokens.IsChain Follows
  held : ∀ label ∈ names, ∃ token ∈ tokens, token.kind = .name ∧ token.literal = label

theorem HoldNames.of_strung {tokens : List Token} {trees : List Expr}
    (strung : Strung (fun tokens tree => HoldNames tokens tree.names) tokens trees) :
    HoldNames tokens (trees.flatMap Expr.names) := by
  have separates {kind : TokenKind} (marks : kind.marks = true) : kind.separates = true := by
    cases kind <;> first | rfl | cases marks
  have bound {tokens : List Token} (bounded : Bounded tokens) :
      ∀ after ∈ tokens.head?, after.kind.separates = true := by
    cases tokens with
    | nil => simp
    | cons token others =>
      rintro after ⟨⟩
      exact separates (bounded.resolve_left (cons_ne_nil _ _))
  induction strung with
  | nil => exact ⟨.nil, by simp⟩
  | mark marks _ ih =>
    refine ⟨.cons ih.separate fun _ _ => .inl (separates marks), fun label member => ?_⟩
    obtain ⟨found, inside, named⟩ := ih.held label member
    exact ⟨found, mem_cons_of_mem _ inside, named⟩
  | word _ bounded _ ih =>
    refine ⟨.cons ih.separate fun after first => .inr (bound bounded after first), ?_⟩
    intro label member
    obtain ⟨found, inside, named⟩ := ih.held label member
    exact ⟨found, mem_cons_of_mem _ inside, named⟩
  | phrase hold bounded _ ih =>
    refine ⟨hold.separate.append ih.separate fun _ _ after first =>
      .inr (bound bounded after first), fun label member => ?_⟩
    rcases mem_append.mp member with member | member
    · obtain ⟨found, inside, named⟩ := hold.held label member
      exact ⟨found, mem_append_left _ inside, named⟩
    · obtain ⟨found, inside, named⟩ := ih.held label member
      exact ⟨found, mem_append_right _ inside, named⟩

variable {phrase : Phrase} {tokens : List Token} {byte : UInt8} {more run : Text} {inside : Bool}

theorem Derives.holdNames {tree : Expr} (derived : Derives phrase tokens tree) :
    HoldNames tokens tree.names := by
  refine derived.compose (fun tokens tree => HoldNames tokens tree.names) ?_ ?_ ?_ ?_
  · exact fun {token} _ _ => ⟨.singleton token, by simp [Expr.names]⟩
  · intro tokens nonempty each
    refine ⟨?_, by simp [Expr.names]⟩
    clear nonempty
    induction tokens with
    | nil => exact .nil
    | cons token others ih =>
      rw [forall_mem_cons] at each
      exact .cons (ih each.2) fun _ _ => .inl (each.1 ▸ rfl)
  · intro token kind
    refine ⟨.singleton _, ?_⟩
    intro label member
    cases mem_singleton.mp member
    exact ⟨_, mem_singleton_self _, kind, rfl⟩
  · intro tokens trees tree strung children
    have hold := HoldNames.of_strung strung
    rcases children with children | rfl
    · rwa [Expr.names_of_children? children]
    · rwa [flatMap_singleton] at hold

/-!
## Names in the text
-/

structure Nameable (word : Text) : Prop where
  begins : word.head?.any Text.isLetter = true
  continues : ∀ byte ∈ word, isWordByte byte = true
  free : wordKind word = .name

instance (word : Text) : Decidable (Nameable word) :=
  decidable_of_iff
    (word.head?.any Text.isLetter = true ∧ word.all isWordByte = true ∧ wordKind word = .name)
    ⟨fun all => ⟨all.1, all_eq_true.mp all.2.1, all.2.2⟩,
      fun nameable => ⟨nameable.1, all_eq_true.mpr nameable.2, nameable.3⟩⟩

/-- What a legal lexeme leaves behind: a word, a number, which a word byte may follow, or a byte
that ends runs. -/
inductive LexemeEnd (text : Text) : TokenKind → Text → Text → Prop where
  | word {word more} : text = word ++ more → word.head?.any Text.isLetter = true →
      (∀ byte ∈ word, isWordByte byte = true) → more.head?.any isWordByte = false →
      LexemeEnd text (wordKind word) word more
  | number {kind literal more} (taken : Text) : text = taken ++ more → kind.separates = false →
      kind ≠ .name → LexemeEnd text kind literal more
  | other {kind literal more} (front : Text) (stop : UInt8) : text = front ++ stop :: more →
      kind.separates = true → isMarkedByte stop = false → LexemeEnd text kind literal more

theorem LexemeForm.ended {raw literal : Text} {kind : TokenKind}
    (form : LexemeForm byte raw more kind literal) (legal : kind ≠ .illegal) :
    LexemeEnd (byte :: (raw ++ more)) kind literal more := by
  cases form with
  | word same letter bytes stops =>
    rw [same]
    exact .word rfl letter bytes stops
  | number isNumber _ _ =>
    refine .number (byte :: raw) rfl ?_ ?_ <;> revert isNumber <;> cases kind <;> decide
  | mark listed =>
    have each : ∀ entry ∈ marks, entry.2.separates = true ∧
        entry.1.all (!isMarkedByte ·) = true := by decide
    obtain ⟨separates, bytes⟩ := each _ listed
    simp only [all_eq_true, Bool.not_eq_true'] at bytes
    rcases eq_nil_or_concat raw with rfl | ⟨front, stop, rfl⟩
    · exact .other [] byte rfl separates (bytes byte mem_cons_self)
    · rw [concat_eq_append] at bytes ⊢
      exact .other (byte :: front) stop (by simp) separates (bytes stop (by simp))
  | @quoted body _ quote split _ =>
    have other : ∀ byte, isQuote byte = true → isMarkedByte byte = false :=
      forall_byte (by decide +kernel)
    exact .other (byte :: body) byte (by simp [split]) rfl (other byte quote)
  | unclosed _ | unknown _ _ => exact absurd rfl legal

/-- The runs of a text; the first one is left out where a word byte stands before the text. -/
def runsFrom (inside : Bool) (text : Text) : List Text :=
  if inside then (markedWords text).tail else markedWords text

theorem mem_runsFrom_of_tail (taken : Text) (member : run ∈ runsFrom true more) :
    run ∈ runsFrom inside (taken ++ more) := by
  have within : run ∈ (markedWords (taken ++ more)).tail := by
    induction taken with
    | nil => exact member
    | cons byte others ih =>
      rw [cons_append, markedWords, splitOnP_cons_eq_if_modifyHead]
      split
      · exact mem_of_mem_tail ih
      · rw [tail_modifyHead]
        exact ih
  cases inside with
  | true => exact within
  | false => exact mem_of_mem_tail within

theorem mem_runsFrom_of_stop {stop : UInt8} (front : Text) (other : isMarkedByte stop = false)
    (member : run ∈ markedWords more) : run ∈ runsFrom inside (front ++ stop :: more) := by
  have split := markedWords_append_cons other front more
  cases first : markedWords front with
  | nil => exact absurd first (splitOnP_ne_nil _ _)
  | cons head others =>
    rw [first] at split
    cases inside <;> simp [runsFrom, split, member]

theorem mem_runsFrom_word {word : Text} (continues : ∀ byte ∈ word, isWordByte byte = true)
    (ends : more.head?.any isWordByte = false) (noBacktick : backtick ∉ more) :
    word ∈ runsFrom false (word ++ more) := by
  have single : markedWords word = [word] := markedWords_of_forall fun byte member => by
    rw [isMarkedByte, continues byte member]
    rfl
  cases more with
  | nil =>
    rw [append_nil]
    change word ∈ markedWords word
    rw [single]
    exact mem_singleton_self word
  | cons stop others =>
    have other : isMarkedByte stop = false := by
      rw [isMarkedByte, Bool.or_eq_false_iff, beq_eq_false_iff_ne]
      exact ⟨by simpa using ends, fun same => noBacktick (same ▸ mem_cons_self)⟩
    change word ∈ markedWords (word ++ stop :: others)
    rw [markedWords_append_cons other, single]
    exact mem_cons_self

namespace LexemeEnd

variable {text literal more : Text} {kind : TokenKind}

theorem name (ended : LexemeEnd text kind literal more) (isName : kind = .name)
    (noBacktick : backtick ∉ more) :
    Nameable literal ∧ text.head?.any isWordByte = true ∧ literal ∈ runsFrom false text := by
  cases ended with
  | word split begins continues ends =>
    refine ⟨⟨begins, continues, isName⟩, ?_, ?_⟩
    · cases literal with
      | nil => cases begins
      | cons first others =>
        rw [split]
        exact continues first mem_cons_self
    · rw [split]
      exact mem_runsFrom_word continues ends noBacktick
  | number _ _ _ noName => exact absurd isName noName
  | other _ _ _ separates _ =>
    rw [isName] at separates
    cases separates

theorem runs_after (ended : LexemeEnd text kind literal more) :
    ∃ within, (within = true → more.head?.any isWordByte = true → kind.separates = false) ∧
      ∀ inside, ∀ run ∈ runsFrom within more, run ∈ runsFrom inside text := by
  cases ended with
  | word split _ _ ends =>
    rw [split]
    refine ⟨true, ?_, fun inside run member => mem_runsFrom_of_tail literal member⟩
    intro _ begins
    rw [ends] at begins
    cases begins
  | number taken split separates _ =>
    rw [split]
    exact ⟨true, fun _ _ => separates, fun inside run member => mem_runsFrom_of_tail taken member⟩
  | other front stop split _ other =>
    rw [split]
    exact ⟨false, nofun, fun inside run member => mem_runsFrom_of_stop front other member⟩

end LexemeEnd

theorem isMarkedByte_of_isBlank : isBlank byte = true → isMarkedByte byte = false :=
  forall_byte (by decide +kernel) byte

theorem nextKind_ne_name {before : Token} (separate : (before :: tokens).IsChain Follows)
    (number : before.kind.separates = false) : nextKind tokens ≠ .name := by
  cases tokens with
  | nil => nofun
  | cons after others =>
    intro isName
    rw [nextKind_cons] at isName
    rcases (isChain_cons.mp separate).1 after rfl with separates | separates
    · rw [number] at separates
      cases separates
    · rw [isName] at separates
      cases separates

theorem sentence_cons {token : Token} (proper : token.kind ≠ .endOfText) (tokens : List Token) :
    sentence (token :: tokens) = token :: sentence tokens := by
  rw [sentence, takeWhile_cons, bne_iff_ne.mpr proper]
  rfl

/-- Names among legal tokens are runs of the text, where names and numbers are kept apart. -/
theorem Scanned.mem_runsFrom {offset : Nat} {text : Text} (scanned : Scanned offset text tokens)
    (inside : Bool) (noBacktick : backtick ∉ text)
    (legal : ∀ token ∈ sentence tokens, token.kind ≠ .illegal)
    (separate : (sentence tokens).IsChain Follows)
    (first : inside = true → text.head?.any isWordByte = true →
      nextKind (sentence tokens) ≠ .name)
    {token : Token} (member : token ∈ sentence tokens) (isName : token.kind = .name) :
    Nameable token.literal ∧ token.literal ∈ runsFrom inside text := by
  induction scanned generalizing inside with
  | done | stop => cases member
  | blank blank _ ih =>
    obtain ⟨nameable, run⟩ := ih false (fun inRest => noBacktick (mem_cons_of_mem _ inRest)) legal
      separate (absurd · Bool.false_ne_true) member
    exact ⟨nameable, mem_runsFrom_of_stop [] (isMarkedByte_of_isBlank blank) run⟩
  | @token _ byte raw more kind literal _ _ _ found _ ih =>
    have form := lexeme_form (congrArg Lexeme.length found)
    have notEnd := lexeme_kind_ne_endOfText byte (raw ++ more)
    rw [found] at form notEnd
    rw [sentence_cons notEnd] at legal separate first member
    rw [forall_mem_cons] at legal
    have ended := form.ended legal.1
    have noBacktickMore : backtick ∉ more := fun inMore =>
      noBacktick (mem_cons_of_mem _ (mem_append_right _ inMore))
    rcases mem_cons.mp member with same | later
    · subst same
      obtain ⟨nameable, begins, run⟩ := ended.name isName noBacktickMore
      cases inside with
      | true => exact absurd isName (first rfl begins)
      | false => exact ⟨nameable, run⟩
    · obtain ⟨within, after, keeps⟩ := ended.runs_after
      obtain ⟨nameable, run⟩ := ih within noBacktickMore legal.2 (isChain_cons.mp separate).2
        (fun isWithin begins => nextKind_ne_name separate (after isWithin begins)) later
      exact ⟨nameable, keeps inside _ run⟩

theorem Nameable.not_mem_connectives {word : Text} (nameable : Nameable word) :
    word ∉ connectives := by
  intro member
  have reserved : ∀ part ∈ connectives, part.head?.any Text.isLetter = false ∨
      wordKind part ≠ .name := by decide
  rcases reserved word member with noLetter | noName
  · rw [nameable.begins] at noLetter
    cases noLetter
  · exact noName nameable.free

theorem exists_markedWord_of_compile {source label : Text} {condition : Condition}
    (compiled : compile .postcondition source = .ok condition)
    (member : label ∈ condition.expr.names) :
    Nameable label ∧ ∃ run ∈ markedWords source, label = spellWord run := by
  obtain ⟨plain, expr, desugared, parsed, rfl⟩ := compile_eq_ok_iff.mp compiled
  have derived := parse_eq_ok_iff.mp parsed
  have hold := derived.holdNames
  obtain ⟨token, inside, isName, rfl⟩ := hold.held label member
  have noBacktick : backtick ∉ plain.text := by
    obtain ⟨_, spelled, _, _, _, rfl⟩ := desugar_eq_ok_iff.mp desugared
    exact backtick_not_mem_spellBackticks spelled
  have legal : ∀ token ∈ sentence (scan plain.text), token.kind ≠ .illegal := by
    intro token member illegal
    have proper := derived.proper token member
    rw [illegal] at proper
    cases proper
  obtain ⟨nameable, run⟩ := (scanned 0 plain.text).mem_runsFrom false noBacktick legal
    hold.separate (absurd · Bool.false_ne_true) inside isName
  exact ⟨nameable, exists_markedWord_of_desugar desugared run nameable.not_mem_connectives⟩

/-!
## Single names
-/

theorem isLetter_spec : Text.isLetter byte = true →
    isPlainByte byte = true ∧ byte ≠ 46 ∧ Text.isDigit byte = false ∧ ¬(byte = 34 ∨ byte = 39) :=
  forall_byte (by decide +kernel) byte

theorem lexeme_letter (letter : Text.isLetter byte = true) (rest : Text) :
    lexeme byte rest = wordLexeme (byte :: rest) := by
  obtain ⟨_, noPoint, noDigit, noQuote⟩ := isLetter_spec letter
  have noMark (others : Text) : marks.lookup (byte :: others) = none := by
    have each : ∀ entry ∈ marks, entry.1.head?.any Text.isLetter = false := by decide
    cases found : marks.lookup (byte :: others) with
    | none => rfl
    | some kind => cases letter.symm.trans (each _ (Bindings.mem_of_lookup found))
  simp only [lexeme, noMark, noDigit, noQuote, letter, beq_false_of_ne noPoint, Bool.false_and,
    Bool.or_false, Bool.false_eq_true, ↓reduceIte]

theorem Nameable.parse {word : Text} (nameable : Nameable word) :
    Condition.parse word = .ok (.name word 0) := by
  obtain ⟨begins, continues, free⟩ := nameable
  cases word with
  | nil => cases begins
  | cons first others =>
    have letter : Text.isLetter first = true := begins
    have whole : (first :: others).takeWhile continuesName = first :: others :=
      takeWhile_eq_self_iff.mpr continues
    have found : lexeme first others = ⟨.name, first :: others, others.length + 1⟩ := by
      rw [lexeme_letter letter, wordLexeme]
      simp only [whole, free, length_cons]
    obtain ⟨nonzero, inked, _⟩ := isPlainByte_iff.mp (isLetter_spec letter).1
    have scanned : sentence (scan (first :: others)) = [⟨.name, first :: others, 0⟩] := by
      have taken : scanFrom 0 0 (first :: (others ++ [])) = _ :=
        scanFrom_lexeme 0 nonzero inked (by rw [append_nil, found])
      rw [append_nil, found] at taken
      rw [scan, taken]
      rfl
    rw [parse_eq_ok_iff, scanned]
    have derived : Derives .primary [⟨.name, first :: others, 0⟩]
        (.name (first :: others) 0) := .name rfl
    exact .looser rfl derived.loosen.asDisjunction

theorem compile_marked {word : Text} {place : Nat} (isWord : ∀ byte ∈ word, isWordByte byte = true)
    (short : place ≤ 2) (nameable : Nameable (spellWord (marked word place))) :
    compile .postcondition (marked word place) =
      .ok ⟨marked word place, spellWord (marked word place), place,
        .name (spellWord (marked word place)) 0⟩ := by
  have noArrow : ¬ arrow <:+: marked (nameReturns false 0 word) place := by
    intro occurs
    have dash : 45 ∈ marked (nameReturns false 0 word) place :=
      occurs.subset (by decide : 45 ∈ arrow)
    rcases mem_append.mp dash with inWord | inMarks
    · rw [mem_nameReturns_iff rfl] at inWord
      exact not_mem_of_isWordByte isWord rfl inWord
    · cases eq_of_mem_replicate inMarks
  refine compile_eq_ok_iff.mpr ⟨⟨spellWord (marked word place), place⟩, _,
    desugar_eq_ok_iff.mpr ⟨_, marked (nameReturns false 0 word) place, rfl, ?_, ?_, ?_⟩,
    nameable.parse, rfl⟩
  · rw [nameReturns_backticks]
    exact spellImplications_of_noArrow noArrow
  · intro length member
    rw [runLengths_marked isWord] at member
    split at member
    · cases member
    · rw [mem_singleton.mp member]
      exact short
  · rw [runLengths_marked isWord, spellWord, nameReturns_backticks]
    by_cases unmarked : place = 0
    · rw [if_pos unmarked, unmarked]
      rfl
    · rw [if_neg unmarked, foldl_cons, Nat.zero_max]
      rfl

end Covenant.Condition
