import Covenant.Condition.Parser

/-!
# The grammar of conditions

Which token lists are phrases, and which trees they stand for. An operator between two phrases
associates to the left because its left side may be a phrase of its own kind and its right side must
be tighter.
-/

set_option autoImplicit false

namespace Covenant.Condition

open List

variable {kind : TokenKind}

def CompareOp.spelling : CompareOp → List TokenKind
  | .equal => [.equal]
  | .notEqual => [.notEqual]
  | .less => [.less]
  | .lessEqual => [.lessEqual]
  | .greater => [.greater]
  | .greaterEqual => [.greaterEqual]
  | .within => [.inWord]
  | .notWithin => [.notWord, .inWord]
  | .identical => [.isWord]
  | .notIdentical => [.isWord, .notWord]

/-- The constant a single token stands for. A number that cannot be represented stands for
none. -/
def Token.constant? (token : Token) : Option Literal :=
  match token.kind with
  | .intLiteral => intLiteral? token.literal
  | .floatLiteral => floatLiteral? token.literal
  | .trueWord => some (.bool true)
  | .falseWord => some (.bool false)
  | .noneWord => some .none
  | _ => none

/-- The names bound by a comprehension, with commas between. -/
inductive TargetNames : List Token → List Text → Prop where
  | one {target} : target.kind = .name → TargetNames [target] [target.literal]
  | more {target comma tokens names} :
      target.kind = .name → comma.kind = .comma → TargetNames tokens names →
      TargetNames (target :: comma :: tokens) (target.literal :: names)

/-- One of several phrases in a row, with the tokens that mark its beginning. -/
structure Marked where
  mark : List Token
  body : List Token
  tree : Expr

def Marked.tokens (item : Marked) : List Token := item.mark ++ item.body

theorem Marked.tokens_mk (mark body : List Token) (tree : Expr) :
    (Marked.mk mark body tree).tokens = mark ++ body := rfl

/-- The items have commas between them, and `last` is nothing or one more comma. -/
def CommasBetween : List Marked → List Token → Prop
  | [], last => last = []
  | first :: others, last =>
    first.mark = [] ∧ (∀ item ∈ others, item.mark.map Token.kind = [.comma]) ∧
      (last = [] ∨ last.map Token.kind = [.comma])

/-- The tokens are a phrase of the given kind, and the tree is what they stand for. -/
inductive Derives : Phrase → List Token → Expr → Prop where
  | looser {phrase tighter tokens tree} :
      phrase.tighter? = some tighter → Derives tighter tokens tree → Derives phrase tokens tree
  | conditional {thenTokens thenBranch ifToken testTokens test elseToken elseTokens elseBranch} :
      Derives .disjunction thenTokens thenBranch → ifToken.kind = .ifWord →
      Derives .disjunction testTokens test → elseToken.kind = .elseWord →
      Derives .expression elseTokens elseBranch →
      Derives .expression (thenTokens ++ ifToken :: (testTokens ++ elseToken :: elseTokens))
        (.conditional thenBranch test elseBranch)
  | infixed {phrase tighter leftTokens left operator node rightTokens right} :
      phrase.tighter? = some tighter → Derives phrase leftTokens left →
      phrase.infixed? operator.kind = some node → Derives tighter rightTokens right →
      Derives phrase (leftTokens ++ operator :: rightTokens) (node left right)
  | prefixed {phrase operator node tokens operand} :
      phrase.prefixed? operator.kind = some node → Derives phrase tokens operand →
      Derives phrase (operator :: tokens) (node operand)
  | chain {firstTokens first} {links : List (CompareOp × Marked)} :
      Derives .sum firstTokens first → links ≠ [] →
      (∀ link ∈ links, link.2.mark.map Token.kind = link.1.spelling) →
      (∀ link ∈ links, Derives .sum link.2.body link.2.tree) →
      Derives .comparison (firstTokens ++ links.flatMap (·.2.tokens))
        (.comparison first (links.map fun link => (link.1, link.2.tree)))
  | power {baseTokens base operator exponentTokens exponent} :
      Derives .postfixForm baseTokens base → operator.kind = .doubleStar →
      Derives .signedOperand exponentTokens exponent →
      Derives .powerOperand (baseTokens ++ operator :: exponentTokens)
        (.binary .power base exponent)
  | index {baseTokens base opening positionTokens position closing} :
      Derives .postfixForm baseTokens base → opening.kind = .openBracket →
      Derives .expression positionTokens position → closing.kind = .closeBracket →
      Derives .postfixForm (baseTokens ++ opening :: (positionTokens ++ [closing]))
        (.index base position)
  | member {baseTokens base dot label} :
      Derives .postfixForm baseTokens base → dot.kind = .dot → label.kind = .name →
      Derives .postfixForm (baseTokens ++ [dot, label]) (.attribute base label.literal)
  | call {functionTokens function opening} {items : List Marked} {last closing} :
      Derives .postfixForm functionTokens function → opening.kind = .openParen →
      CommasBetween items last → (∀ item ∈ items, Derives .expression item.body item.tree) →
      closing.kind = .closeParen →
      Derives .postfixForm
        (functionTokens ++ opening :: (items.flatMap Marked.tokens ++ (last ++ [closing])))
        (.call function (items.map Marked.tree))
  | generatorCall {functionTokens function opening tokens generator closing} :
      Derives .postfixForm functionTokens function → opening.kind = .openParen →
      Derives .comprehension tokens generator → closing.kind = .closeParen →
      Derives .postfixForm (functionTokens ++ opening :: (tokens ++ [closing]))
        (.call function [generator])
  | constant {token value} :
      token.constant? = some value → Derives .primary [token] (.literal value)
  | texts {tokens} :
      tokens ≠ [] → (∀ token ∈ tokens, token.kind = .textLiteral) →
      Derives .primary tokens (.literal (.text (tokens.flatMap Token.literal)))
  | name {token} :
      token.kind = .name → Derives .primary [token] (.name token.literal token.offset)
  | group {opening tokens tree closing} :
      opening.kind = .openParen → Derives .expression tokens tree → closing.kind = .closeParen →
      Derives .primary (opening :: (tokens ++ [closing])) tree
  | generator {opening tokens tree closing} :
      opening.kind = .openParen → Derives .comprehension tokens tree →
      closing.kind = .closeParen → Derives .primary (opening :: (tokens ++ [closing])) tree
  /-- A tuple of one item has a comma after it, or it would be a group. -/
  | tuple {opening} {items : List Marked} {last closing} :
      opening.kind = .openParen → CommasBetween items last →
      (items.length = 1 → last ≠ []) →
      (∀ item ∈ items, Derives .expression item.body item.tree) → closing.kind = .closeParen →
      Derives .primary (opening :: (items.flatMap Marked.tokens ++ (last ++ [closing])))
        (.tuple (items.map Marked.tree))
  | list {opening} {items : List Marked} {last closing} :
      opening.kind = .openBracket → CommasBetween items last →
      (∀ item ∈ items, Derives .expression item.body item.tree) →
      closing.kind = .closeBracket →
      Derives .primary (opening :: (items.flatMap Marked.tokens ++ (last ++ [closing])))
        (.list (items.map Marked.tree))
  | listed {opening tokens tree closing} :
      opening.kind = .openBracket → Derives .comprehension tokens tree →
      closing.kind = .closeBracket → Derives .primary (opening :: (tokens ++ [closing])) tree
  | comprehension {elementTokens element forToken targetTokens targets inToken iterableTokens
      iterable} {conditions : List Marked} :
      Derives .expression elementTokens element → forToken.kind = .forWord →
      TargetNames targetTokens targets → inToken.kind = .inWord →
      Derives .disjunction iterableTokens iterable →
      (∀ condition ∈ conditions, condition.mark.map Token.kind = [.ifWord]) →
      (∀ condition ∈ conditions, Derives .disjunction condition.body condition.tree) →
      Derives .comprehension
        (elementTokens ++ forToken :: (targetTokens ++ inToken ::
          (iterableTokens ++ conditions.flatMap Marked.tokens)))
        (.comprehension element targets iterable (conditions.map Marked.tree))

/-!
## The tokens of a phrase
-/

def TokenKind.beginsPrimary : TokenKind → Bool
  | .name | .intLiteral | .floatLiteral | .textLiteral | .trueWord | .falseWord | .noneWord
  | .openParen | .openBracket => true
  | _ => false

def Phrase.begins : Phrase → TokenKind → Bool
  | .expression, kind | .disjunction, kind | .conjunction, kind | .negation, kind
  | .comprehension, kind =>
    kind.beginsPrimary || kind == .plus || kind == .minus || kind == .notWord
  | .comparison, kind | .sum, kind | .product, kind | .signedOperand, kind =>
    kind.beginsPrimary || kind == .plus || kind == .minus
  | .powerOperand, kind | .postfixForm, kind | .primary, kind => kind.beginsPrimary

variable {phrase : Phrase} {tree : Expr}

theorem Phrase.begins_of_tighter {tighter : Phrase} (next : phrase.tighter? = some tighter)
    (begins : tighter.begins kind = true) : phrase.begins kind = true := by
  cases phrase <;> cases next <;> first | exact begins | simp_all [Phrase.begins]

theorem Phrase.begins_of_prefixed {node : Expr → Expr}
    (prefixes : phrase.prefixed? kind = some node) : phrase.begins kind = true := by
  cases phrase <;> cases kind <;> first | rfl | cases prefixes

theorem Token.constant?_kind {token : Token} {value : Literal}
    (stands : token.constant? = some value) :
    token.kind = .intLiteral ∨ token.kind = .floatLiteral ∨ token.kind = .trueWord ∨
      token.kind = .falseWord ∨ token.kind = .noneWord := by
  unfold Token.constant? at stands
  cases kind : token.kind <;> simp_all

theorem Derives.begins {phrase : Phrase} {tokens : List Token} {tree : Expr}
    (derived : Derives phrase tokens tree) :
    ∃ first rest, tokens = first :: rest ∧ phrase.begins first.kind = true := by
  induction derived with
  | looser next _ ih =>
    obtain ⟨first, rest, rfl, begins⟩ := ih
    exact ⟨first, rest, rfl, Phrase.begins_of_tighter next begins⟩
  | conditional _ _ _ _ _ ih | comprehension _ _ _ _ _ _ _ ih
  | infixed _ _ _ _ ih | index _ _ _ _ ih | member _ _ _ ih | call _ _ _ _ _ ih
  | generatorCall _ _ _ _ ih | chain _ _ _ _ ih | power _ _ _ ih =>
    obtain ⟨first, rest, rfl, begins⟩ := ih
    exact ⟨first, _, rfl, begins⟩
  | prefixed prefixes _ _ => exact ⟨_, _, rfl, Phrase.begins_of_prefixed prefixes⟩
  | @constant token value stands =>
    refine ⟨token, [], rfl, ?_⟩
    obtain kind | kind | kind | kind | kind := Token.constant?_kind stands <;> rw [kind] <;> rfl
  | @texts tokens nonempty each =>
    cases tokens with
    | nil => exact absurd rfl nonempty
    | cons first rest =>
      refine ⟨first, rest, rfl, ?_⟩
      rw [each first mem_cons_self]
      rfl
  | name kind | group kind | generator kind | tuple kind | list kind | listed kind =>
    exact ⟨_, _, rfl, by rw [kind]; rfl⟩

theorem Derives.ne_nil {tokens : List Token} (derived : Derives phrase tokens tree) :
    tokens ≠ [] := by
  obtain ⟨first, rest, rfl, _⟩ := derived.begins
  exact cons_ne_nil first rest

def TokenKind.proper : TokenKind → Bool
  | .endOfText | .illegal => false
  | _ => true

theorem forall_kind_of_spelled (holds : TokenKind → Prop) {tokens : List Token}
    {kinds : List TokenKind} (spelled : tokens.map Token.kind = kinds)
    (each : ∀ kind ∈ kinds, holds kind) : ∀ token ∈ tokens, holds token.kind := by
  rw [← spelled, forall_mem_map] at each
  exact each

/-!
## Phrases within a phrase
-/

def Expr.children? : Expr → Option (List Expr)
  | .name _ _ | .literal _ => none
  | .unary _ operand | .attribute operand _ => some [operand]
  | .binary _ left right | .logic _ left right | .index left right => some [left, right]
  | .comparison first links => some (first :: links.map Prod.snd)
  | .conditional thenBranch test elseBranch => some [thenBranch, test, elseBranch]
  | .call function arguments => some (function :: arguments)
  | .list items | .tuple items => some items
  | .comprehension element _ iterable conditions => some (element :: iterable :: conditions)

/-- Whether tokens of this kind may stand between two phrases. -/
def TokenKind.marks : TokenKind → Bool
  | .name | .intLiteral | .floatLiteral | .textLiteral | .endOfText | .illegal => false
  | _ => true

def Bounded (tokens : List Token) : Prop := tokens = [] ∨ (nextKind tokens).marks = true

/-- The tokens are phrases and plain names with marks between them. -/
inductive Strung (phrases : List Token → Expr → Prop) : List Token → List Expr → Prop where
  | nil : Strung phrases [] []
  | mark {token tokens trees} : token.kind.marks = true → Strung phrases tokens trees →
      Strung phrases (token :: tokens) trees
  | word {token tokens trees} : token.kind = .name → Bounded tokens →
      Strung phrases tokens trees → Strung phrases (token :: tokens) trees
  | phrase {first tree tokens trees} : phrases first tree → Bounded tokens →
      Strung phrases tokens trees → Strung phrases (first ++ tokens) (tree :: trees)

theorem bounded_cons {token : Token} {tokens : List Token} (is : token.kind = kind)
    (marks : kind.marks = true) : Bounded (token :: tokens) := by
  subst is
  exact .inr marks

namespace Strung

variable {phrases : List Token → Expr → Prop} {first second tokens : List Token}
  {trees others : List Expr} {token : Token} {kind : TokenKind} {items : List Marked}

theorem single (itself : phrases tokens tree) : Strung phrases tokens [tree] := by
  rw [← append_nil tokens]
  exact .phrase itself (.inl rfl) .nil

theorem append (strung : Strung phrases first trees) (bounded : Bounded second)
    (next : Strung phrases second others) : Strung phrases (first ++ second) (trees ++ others) := by
  have longer {tokens : List Token} (within : Bounded tokens) : Bounded (tokens ++ second) := by
    cases tokens with
    | nil => exact bounded
    | cons token tokens => exact .inr (within.resolve_left (cons_ne_nil token tokens))
  induction strung with
  | nil => exact next
  | mark marks _ ih => exact .mark marks ih
  | word isName within _ ih => exact .word isName (longer within) ih
  | phrase itself within _ ih =>
    rw [append_assoc]
    exact .phrase itself (longer within) ih

theorem led (is : token.kind = kind) (marks : kind.marks = true)
    (strung : Strung phrases tokens trees) : Strung phrases (token :: tokens) trees :=
  .mark (is ▸ marks) strung

theorem between (strung : Strung phrases first trees) (is : token.kind = kind)
    (marks : kind.marks = true) (next : Strung phrases second others) :
    Strung phrases (first ++ token :: second) (trees ++ others) :=
  strung.append (bounded_cons is marks) (next.led is marks)

theorem close (strung : Strung phrases tokens trees) (is : token.kind = kind)
    (marks : kind.marks = true) : Strung phrases (tokens ++ [token]) trees := by
  rw [← append_nil trees]
  exact strung.between is marks .nil

theorem marked (each : ∀ token ∈ first, token.kind.marks = true)
    (strung : Strung phrases tokens trees) : Strung phrases (first ++ tokens) trees := by
  induction first with
  | nil => exact strung
  | cons token others ih =>
    rw [forall_mem_cons] at each
    exact .mark each.1 (ih each.2)

theorem row (marks : ∀ item ∈ items, ∃ kinds, item.mark.map Token.kind = kinds ∧ kinds ≠ [] ∧
      ∀ kind ∈ kinds, kind.marks = true)
    (each : ∀ item ∈ items, phrases item.body item.tree) :
    Strung phrases (items.flatMap Marked.tokens) (items.map Marked.tree) ∧
      Bounded (items.flatMap Marked.tokens) := by
  induction items with
  | nil => exact ⟨.nil, .inl rfl⟩
  | cons item others ih =>
    rw [forall_mem_cons] at marks each
    obtain ⟨⟨kinds, spelled, inhabited, marking⟩, marks⟩ := marks
    have tokens := forall_kind_of_spelled _ spelled marking
    obtain ⟨strung, bounded⟩ := ih marks each.2
    rw [flatMap_cons, Marked.tokens, append_assoc]
    refine ⟨marked tokens (.phrase each.1 bounded strung), .inr ?_⟩
    cases mark : item.mark with
    | nil =>
      rw [mark] at spelled
      exact absurd spelled.symm inhabited
    | cons token rest => exact tokens token (mark ▸ mem_cons_self)

theorem listed {last : List Token} (commas : CommasBetween items last)
    (each : ∀ item ∈ items, phrases item.body item.tree) (is : token.kind = kind)
    (marks : kind.marks = true) :
    Strung phrases (items.flatMap Marked.tokens ++ (last ++ [token])) (items.map Marked.tree) := by
  cases items with
  | nil =>
    obtain rfl := commas
    exact nil.led is marks
  | cons first others =>
    obtain ⟨noMark, commas, lastComma⟩ := commas
    rw [forall_mem_cons] at each
    obtain ⟨strung, bounded⟩ := row (fun item member =>
      ⟨_, commas item member, by decide, by decide⟩) each.2
    rw [flatMap_cons, Marked.tokens, noMark, nil_append]
    have whole := Strung.phrase each.1 bounded strung
    rcases lastComma with rfl | comma
    · exact whole.close is marks
    · obtain ⟨mark, rfl, commaKind⟩ := map_eq_singleton_iff.mp comma
      rw [← append_nil (map _ _)]
      exact whole.between commaKind rfl (nil.led is marks)

theorem targeted {names : List Text} (targets : TargetNames first names) (bounded : Bounded tokens)
    (strung : Strung phrases tokens trees) : Strung phrases (first ++ tokens) trees := by
  induction targets with
  | one isName => exact .word isName bounded strung
  | more isName comma _ ih => exact .word isName (bounded_cons comma rfl) (ih.led comma rfl)

end Strung

theorem Phrase.infixed?_children {node : Expr → Expr → Expr}
    (joins : phrase.infixed? kind = some node) (left right : Expr) :
    kind.marks = true ∧ (node left right).children? = some [left, right] := by
  cases phrase <;> cases kind <;> cases joins <;> exact ⟨rfl, rfl⟩

theorem Phrase.prefixed?_children {node : Expr → Expr} (leads : phrase.prefixed? kind = some node)
    (operand : Expr) :
    kind.marks = true ∧ (node operand).children? = some [operand] := by
  cases phrase <;> cases kind <;> cases leads <;> exact ⟨rfl, rfl⟩

/-- What holds of constants and names, and of phrases strung together where it holds of each of
them, holds of all phrases. -/
theorem Derives.compose (phrases : List Token → Expr → Prop)
    (constant : ∀ {token value}, token.constant? = some value → phrases [token] (.literal value))
    (texts : ∀ {tokens}, tokens ≠ [] → (∀ token ∈ tokens, token.kind = .textLiteral) →
      phrases tokens (.literal (.text (tokens.flatMap Token.literal))))
    (name : ∀ {token}, token.kind = .name → phrases [token] (.name token.literal token.offset))
    (composed : ∀ {tokens trees tree}, Strung phrases tokens trees →
      tree.children? = some trees ∨ trees = [tree] → phrases tokens tree)
    {tokens : List Token} (derived : Derives phrase tokens tree) : phrases tokens tree := by
  induction derived with
  | looser _ _ ih => exact ih
  | conditional _ ifKind _ elseKind _ thenIh testIh elseIh =>
    refine composed ((Strung.single thenIh).between ifKind rfl ?_) (.inl rfl)
    exact (Strung.single testIh).between elseKind rfl (.single elseIh)
  | infixed _ _ joins _ leftIh rightIh =>
    obtain ⟨marks, children⟩ := Phrase.infixed?_children joins _ _
    exact composed ((Strung.single leftIh).between rfl marks (.single rightIh)) (.inl children)
  | prefixed leads _ ih =>
    obtain ⟨marks, children⟩ := Phrase.prefixed?_children leads _
    exact composed (.mark marks (.single ih)) (.inl children)
  | @chain _ _ links _ _ spelled _ firstIh ih =>
    have marks (op : CompareOp) : op.spelling ≠ [] ∧ ∀ kind ∈ op.spelling, kind.marks = true := by
      cases op <;> decide
    obtain ⟨strung, bounded⟩ := @Strung.row phrases (links.map Prod.snd)
      (forall_mem_map.mpr fun link member => ⟨_, spelled link member, marks link.1⟩)
      (forall_mem_map.mpr ih)
    rw [flatMap_map] at strung bounded
    refine composed (.phrase firstIh bounded strung) (.inl ?_)
    rw [Expr.children?, map_map, map_map]
    rfl
  | power _ kind _ baseIh exponentIh =>
    exact composed ((Strung.single baseIh).between kind rfl (.single exponentIh)) (.inl rfl)
  | index _ openingKind _ closingKind baseIh positionIh =>
    exact composed ((Strung.single baseIh).between openingKind rfl
      ((Strung.single positionIh).close closingKind rfl)) (.inl rfl)
  | member _ dotKind labelKind ih =>
    exact composed ((Strung.single ih).between dotKind rfl (.word labelKind (.inl rfl) .nil))
      (.inl rfl)
  | call _ openingKind between _ closingKind functionIh ih =>
    exact composed ((Strung.single functionIh).between openingKind rfl
      (.listed between ih closingKind rfl)) (.inl rfl)
  | generatorCall _ openingKind _ closingKind functionIh ih =>
    exact composed ((Strung.single functionIh).between openingKind rfl
      ((Strung.single ih).close closingKind rfl)) (.inl rfl)
  | constant stands => exact constant stands
  | texts nonempty each => exact texts nonempty each
  | name kind => exact name kind
  | group openingKind _ closingKind ih | generator openingKind _ closingKind ih
  | listed openingKind _ closingKind ih =>
    exact composed (((Strung.single ih).close closingKind rfl).led openingKind rfl) (.inr rfl)
  | tuple openingKind between _ _ closingKind ih | list openingKind between _ closingKind ih =>
    exact composed ((Strung.listed between ih closingKind rfl).led openingKind rfl) (.inl rfl)
  | comprehension _ forKind bound inKind _ words _ elementIh iterableIh ih =>
    obtain ⟨strung, bounded⟩ := Strung.row (fun condition member =>
      ⟨_, words condition member, by decide, by decide⟩) ih
    refine composed ((Strung.single elementIh).between forKind rfl ?_) (.inl rfl)
    exact .targeted bound (bounded_cons inKind rfl)
      (.led inKind rfl (.phrase iterableIh bounded strung))

def ProperTokens (tokens : List Token) : Prop := ∀ token ∈ tokens, token.kind.proper = true

theorem Derives.proper {tokens : List Token} (derived : Derives phrase tokens tree) :
    ProperTokens tokens := by
  refine derived.compose (fun tokens _ => ProperTokens tokens) ?_ ?_ ?_ ?_
  · intro token value stands
    obtain kind | kind | kind | kind | kind := Token.constant?_kind stands <;>
      exact forall_mem_singleton.mpr (kind ▸ rfl)
  · exact fun _ each token member => each token member ▸ rfl
  · exact fun kind => forall_mem_singleton.mpr (kind ▸ rfl)
  · intro tokens trees tree strung children
    clear children
    induction strung with
    | nil => exact forall_mem_nil _
    | @mark token _ _ marks _ ih =>
      refine forall_mem_cons.mpr ⟨?_, ih⟩
      cases kind : token.kind <;> rw [kind] at marks <;> first | rfl | cases marks
    | word isName _ _ ih => exact forall_mem_cons.mpr ⟨isName ▸ rfl, ih⟩
    | phrase proper _ _ ih => exact forall_mem_append.mpr ⟨proper, ih⟩

def TokenKind.endsPhrase : TokenKind → Bool
  | .name | .intLiteral | .floatLiteral | .textLiteral | .trueWord | .falseWord | .noneWord
  | .closeParen | .closeBracket => true
  | _ => false

def EndsPhrase (tokens : List Token) : Prop :=
  ∃ front last, tokens = front ++ [last] ∧ last.kind.endsPhrase = true

namespace EndsPhrase

variable {tokens : List Token} {token : Token} {kind : TokenKind}

theorem single (same : token.kind = kind) (ends : kind.endsPhrase = true) : EndsPhrase [token] :=
  ⟨[], token, rfl, same ▸ ends⟩

theorem append (ends : EndsPhrase tokens) (front : List Token) : EndsPhrase (front ++ tokens) := by
  obtain ⟨before, last, rfl, kind⟩ := ends
  exact ⟨front ++ before, last, (append_assoc _ _ _).symm, kind⟩

theorem cons (ends : EndsPhrase tokens) (first : Token) : EndsPhrase (first :: tokens) :=
  ends.append [first]

theorem of_last {items : List Marked} (several : items ≠ [])
    (each : ∀ item ∈ items, EndsPhrase item.body) : EndsPhrase (items.flatMap Marked.tokens) := by
  rcases eq_nil_or_concat items with rfl | ⟨front, last, rfl⟩
  · exact absurd rfl several
  · rw [concat_eq_append, flatMap_append, flatMap_singleton]
    exact ((each last (by simp)).append _).append _

end EndsPhrase

theorem Derives.ends {tokens : List Token} (derived : Derives phrase tokens tree) :
    EndsPhrase tokens := by
  induction derived with
  | looser _ _ ih => exact ih
  | conditional _ _ _ _ _ _ _ elseIh => exact (((elseIh.cons _).append _).cons _).append _
  | infixed _ _ _ _ _ rightIh => exact (rightIh.cons _).append _
  | prefixed _ _ ih => exact ih.cons _
  | @chain _ _ links _ several _ _ _ ih =>
    refine .append ?_ _
    have bodies : links.flatMap (·.2.tokens) = (links.map Prod.snd).flatMap Marked.tokens := by
      rw [flatMap_map]
    rw [bodies]
    exact .of_last (by simpa using several) (forall_mem_map.mpr ih)
  | power _ _ _ _ exponentIh => exact (exponentIh.cons _).append _
  | index _ _ _ closingKind _ _ | generatorCall _ _ _ closingKind _ _ =>
    exact (((EndsPhrase.single closingKind rfl).append _).cons _).append _
  | member _ _ labelKind _ => exact ((EndsPhrase.single labelKind rfl).cons _).append _
  | call _ _ _ _ closingKind _ _ =>
    exact ((((EndsPhrase.single closingKind rfl).append _).append _).cons _).append _
  | constant stands =>
    obtain kind | kind | kind | kind | kind := Token.constant?_kind stands <;>
      exact .single kind rfl
  | @texts tokens nonempty each =>
    rcases eq_nil_or_concat tokens with rfl | ⟨front, last, rfl⟩
    · exact absurd rfl nonempty
    · rw [concat_eq_append] at each ⊢
      exact (EndsPhrase.single (each last (by simp)) rfl).append _
  | name kind => exact .single kind rfl
  | group _ _ closingKind _ | generator _ _ closingKind _ | listed _ _ closingKind _ =>
    exact ((EndsPhrase.single closingKind rfl).append _).cons _
  | tuple _ _ _ _ closingKind _ | list _ _ _ closingKind _ =>
    exact (((EndsPhrase.single closingKind rfl).append _).append _).cons _
  | @comprehension _ _ _ _ _ _ _ _ conditions _ _ _ _ _ _ _ _ iterableIh ih =>
    refine .append (.cons (.append (.cons ?_ _) _) _) _
    cases conditions with
    | nil =>
      rw [flatMap_nil, append_nil]
      exact iterableIh
    | cons first others => exact (EndsPhrase.of_last (cons_ne_nil _ _) ih).append _

end Covenant.Condition
