import Covenant.Proofs.Completeness

/-!
# Text constants

The text constants of an expression are the quoted texts among its tokens, in their order and with
neighbours joined. No phrase stands right before a quoted text that is not its own, so the texts of
two phrases in a row are told apart.
-/

set_option autoImplicit false

namespace Covenant.Condition

open List

def Literal.texts : Literal → List Text
  | .text value => [value]
  | _ => []

mutual

def Expr.texts : Expr → List Text
  | .name _ _ => []
  | .literal value => value.texts
  | .unary _ operand | .attribute operand _ => operand.texts
  | .binary _ left right | .logic _ left right | .index left right => left.texts ++ right.texts
  | .comparison first links => first.texts ++ Expr.textsLinks links
  | .conditional thenBranch test elseBranch =>
    thenBranch.texts ++ (test.texts ++ elseBranch.texts)
  | .call function arguments => function.texts ++ Expr.textsAll arguments
  | .list items | .tuple items => Expr.textsAll items
  | .comprehension element _ iterable conditions =>
    element.texts ++ (iterable.texts ++ Expr.textsAll conditions)

def Expr.textsAll : List Expr → List Text
  | [] => []
  | expr :: exprs => expr.texts ++ Expr.textsAll exprs

def Expr.textsLinks : List (CompareOp × Expr) → List Text
  | [] => []
  | (_, operand) :: links => operand.texts ++ Expr.textsLinks links

end

/-- The values of quoted texts among the tokens, neighbours joined; `run` is the value of those
just before. -/
def joinedTexts (run : Option Text) : List Token → List Text
  | [] => run.toList
  | token :: tokens =>
    if token.kind = .textLiteral then joinedTexts (some (run.getD [] ++ token.literal)) tokens
    else run.toList ++ joinedTexts none tokens

section

variable {run : Option Text} {token : Token} {tokens rest : List Token}

theorem joinedTexts_text (kind : token.kind = .textLiteral) :
    joinedTexts run (token :: tokens) = joinedTexts (some (run.getD [] ++ token.literal)) tokens :=
  if_pos kind

theorem joinedTexts_other (kind : token.kind ≠ .textLiteral) :
    joinedTexts run (token :: tokens) = run.toList ++ joinedTexts none tokens :=
  if_neg kind

theorem joinedTexts_of_next (next : nextKind rest ≠ .textLiteral) :
    joinedTexts run rest = run.toList ++ joinedTexts none rest := by
  cases rest with
  | nil => exact (append_nil _).symm
  | cons token others =>
    rw [nextKind_cons] at next
    rw [joinedTexts_other next, joinedTexts_other next]
    rfl

theorem joinedTexts_run {value : Text} (each : ∀ token ∈ tokens, token.kind = .textLiteral)
    (next : nextKind rest ≠ .textLiteral) :
    joinedTexts (some value) (tokens ++ rest) =
      [value ++ tokens.flatMap Token.literal] ++ joinedTexts none rest := by
  induction tokens generalizing value with
  | nil =>
    rw [nil_append, joinedTexts_of_next next, flatMap_nil, append_nil]
    rfl
  | cons token others ih =>
    rw [forall_mem_cons] at each
    rw [cons_append, joinedTexts_text each.1, ih each.2, flatMap_cons,
      ← append_assoc]
    rfl

end

/-- The tokens hold the given texts, whatever other token comes next. -/
def HoldTexts (tokens : List Token) (texts : List Text) : Prop :=
  ∀ rest, nextKind rest ≠ .textLiteral →
    joinedTexts none (tokens ++ rest) = texts ++ joinedTexts none rest

namespace HoldTexts

variable {token : Token} {kind : TokenKind} {tokens first second : List Token}
  {texts others : List Text}

theorem nil : HoldTexts [] [] := fun _ _ => rfl

theorem mark (is : token.kind = kind) (other : kind ≠ .textLiteral)
    (hold : HoldTexts tokens texts) : HoldTexts (token :: tokens) texts := by
  subst is
  intro rest next
  rw [cons_append, joinedTexts_other other, hold rest next]
  rfl

theorem append (hold : HoldTexts first texts) (apart : nextKind second ≠ .textLiteral)
    (holdOthers : HoldTexts second others) : HoldTexts (first ++ second) (texts ++ others) := by
  intro rest next
  have stays : nextKind (second ++ rest) ≠ .textLiteral := by
    cases second with
    | nil => exact next
    | cons token tokens => exact apart
  rw [append_assoc, hold _ stays, holdOthers rest next, append_assoc]

theorem of_strung {trees : List Expr}
    (strung : Strung (fun tokens tree => HoldTexts tokens tree.texts) tokens trees) :
    HoldTexts tokens (trees.flatMap Expr.texts) := by
  have other {kind : TokenKind} (marks : kind.marks = true) : kind ≠ .textLiteral := by
    rintro rfl
    cases marks
  induction strung with
  | nil => exact nil
  | mark marks _ ih => exact mark rfl (other marks) ih
  | word isName _ _ ih => exact mark isName (by decide) ih
  | phrase hold bounded _ ih =>
    refine hold.append ?_ ih
    rcases bounded with rfl | marks
    · decide
    · exact other marks

end HoldTexts

variable {phrase : Phrase}

theorem texts_of_number {number : Option Float} {value : Literal}
    (read : number.map Literal.float = some value) : value.texts = [] := by
  obtain ⟨_, _, rfl⟩ := Option.map_eq_some_iff.mp read
  rfl

theorem texts_of_intLiteral? {literal : Text} {value : Literal}
    (read : intLiteral? literal = some value) : value.texts = [] := by
  rw [intLiteral?] at read
  cases whole : Number.readInt literal with
  | ok number =>
    rw [whole] at read
    cases read
    rfl
  | error failure =>
    rw [whole] at read
    exact texts_of_number read

theorem Token.constant?_texts {token : Token} {value : Literal}
    (stands : token.constant? = some value) : token.kind ≠ .textLiteral ∧ value.texts = [] := by
  rcases Token.constant?_kind stands with kind | kind | kind | kind | kind <;>
    rw [Token.constant?, kind] at stands <;> rw [kind]
  · exact ⟨by decide, texts_of_intLiteral? stands⟩
  · exact ⟨by decide, texts_of_number stands⟩
  · cases stands
    exact ⟨by decide, rfl⟩
  · cases stands
    exact ⟨by decide, rfl⟩
  · cases stands
    exact ⟨by decide, rfl⟩

theorem Expr.textsAll_eq (exprs : List Expr) : Expr.textsAll exprs = exprs.flatMap Expr.texts := by
  induction exprs with
  | nil => rfl
  | cons expr exprs ih => exact congrArg (expr.texts ++ ·) ih

theorem Expr.textsLinks_eq (links : List (CompareOp × Expr)) :
    Expr.textsLinks links = (links.map Prod.snd).flatMap Expr.texts := by
  induction links with
  | nil => rfl
  | cons link links ih => exact congrArg (link.2.texts ++ ·) ih

theorem Expr.texts_of_children? {tree : Expr} {trees : List Expr}
    (children : tree.children? = some trees) : tree.texts = trees.flatMap Expr.texts := by
  cases tree <;> cases children <;> simp [Expr.texts, textsAll_eq, textsLinks_eq]

theorem Derives.holdTexts {tokens : List Token} {tree : Expr}
    (derived : Derives phrase tokens tree) : HoldTexts tokens tree.texts := by
  refine derived.compose (fun tokens tree => HoldTexts tokens tree.texts) ?_ ?_ ?_ ?_
  · intro token value stands
    obtain ⟨other, none⟩ := Token.constant?_texts stands
    rw [Expr.texts, none]
    exact .mark rfl other .nil
  · intro tokens nonempty each rest next
    cases tokens with
    | nil => exact absurd rfl nonempty
    | cons token others =>
      rw [forall_mem_cons] at each
      rw [cons_append, joinedTexts_text each.1, joinedTexts_run each.2 next]
      rfl
  · exact fun kind => .mark kind (by decide) .nil
  · intro tokens trees tree strung children
    have hold := HoldTexts.of_strung strung
    rcases children with children | rfl
    · rwa [Expr.texts_of_children? children]
    · rwa [flatMap_singleton] at hold

end Covenant.Condition
