import Covenant.Condition.Expr
import Covenant.Condition.Token
import Covenant.Number.Decimal

/-!
# Parsing

Recursive descent over tokens, with a kind of phrase for each level of precedence, from conditionals
to the postfix forms. Every function takes the tokens that are left and returns those it did not
use; a number bounds the depth of the descent, and `parse` starts with more than any token list can
need.
-/

set_option autoImplicit false

namespace Covenant.Condition

structure Fault where
  offset : Nat
  cause : SyntaxCause
  deriving DecidableEq, Repr

def nextKind : List Token → TokenKind
  | [] => .endOfText
  | token :: _ => token.kind

def nextOffset : List Token → Nat
  | [] => 0
  | token :: _ => token.offset

def refuse {α : Type} (tokens : List Token) (cause : SyntaxCause) : Except Fault (α × List Token) :=
  .error ⟨nextOffset tokens, cause⟩

def misplaced {α : Type} (tokens : List Token) : Except Fault (α × List Token) :=
  refuse tokens (.misplaced (nextKind tokens))

def expect (wanted : TokenKind) (tokens : List Token) : Except Fault (Token × List Token) :=
  match tokens with
  | [] => refuse tokens (.expected wanted .endOfText)
  | token :: rest =>
    if token.kind = wanted then .ok (token, rest)
    else refuse tokens (.expected wanted token.kind)

def compareOperator? : List Token → Option (CompareOp × List Token)
  | [] => none
  | token :: rest =>
    match token.kind with
    | .equal => some (.equal, rest)
    | .notEqual => some (.notEqual, rest)
    | .less => some (.less, rest)
    | .lessEqual => some (.lessEqual, rest)
    | .greater => some (.greater, rest)
    | .greaterEqual => some (.greaterEqual, rest)
    | .inWord => some (.within, rest)
    | .notWord => if nextKind rest = .inWord then some (.notWithin, rest.tail) else none
    | .isWord =>
      if nextKind rest = .notWord then some (.notIdentical, rest.tail)
      else some (.identical, rest)
    | _ => none

def intLiteral? (literal : Text) : Option Literal :=
  match Number.readInt literal with
  | .ok value => some (.int value)
  | .error _ => (Number.read literal).toOption.map .float

def floatLiteral? (literal : Text) : Option Literal := (Number.read literal).toOption.map .float

def adjacentTexts : List Token → Text × List Token
  | [] => ([], [])
  | token :: rest =>
    if token.kind = .textLiteral then
      let (more, tokens) := adjacentTexts rest
      (token.literal ++ more, tokens)
    else ([], token :: rest)

def targetNames : Nat → List Token → Except Fault ((List Text) × List Token)
  | 0, tokens => misplaced tokens
  | depth + 1, tokens => do
      let (target, tokens) ← expect .name tokens
      if nextKind tokens = .comma then
        let (more, tokens) ← targetNames depth tokens.tail
        return (target.literal :: more, tokens)
      else return ([target.literal], tokens)

/-- The kinds of phrases, from the loosest to the tightest. -/
inductive Phrase where
  | expression
  | disjunction
  | conjunction
  | negation
  | comparison
  | sum
  | product
  | signedOperand
  | powerOperand
  | postfixForm
  | primary
  /-- An element with what it ranges over. It stands only between brackets. -/
  | comprehension
  deriving DecidableEq, Repr

namespace Phrase

def tighter? : Phrase → Option Phrase
  | .expression => some .disjunction
  | .disjunction => some .conjunction
  | .conjunction => some .negation
  | .negation => some .comparison
  | .comparison => some .sum
  | .sum => some .product
  | .product => some .signedOperand
  | .signedOperand => some .powerOperand
  | .powerOperand => some .postfixForm
  | .postfixForm => some .primary
  | .primary | .comprehension => none

def infixed? : Phrase → TokenKind → Option (Expr → Expr → Expr)
  | .disjunction, .orWord => some (.logic .either)
  | .conjunction, .andWord => some (.logic .both)
  | .sum, .plus => some (.binary .add)
  | .sum, .minus => some (.binary .subtract)
  | .product, .star => some (.binary .multiply)
  | .product, .slash => some (.binary .divide)
  | .product, .doubleSlash => some (.binary .floorDivide)
  | .product, .percent => some (.binary .modulo)
  | _, _ => none

def prefixed? : Phrase → TokenKind → Option (Expr → Expr)
  | .negation, .notWord => some (.unary .invert)
  | .signedOperand, .minus => some (.unary .negate)
  | .signedOperand, .plus => some (.unary .keep)
  | _, _ => none

end Phrase

/-- What stands between two brackets: a comprehension, or items, with whether a comma follows the
first of them. -/
inductive Enclosed where
  | items (items : List Expr) (separated : Bool)
  | generator (tree : Expr)

namespace Enclosed

def grouped : Enclosed → Expr
  | .items [tree] false | .generator tree => tree
  | .items trees _ => .tuple trees

def listed : Enclosed → Expr
  | .items trees _ => .list trees
  | .generator tree => tree

def arguments : Enclosed → List Expr
  | .items trees _ => trees
  | .generator tree => [tree]

end Enclosed

def numberConstant (value? : Option Literal) (literal : Text) (rest : List Token) :
    Except Fault (Expr × List Token) :=
  match value? with
  | some value => .ok (.literal value, rest)
  | none => refuse rest (.invalidNumber literal)

mutual

def Phrase.read : Phrase → Nat → List Token → Except Fault (Expr × List Token)
  | _, 0, tokens => misplaced tokens
  | .expression, depth + 1, tokens => do
      let (thenBranch, tokens) ← Phrase.disjunction.read depth tokens
      if nextKind tokens = .ifWord then
        let (test, tokens) ← Phrase.disjunction.read depth tokens.tail
        let (_, tokens) ← expect .elseWord tokens
        let (elseBranch, tokens) ← Phrase.expression.read depth tokens
        return (.conditional thenBranch test elseBranch, tokens)
      else return (thenBranch, tokens)
  | .disjunction, depth + 1, tokens => do
      let (left, tokens) ← Phrase.conjunction.read depth tokens
      Phrase.disjunction.join depth left tokens
  | .conjunction, depth + 1, tokens => do
      let (left, tokens) ← Phrase.negation.read depth tokens
      Phrase.conjunction.join depth left tokens
  | .negation, depth + 1, tokens =>
    match Phrase.negation.prefixed? (nextKind tokens) with
    | none => Phrase.comparison.read depth tokens
    | some node => do
        let (operand, tokens) ← Phrase.negation.read depth tokens.tail
        return (node operand, tokens)
  | .comparison, depth + 1, tokens => do
      let (first, tokens) ← Phrase.sum.read depth tokens
      let (links, tokens) ← comparisonLinks depth tokens
      return (if links.isEmpty then first else .comparison first links, tokens)
  | .sum, depth + 1, tokens => do
      let (left, tokens) ← Phrase.product.read depth tokens
      Phrase.sum.join depth left tokens
  | .product, depth + 1, tokens => do
      let (left, tokens) ← Phrase.signedOperand.read depth tokens
      Phrase.product.join depth left tokens
  | .signedOperand, depth + 1, tokens =>
    match Phrase.signedOperand.prefixed? (nextKind tokens) with
    | none => Phrase.powerOperand.read depth tokens
    | some node => do
        let (operand, tokens) ← Phrase.signedOperand.read depth tokens.tail
        return (node operand, tokens)
  | .powerOperand, depth + 1, tokens => do
      let (base, tokens) ← Phrase.postfixForm.read depth tokens
      if nextKind tokens = .doubleStar then
        let (exponent, tokens) ← Phrase.signedOperand.read depth tokens.tail
        return (.binary .power base exponent, tokens)
      else return (base, tokens)
  | .postfixForm, depth + 1, tokens => do
      let (base, tokens) ← Phrase.primary.read depth tokens
      morePostfix depth base tokens
  | .primary, _ + 1, [] => misplaced []
  | .primary, depth + 1, token :: rest =>
    match token.kind with
    | .intLiteral => numberConstant (intLiteral? token.literal) token.literal rest
    | .floatLiteral => numberConstant (floatLiteral? token.literal) token.literal rest
    | .textLiteral =>
      let (text, tokens) := adjacentTexts (token :: rest)
      .ok (.literal (.text text), tokens)
    | .trueWord => .ok (.literal (.bool true), rest)
    | .falseWord => .ok (.literal (.bool false), rest)
    | .noneWord => .ok (.literal .none, rest)
    | .name => .ok (.name token.literal token.offset, rest)
    | .openParen => do
        let (content, tokens) ← enclosed depth .closeParen rest
        return (content.grouped, tokens)
    | .openBracket => do
        let (content, tokens) ← enclosed depth .closeBracket rest
        return (content.listed, tokens)
    | .illegal => refuse (token :: rest) (.illegal token.literal)
    | _ => misplaced (token :: rest)
  | .comprehension, depth + 1, tokens => do
      let (element, tokens) ← Phrase.expression.read depth tokens
      comprehensionTail depth element tokens

/-- Goes on with the operators that stand between phrases of the given kind. -/
def Phrase.join : Phrase → Nat → Expr → List Token → Except Fault (Expr × List Token)
  | _, 0, _, tokens => misplaced tokens
  | phrase, depth + 1, left, tokens =>
    match phrase.infixed? (nextKind tokens), phrase.tighter? with
    | some node, some tighter => do
        let (right, tokens) ← tighter.read depth tokens.tail
        phrase.join depth (node left right) tokens
    | _, _ => .ok (left, tokens)

def comparisonLinks : Nat → List Token → Except Fault ((List (CompareOp × Expr)) × List Token)
  | 0, tokens => misplaced tokens
  | depth + 1, tokens =>
    match compareOperator? tokens with
    | none => .ok ([], tokens)
    | some (op, tokens) => do
        let (operand, tokens) ← Phrase.sum.read depth tokens
        let (links, tokens) ← comparisonLinks depth tokens
        return ((op, operand) :: links, tokens)

def morePostfix : Nat → Expr → List Token → Except Fault (Expr × List Token)
  | 0, _, tokens => misplaced tokens
  | depth + 1, base, tokens =>
    match nextKind tokens with
    | .openBracket => do
        let (position, tokens) ← Phrase.expression.read depth tokens.tail
        let (_, tokens) ← expect .closeBracket tokens
        morePostfix depth (.index base position) tokens
    | .dot => do
        let (name, tokens) ← expect .name tokens.tail
        morePostfix depth (.attribute base name.literal) tokens
    | .openParen => do
        let (content, tokens) ← enclosed depth .closeParen tokens.tail
        morePostfix depth (.call base content.arguments) tokens
    | _ => .ok (base, tokens)

def enclosed : Nat → TokenKind → List Token → Except Fault (Enclosed × List Token)
  | 0, _, tokens => misplaced tokens
  | depth + 1, closing, tokens =>
    if nextKind tokens = closing then .ok (.items [] false, tokens.tail)
    else do
      let (first, tokens) ← Phrase.expression.read depth tokens
      if nextKind tokens = .forWord then
        let (tree, tokens) ← comprehensionTail depth first tokens
        let (_, tokens) ← expect closing tokens
        return (.generator tree, tokens)
      else
        let (more, rest) ← moreItems depth closing tokens
        let (_, rest) ← expect closing rest
        return (.items (first :: more) (nextKind tokens = .comma), rest)

def moreItems : Nat → TokenKind → List Token → Except Fault ((List Expr) × List Token)
  | 0, _, tokens => misplaced tokens
  | depth + 1, closing, tokens =>
    if nextKind tokens = .comma then
      if nextKind tokens.tail = closing then .ok ([], tokens.tail)
      else do
        let (item, tokens) ← Phrase.expression.read depth tokens.tail
        let (more, tokens) ← moreItems depth closing tokens
        return (item :: more, tokens)
    else .ok ([], tokens)

def comprehensionTail : Nat → Expr → List Token → Except Fault (Expr × List Token)
  | 0, _, tokens => misplaced tokens
  | depth + 1, element, tokens => do
      let (_, tokens) ← expect .forWord tokens
      let (targets, tokens) ← targetNames depth tokens
      let (_, tokens) ← expect .inWord tokens
      let (iterable, tokens) ← Phrase.disjunction.read depth tokens
      let (conditions, tokens) ← comprehensionConditions depth tokens
      return (.comprehension element targets iterable conditions, tokens)

def comprehensionConditions : Nat → List Token → Except Fault ((List Expr) × List Token)
  | 0, tokens => misplaced tokens
  | depth + 1, tokens =>
    if nextKind tokens = .ifWord then do
      let (condition, tokens) ← Phrase.disjunction.read depth tokens.tail
      let (more, tokens) ← comprehensionConditions depth tokens
      return (condition :: more, tokens)
    else .ok ([], tokens)

end

def expression (depth : Nat) (tokens : List Token) : Except Fault (Expr × List Token) :=
  Phrase.expression.read depth tokens

/-- A depth that no descent over these tokens reaches. -/
def depthBound (tokens : List Token) : Nat := 16 * (tokens.length + 1)

def parseTokens (tokens : List Token) : Except Fault Expr := do
  let (expr, rest) ← expression (depthBound tokens) tokens
  match nextKind rest with
  | .endOfText => return expr
  | kind => .error ⟨nextOffset rest, .trailing kind⟩

def parse (source : Text) : Except SyntaxError Expr :=
  match parseTokens (scan source) with
  | .ok expr => .ok expr
  | .error fault => .error ⟨source, fault.offset, fault.cause⟩

end Covenant.Condition
