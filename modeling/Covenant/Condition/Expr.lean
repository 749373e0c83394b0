import Covenant.Text

/-!
# Expressions

The syntax trees of conditions.
-/

set_option autoImplicit false

namespace Covenant.Condition

inductive Literal where
  | int (value : Int)
  | float (value : Float)
  | text (value : Text)
  | bool (value : Bool)
  | none
  deriving DecidableEq

inductive UnaryOp where
  | negate
  | keep
  | invert
  deriving DecidableEq, Repr

inductive BinaryOp where
  | add
  | subtract
  | multiply
  | divide
  | floorDivide
  | modulo
  | power
  deriving DecidableEq, Repr

inductive LogicOp where
  | both
  | either
  deriving DecidableEq, Repr

inductive CompareOp where
  | equal
  | notEqual
  | less
  | lessEqual
  | greater
  | greaterEqual
  | within
  | notWithin
  | identical
  | notIdentical
  deriving DecidableEq, Repr

def UnaryOp.label : UnaryOp → String
  | .negate => "-"
  | .keep => "+"
  | .invert => "not"

def BinaryOp.label : BinaryOp → String
  | .add => "+"
  | .subtract => "-"
  | .multiply => "*"
  | .divide => "/"
  | .floorDivide => "//"
  | .modulo => "%"
  | .power => "**"

def LogicOp.label : LogicOp → String
  | .both => "and"
  | .either => "or"

def CompareOp.label : CompareOp → String
  | .equal => "=="
  | .notEqual => "!="
  | .less => "<"
  | .lessEqual => "<="
  | .greater => ">"
  | .greaterEqual => ">="
  | .within => "in"
  | .notWithin => "not in"
  | .identical => "is"
  | .notIdentical => "is not"

/-- The expressions of conditions. A name keeps its offset in the text. -/
inductive Expr where
  | name (name : Text) (offset : Nat)
  | literal (value : Literal)
  | unary (op : UnaryOp) (operand : Expr)
  | binary (op : BinaryOp) (left right : Expr)
  | logic (op : LogicOp) (left right : Expr)
  | comparison (first : Expr) (links : List (CompareOp × Expr))
  | conditional (thenBranch test elseBranch : Expr)
  | call (function : Expr) (arguments : List Expr)
  | index (container position : Expr)
  | attribute (object : Expr) (name : Text)
  | list (items : List Expr)
  | tuple (items : List Expr)
  | comprehension (element : Expr) (targets : List Text) (iterable : Expr)
      (conditions : List Expr)

end Covenant.Condition
