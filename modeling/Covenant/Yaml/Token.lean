import Covenant.Text

/-!
# Tokens of configuration documents

Documents have block and flow collections, plain and quoted scalars, comments and document marks;
indentation shows as the beginnings and ends of block collections. A key is only known once its
colon is met, so its tokens are put in front of what was scanned since.
-/

set_option autoImplicit false

namespace Covenant.Yaml

inductive ScalarStyle where
  | plain
  | singleQuoted
  | doubleQuoted
  deriving DecidableEq, Repr

inductive TokenKind where
  | documentStart
  | documentEnd
  | streamEnd
  | blockSequenceStart
  | blockMappingStart
  | blockEnd
  | flowSequenceStart
  | flowSequenceEnd
  | flowMappingStart
  | flowMappingEnd
  | blockEntry
  | flowEntry
  | key
  | value
  | scalar (style : ScalarStyle) (value : Text)
  deriving DecidableEq, Repr

structure Token where
  kind : TokenKind
  line : Nat
  deriving DecidableEq, Repr

structure Mark where
  index : Nat
  line : Nat
  column : Nat
  deriving DecidableEq, Repr

/-!
## Characters
-/

def isAllowed (point : Nat) : Bool :=
  point == 9 || point == 10 || point == 13 || (0x20 ≤ point && point ≤ 0x7E) || point == 0x85
    || (0xA0 ≤ point && point ≤ 0xD7FF) || (0xE000 ≤ point && point ≤ 0xFFFD)
    || (0x10000 ≤ point && point ≤ 0x10FFFF)

def isBlank (point : Nat) : Bool := point == 32 || point == 9

def isBreak (point : Nat) : Bool :=
  point == 10 || point == 13 || point == 0x85 || point == 0x2028 || point == 0x2029

/-- Whether nothing more of a word follows. -/
def endsWord : List Nat → Bool
  | [] => true
  | point :: _ => isBlank point || isBreak point

def endsAtSpace : List Nat → Bool
  | [] => true
  | point :: _ => point == 32 || isBreak point

/-- Three hyphens or dots that nothing else follows in their word. -/
def isDocumentMark : List Nat → Bool
  | 45 :: 45 :: 45 :: rest => endsWord rest
  | 46 :: 46 :: 46 :: rest => endsWord rest
  | _ => false

end Covenant.Yaml
