import Covenant.Yaml.Scanner

/-!
# Nodes

The first document of a source as a tree. Reading it looks two tokens ahead of the one it needs, so
a fault right behind the document is noticed as well; what comes later is not looked at.
-/

set_option autoImplicit false

namespace Covenant.Yaml

inductive Node where
  | scalar (style : ScalarStyle) (value : Text) (line : Nat)
  | sequence (items : List Node) (line : Nat)
  | mapping (entries : List (Node × Node)) (line : Nat)
  deriving Repr

namespace Node

def line : Node → Nat
  | .scalar _ _ line | .sequence _ line | .mapping _ line => line

def empty (line : Nat) : Node := .scalar .plain [] line

end Node

/-!
## Reading trees
-/

structure Tokens where
  rest : List Token
  complete : Bool

namespace Tokens

def peek? (tokens : Tokens) : Option Token :=
  if tokens.complete || 3 ≤ tokens.rest.length then tokens.rest.head? else none

def next (tokens : Tokens) : Tokens := { tokens with rest := tokens.rest.tail }

end Tokens

abbrev TreeReader (α : Type) := Tokens → Option (α × Tokens)

def nodeUnless (stops : List TokenKind) (line : Nat) (read : TreeReader Node) : TreeReader Node :=
  fun tokens => do
    let token ← tokens.peek?
    if stops.contains token.kind then return (.empty line, tokens) else read tokens

def valueUnless (stops : List TokenKind) (read : TreeReader Node) : TreeReader Node :=
  fun tokens => do
    let colon ← tokens.peek?
    if colon.kind == .value then nodeUnless stops colon.line read tokens.next
    else return (.empty colon.line, tokens)

def readBlockItems (indentless : Bool) (read : TreeReader Node) : Nat → TreeReader (List Node)
  | 0, _ => none
  | fuel + 1, tokens => do
      let token ← tokens.peek?
      if token.kind == .blockEntry then
        let others : List TokenKind := if indentless then [.key, .value] else []
        let (item, rest) ← nodeUnless (.blockEntry :: .blockEnd :: others) token.line read
          tokens.next
        let (items, rest) ← readBlockItems indentless read fuel rest
        return (item :: items, rest)
      else if indentless then return ([], tokens)
      else if token.kind == .blockEnd then return ([], tokens.next) else none

def readBlockEntries (read : TreeReader Node) : Nat → TreeReader (List (Node × Node))
  | 0, _ => none
  | fuel + 1, tokens => do
      let token ← tokens.peek?
      match token.kind with
      | .key =>
        let stops : List TokenKind := [.key, .value, .blockEnd]
        let (key, rest) ← nodeUnless stops token.line read tokens.next
        let (value, rest) ← valueUnless stops read rest
        let (entries, rest) ← readBlockEntries read fuel rest
        return ((key, value) :: entries, rest)
      | .blockEnd => return ([], tokens.next)
      | _ => none

/-- Whether a flow collection goes on with another entry. -/
def moreFlow (ending : TokenKind) (first : Bool) : TreeReader Bool := fun tokens => do
  let token ← tokens.peek?
  if token.kind == ending then return (false, tokens.next)
  let tokens ←
    if first then some tokens else if token.kind == .flowEntry then some tokens.next else none
  let token ← tokens.peek?
  return if token.kind == ending then (false, tokens.next) else (true, tokens)

/-- The entries of a flow collection up to its end. -/
def readFlow {α : Type} (ending : TokenKind) (read : TreeReader α) :
    Nat → Bool → TreeReader (List α)
  | 0, _, _ => none
  | fuel + 1, first, tokens => do
      let (more, tokens) ← moreFlow ending first tokens
      if !more then return ([], tokens)
      let (item, rest) ← read tokens
      let (items, rest) ← readFlow ending read fuel false rest
      return (item :: items, rest)

/-- An entry of a flow sequence. A key makes a mapping of one entry; where it is absent, the token
that shows it is passed over. -/
def readFlowItem (read : TreeReader Node) : TreeReader Node := fun tokens => do
  let token ← tokens.peek?
  if token.kind == .key then
    let tokens := tokens.next
    let after ← tokens.peek?
    let (key, rest) ←
      if [TokenKind.value, .flowEntry, .flowSequenceEnd].contains after.kind then
        some (.empty after.line, tokens.next)
      else read tokens
    let (value, rest) ← valueUnless [.flowEntry, .flowSequenceEnd] read rest
    return (.mapping [(key, value)] token.line, rest)
  else read tokens

/-- An entry of a flow mapping. A node without a key mark is a key without value. -/
def readFlowEntry (read : TreeReader Node) : TreeReader (Node × Node) := fun tokens => do
  let token ← tokens.peek?
  if token.kind == .key then
    let (key, rest) ← nodeUnless [.value, .flowEntry, .flowMappingEnd] token.line read tokens.next
    let (value, rest) ← valueUnless [.flowEntry, .flowMappingEnd] read rest
    return ((key, value), rest)
  else
    let (key, rest) ← read tokens
    let after ← rest.peek?
    return ((key, .empty after.line), rest)

/-- Reads a node. A sequence that is the value of a key need not be indented. -/
def readNode : Nat → Bool → Bool → TreeReader Node
  | 0, _, _, _ => none
  | fuel + 1, block, indentless, tokens => do
      let token ← tokens.peek?
      match token.kind with
      | .scalar style value => return (.scalar style value token.line, tokens.next)
      | .blockEntry =>
        if !indentless then none
        let (items, rest) ← readBlockItems true (readNode fuel true false) fuel tokens
        return (.sequence items token.line, rest)
      | .flowSequenceStart =>
        let (items, rest) ← readFlow .flowSequenceEnd (readFlowItem (readNode fuel false false))
          fuel true tokens.next
        return (.sequence items token.line, rest)
      | .flowMappingStart =>
        let (entries, rest) ← readFlow .flowMappingEnd (readFlowEntry (readNode fuel false false))
          fuel true tokens.next
        return (.mapping entries token.line, rest)
      | .blockSequenceStart =>
        if !block then none
        let (items, rest) ← readBlockItems false (readNode fuel true false) fuel tokens.next
        return (.sequence items token.line, rest)
      | .blockMappingStart =>
        if !block then none
        let (entries, rest) ← readBlockEntries (readNode fuel true true) fuel tokens.next
        return (.mapping entries token.line, rest)
      | _ => none

def readRoot (tokens : Tokens) : Option (Option Node) := do
  let fuel := 2 * tokens.rest.length + 2
  let token ← tokens.peek?
  if token.kind == .streamEnd then return none
  let (root, rest) ←
    if token.kind == .documentStart then
      nodeUnless [.documentStart, .documentEnd, .streamEnd] token.line (readNode fuel true false)
        tokens.next
    else readNode fuel true false tokens
  let _ ← rest.peek?
  return some root

/-- The first document of a source: nothing if the source is malformed, and no node if it holds no
document. -/
def read (source : Text) : Option (Option Node) :=
  let (tokens, complete) := scan source
  readRoot ⟨tokens, complete⟩

end Covenant.Yaml
