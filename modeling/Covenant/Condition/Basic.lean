import Covenant.Condition.Parser

/-!
# Conditions

Sugar is removed first: an implication `A --> B` or `A <--> B`, the word `return`, and backticks
after names that belong to other calls. The plain text that remains is parsed. A precondition may
use neither `return` nor backticks.
-/

set_option autoImplicit false

namespace Covenant

namespace Condition

inductive Mode where
  | precondition
  | postcondition
  deriving DecidableEq, Repr

def Mode.label : Mode → String
  | .precondition => "requires"
  | .postcondition => "ensures"

def returnName : Text := "__RETURN__"

def backtickSuffix : Text := "__BACKTICK__"

def doubleBacktickSuffix : Text := "__DOUBLEBACKTICK__"

def returnWord : Text := "return"

def isWordByte (byte : UInt8) : Bool := continuesName byte

/-- Whether the word `return` stands at the front; `before` says whether a word byte precedes. -/
def returnAt (before : Bool) (text : Text) : Bool :=
  !before && Text.startsWith text returnWord
    && !((text.drop returnWord.length).head?.any isWordByte)

def findReturn? (before : Bool) : Text → Option Nat
  | [] => none
  | byte :: rest =>
    if returnAt before (byte :: rest) then some 0
    else (findReturn? (isWordByte byte) rest).map (· + 1)

/-- Replaces every word `return`; `skip` bytes of the front belong to one already replaced. -/
def nameReturns (before : Bool) : Nat → Text → Text
  | _, [] => []
  | skip + 1, byte :: rest => nameReturns (isWordByte byte) skip rest
  | 0, byte :: rest =>
    if returnAt before (byte :: rest) then
      returnName ++ nameReturns (isWordByte byte) (returnWord.length - 1) rest
    else byte :: nameReturns (isWordByte byte) 0 rest

def backtick : UInt8 := 96

/-- The runs of backticks in a text as offsets and lengths; `current` is the run that ends just
before `offset`. -/
def backtickRuns (offset current : Nat) : Text → List (Nat × Nat)
  | [] => if current = 0 then [] else [(offset - current, current)]
  | byte :: rest =>
    if byte = backtick then backtickRuns (offset + 1) (current + 1) rest
    else if current = 0 then backtickRuns (offset + 1) 0 rest
    else (offset - current, current) :: backtickRuns (offset + 1) 0 rest

structure Plain where
  text : Text
  depth : Nat
  deriving DecidableEq, Repr

def doubleArrow : Text := "<-->"

def arrow : Text := "-->"

def implicationText (premise consequence : Text) : Text :=
  "(" ++ consequence ++ ") if (" ++ premise ++ ") else True"

def spellImplications (text : Text) : Except SyntaxCause Text :=
  if Text.contains text doubleArrow then
    match Text.split doubleArrow text with
    | [left, right] =>
      let spelled := "(" ++ implicationText left right ++ ") and ("
        ++ implicationText right left ++ ")"
      if Text.contains spelled arrow then .error .severalImplications else .ok spelled
    | _ => .error .severalImplications
  else if Text.contains text arrow then
    match Text.split arrow text with
    | [premise, consequence] => .ok (implicationText premise consequence)
    | _ => .error .severalImplications
  else .ok text

def spellBackticks (text : Text) : Text :=
  Text.replace [backtick] backtickSuffix
    (Text.replace [backtick, backtick] doubleBacktickSuffix text)

def spellReturns (mode : Mode) (source : Text) : Except Fault Text :=
  match mode with
  | .postcondition => .ok (nameReturns false 0 source)
  | .precondition =>
    match source.idxOf? backtick with
    | some offset => .error ⟨offset, .otherCallInPrecondition⟩
    | none =>
      match findReturn? false source with
      | some offset => .error ⟨offset, .returnInPrecondition⟩
      | none => .ok source

def desugar (mode : Mode) (source : Text) : Except Fault Plain := do
  let named ← spellReturns mode source
  let spelled ← (spellImplications named).mapError (⟨0, ·⟩)
  let runs := backtickRuns 0 0 spelled
  match runs.find? (fun run => 2 < run.2) with
  | some (offset, _) => .error ⟨offset, .tooManyBackticks⟩
  | none =>
    return ⟨spellBackticks spelled, runs.foldl (fun depth run => max depth run.2) 0⟩

end Condition

structure Condition where
  source : Text
  plain : Text
  depth : Nat
  expr : Condition.Expr

namespace Condition

def compile (mode : Mode) (source : Text) : Except SyntaxError Condition := do
  let plain ← (desugar mode source).mapError (fun fault => ⟨source, fault.offset, fault.cause⟩)
  let expr ← parse plain.text
  return ⟨source, plain.text, plain.depth, expr⟩

end Condition

end Covenant
