import Covenant.Condition.Eval
import Covenant.Contract.Basic

/-!
# Postconditions

A postcondition may refer to one or two other calls. It is evaluated for each arrangement of the
current call and different remembered calls over its roles. A call is remembered when all
postconditions held, and only where some postcondition refers to other calls.
-/

set_option autoImplicit false

namespace Covenant.Contract

def record (bound : Bindings) (returned : Value) : Record :=
  (Condition.returnName, returned) :: bound.filter (fun entry => entry.1 != Condition.returnName)

def publicRecord (call : Record) : Bindings :=
  call.map fun (name, value) =>
    (if name == Condition.returnName then "return" else name, value)

structure Arrangement where
  roles : List Record
  current : Nat

def roleSuffixes : List Text := [[], Condition.backtickSuffix, Condition.doubleBacktickSuffix]

def Arrangement.bindings (arrangement : Arrangement) : Bindings :=
  ((arrangement.roles.zip roleSuffixes).reverse).flatMap fun (call, suffix) =>
    call.map (fun (name, value) => (name ++ suffix, value))

def Arrangement.others (arrangement : Arrangement) : List Record :=
  arrangement.roles.eraseIdx arrangement.current

def orderedPairs {α : Type} (elements : List α) : List (α × α) :=
  let numbered := elements.zipIdx
  numbered.flatMap fun (left, leftPlace) =>
    numbered.filterMap fun (right, rightPlace) =>
      if leftPlace = rightPlace then none else some (left, right)

def arrangements (depth : Nat) (current : Record) (remembered : List Record) :
    List Arrangement :=
  match depth with
  | 0 => [⟨[current], 0⟩]
  | 1 => remembered.flatMap fun other => [⟨[current, other], 0⟩, ⟨[other, current], 1⟩]
  | _ =>
    (orderedPairs remembered).flatMap fun (first, second) =>
      [⟨[current, first, second], 0⟩, ⟨[first, current, second], 1⟩,
        ⟨[first, second, current], 2⟩]

def lookBindings (bindings : Bindings) : Condition.Evaluation Bindings := do
  let memory ← get
  return bindings.map (fun (name, value) => (name, memory.view value))

def ensureArrangement (world : World) (name : Text) (scope : Condition.Scope)
    (condition : Condition) (arrangement : Arrangement) : Condition.Evaluation Unit := do
  if ← condition.holds world (scope.push arrangement.bindings) then return ()
  else
    let current := arrangement.roles.getD arrangement.current []
    let arguments ← lookBindings (publicRecord current)
    let others ← arrangement.others.mapM (fun call => lookBindings (publicRecord call))
    throw (.exitConditions name condition.source arguments others)

def checkEnsures (world : World) (contract : Contract) (scope : Condition.Scope)
    (current : Record) : Condition.Evaluation Unit :=
  contract.ensures.forM fun condition =>
    (arrangements condition.depth current contract.remembered).forM
      (ensureArrangement world contract.name scope condition)

def isTemporal (contract : Contract) : Bool :=
  contract.ensures.any (fun condition => 0 < condition.depth)

/-- Remembers a call and forgets the oldest ones beyond the limit. A negative limit crashes; where
the surplus does not fit a word of the host, nothing is forgotten. -/
def remember (limit : Int) (remembered : List Record) (call : Record) :
    Except Failure (List Record) × List Record :=
  let calls := remembered ++ [call]
  let surplus := (calls.length : Int) - limit
  if (calls.length : Int) < surplus then
    if surplus < 0x8000000000000000 then
      (.error (.crash ("runtime error: slice bounds out of range ["
        ++ Text.ofInt surplus ++ ":" ++ Text.ofNat calls.length ++ "]")), calls)
    else (.ok calls, calls)
  else (.ok (calls.drop surplus.toNat), calls)

end Covenant.Contract
