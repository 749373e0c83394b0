import Covenant.Condition.Token
import Covenant.Value.Text

/-!
# Failures

A failure is a cause with its data; `Failure.message` gives its wording. A failure may rest on
another one, which `Failure.chain` follows.
-/

set_option autoImplicit false

namespace Covenant

abbrev Bindings := List (Text × Value)

namespace Bindings

def sorted (bindings : Bindings) : Bindings :=
  bindings.mergeSort (fun left right => Text.le left.1 right.1)

/-- Named values as the failures of contracts show them. -/
def report (bindings : Bindings) : Text :=
  enclosed "\x7b" ", " "\x7d"
    (bindings.sorted.map (fun (name, value) => name ++ ": " ++ value.report))

end Bindings

/-- The ways in which the evaluation of a condition fails. -/
inductive EvalKind where
  | name
  | type
  | zeroDivision
  | index
  | attribute
  | value
  | panic
  deriving DecidableEq, Repr

def EvalKind.message : EvalKind → String
  | .name => "name is not defined"
  | .type => "unsupported operand type"
  | .zeroDivision => "division by zero"
  | .index => "index out of range"
  | .attribute => "no such attribute"
  | .value => "invalid value"
  | .panic => "panic during evaluation"

/-- A value that a type does not accept. -/
structure Violation where
  type : Text
  value : Value
  reason : Text

def Violation.message (violation : Violation) : Text :=
  violation.reason ++ ": " ++ violation.value.message ++ " is not a valid " ++ violation.type

/-- The causes of failures with their data. A crash has not been handled by the engine yet. -/
inductive Failure where
  | syntaxError (error : Condition.SyntaxError)
  | evaluation (kind : EvalKind) (detail : Text)
  | violation (violation : Violation)
  | noGenerator (type reason : Text)
  | invalidType (reason : Text)
  | unboundSelf
  | argumentType (function name : Text) (value : Value) (type : Text) (cause : Option Failure)
  | entryConditions (function condition : Text) (arguments : Bindings) (cause : Option Failure)
  | returnType (function : Text) (value : Value) (type : Text) (cause : Option Failure)
  | exitConditions (function condition : Text) (arguments : Bindings) (others : List Bindings)
  | objectModified (function name : Text)
  | internal (reason : Text)
  | invalidSetting (name : Text) (value : Value)
  | unknownSetting (name : Text)
  | binding (detail : Text)
  | declaration (detail : Text)
  | timeout (function : Text) (nanoseconds : Int)
  | panicked (function value : Text)
  | failedCase (function : Text) (arguments : Bindings) (cause : Failure)
  | noAnnotations
  | cancelled
  | plain (message : Text)
  | within (context : Text) (cause : Failure)
  | crash (value : Text)
  | unending

/-- A value as the report of a failed case shows it; long texts are cut. -/
def Value.caseText : Value → Text
  | .nil => "nil"
  | .text .text literal =>
    if 40 < literal.length then
      Text.quoted (literal.take 40) ++ "...(" ++ Text.ofNat literal.length ++ " bytes)"
    else Text.quoted literal
  | .function .. => "func"
  | .absent type => match type.underlying with
      | .func _ => "func"
      | _ => (Value.absent type).message
  | value => value.message

def Bindings.caseText (bindings : Bindings) : Text :=
  enclosed "\x7b" ", " "\x7d"
    (bindings.sorted.map (fun (name, value) => name ++ ": " ++ value.caseText))

namespace Failure

def message : Failure → Text
  | .syntaxError error => error.message
  | .evaluation kind detail => Text.ofString kind.message ++ ": " ++ detail
  | .violation broken => broken.message
  | .noGenerator type reason =>
    type ++ Text.ofString " has no generator"
      ++ if reason.isEmpty then [] else Text.ofString ": " ++ reason
  | .invalidType reason => "invalid type: " ++ reason
  | .unboundSelf =>
    "invalid type: invalid use of the Self type (was the class contract bound?)"
  | .argumentType function name value type _ =>
    if name.isEmpty then "Invalid argument specification in " ++ function
    else "Invalid argument type: " ++ name ++ "=" ++ value.report
      ++ " is not of type " ++ type ++ " in " ++ function
  | .entryConditions function condition arguments none =>
    "Function requirement '" ++ condition ++ "' failed in "
      ++ function ++ "\nparams: " ++ arguments.report
  | .entryConditions function condition arguments (some cause) =>
    "Invalid function requirement '" ++ condition ++ "' in "
      ++ function ++ "\nparams: " ++ arguments.report ++ "\nerror: " ++ cause.message
  | .returnType function value type _ =>
    "Invalid return type of " ++ value.report ++ " in " ++ function ++ " (want " ++ type ++ ")"
  | .exitConditions function condition arguments others =>
    Text.ofString "Ensures statement '" ++ condition ++ Text.ofString "' failed in " ++ function
      ++ "\nparams: " ++ arguments.report
      ++ others.flatMap (fun other => Text.ofString "\nother call: " ++ other.report)
  | .objectModified function name =>
    "Argument " ++ name ++ " was modified by " ++ function
  | .internal reason => "internal contract error: " ++ reason
  | .invalidSetting name value =>
    "invalid setting: " ++ name ++ " = " ++ value.message
  | .unknownSetting name => "unknown setting: " ++ Text.quoted name
  | .binding detail => "cannot bind arguments: " ++ detail
  | .declaration detail => "invalid contract declaration: " ++ detail
  | .timeout function nanoseconds =>
    function ++ ": test case timed out after " ++ durationText nanoseconds
  | .panicked function value => function ++ " panicked: " ++ value
  | .failedCase function arguments cause =>
    function ++ " failed for " ++ arguments.caseText ++ ": " ++ cause.message
  | .noAnnotations => "no argument annotations"
  | .cancelled => "context canceled"
  | .plain message => message
  | .within context cause => context ++ ": " ++ cause.message
  | .crash value => value
  | .unending => "the computation does not end"

/-- A failure and those that it rests on, outermost first. -/
def chain : Failure → List Failure
  | .argumentType function name value type cause =>
    .argumentType function name value type cause :: (match cause with
      | some inner => inner.chain
      | none => [])
  | .entryConditions function condition arguments cause =>
    .entryConditions function condition arguments cause :: (match cause with
      | some inner => inner.chain
      | none => [])
  | .returnType function value type cause =>
    .returnType function value type cause :: (match cause with
      | some inner => inner.chain
      | none => [])
  | .failedCase function arguments inner => .failedCase function arguments inner :: inner.chain
  | .within context inner => .within context inner :: inner.chain
  | failure => [failure]

/-- The failures of the checks that a contract makes. -/
def isContractViolation : Failure → Bool
  | .argumentType .. | .entryConditions .. | .returnType .. | .exitConditions ..
  | .objectModified .. | .internal _ => true
  | _ => false

def verifies (failure : Failure) : Bool := failure.chain.any isContractViolation

def isViolation (failure : Failure) : Bool :=
  failure.chain.any fun
    | .violation _ => true
    | _ => false

def isNoGenerator (failure : Failure) : Bool :=
  failure.chain.any fun
    | .noGenerator .. => true
    | _ => false

def isUnboundSelf (failure : Failure) : Bool :=
  failure.chain.any fun
    | .unboundSelf => true
    | _ => false

def isEntryConditions (failure : Failure) : Bool :=
  failure.chain.any fun
    | .entryConditions .. => true
    | _ => false

def isTimeout (failure : Failure) : Bool :=
  failure.chain.any fun
    | .timeout .. => true
    | _ => false

end Failure

end Covenant
