import Covenant.Csv
import Covenant.Text.Quoted

/-!
# Command-line flags

A flag is given by its name behind two dashes, or by its letter behind one; letters may be joined.
Its value stands behind an equals sign or in the next argument. A switch takes a value only behind
an equals sign. Two dashes alone end the flags. Arguments that are no flags are kept in order.
-/

set_option autoImplicit false

namespace Covenant

/-- A switch is on or off; a text is taken as it is; texts are the fields of records. -/
inductive FlagKind where
  | switch
  | text
  | texts
  deriving DecidableEq, Repr

structure Flag where
  name : Text
  letter : Option UInt8
  kind : FlagKind
  initial : Text
  usage : Text

inductive FlagValue where
  | switch (on : Bool)
  | text (text : Text)
  | texts (texts : List Text)
  deriving DecidableEq, Repr

inductive ValueError where
  | noSwitch (value : Text)
  | badRecord (cause : Csv.RecordError)
  deriving DecidableEq, Repr

inductive FlagError where
  | badSyntax (argument : Text)
  | unknown (name : Text)
  | unknownLetter (letter : UInt8) (letters : Text)
  | needsArgument (argument : Text)
  | letterNeedsArgument (letter : UInt8) (letters : Text)
  | badValue (letter : Option UInt8) (name value : Text) (cause : ValueError)
  deriving DecidableEq, Repr

def ValueError.message : ValueError → Text
  | .noSwitch value =>
    "strconv.ParseBool: parsing " ++ Text.quoted value ++ ": invalid syntax"
  | .badRecord cause => cause.message

def flagLabel (letter : Option UInt8) (name : Text) : Text :=
  match letter with
  | some letter => "-" ++ [letter] ++ ", --" ++ name
  | none => "--" ++ name

def FlagError.message : FlagError → Text
  | .badSyntax argument => "bad flag syntax: " ++ argument
  | .unknown name => "unknown flag: --" ++ name
  | .unknownLetter letter letters =>
    "unknown shorthand flag: " ++ Text.quotedPoint letter.toNat ++ " in -" ++ letters
  | .needsArgument argument => "flag needs an argument: " ++ argument
  | .letterNeedsArgument letter letters =>
    "flag needs an argument: " ++ Text.quotedPoint letter.toNat ++ " in -" ++ letters
  | .badValue letter name value cause =>
    "invalid argument " ++ Text.quoted value ++ " for "
      ++ Text.quoted (flagLabel letter name) ++ " flag: " ++ cause.message

def switchOfWord? (word : Text) : Option Bool :=
  let isIn (words : List String) : Bool := words.any (fun known => Text.ofString known == word)
  if isIn ["1", "t", "T", "TRUE", "true", "True"] then some true
  else if isIn ["0", "f", "F", "FALSE", "false", "False"] then some false
  else none

namespace Flag

/-- What a flag makes of its argument. -/
def readValue (flag : Flag) (value : Text) : Except FlagError FlagValue :=
  let bad (cause : ValueError) : FlagError := .badValue flag.letter flag.name value cause
  match flag.kind with
  | .switch =>
    match switchOfWord? value with
    | some on => .ok (.switch on)
    | none => .error (bad (.noSwitch value))
  | .text => .ok (.text value)
  | .texts =>
    if value.isEmpty then .ok (.texts [])
    else (Csv.readRecord value).map .texts |>.mapError (fun cause => bad (.badRecord cause))

end Flag

structure CommandLine where
  given : List (Text × FlagValue)
  arguments : List Text
  deriving DecidableEq, Repr

/-- Reads arguments as flags, and those that are none as they are. -/
abbrev FlagReader := List Flag → List Text → Except FlagError CommandLine

namespace CommandLine

def empty : CommandLine := ⟨[], []⟩

def withFlag (flag : Flag) (value : FlagValue) (line : CommandLine) : CommandLine :=
  { line with given := (flag.name, value) :: line.given }

def withArgument (argument : Text) (line : CommandLine) : CommandLine :=
  { line with arguments := argument :: line.arguments }

/-- Reads joined letters. The value of the last one may stand in the next argument: the answer says
whether it does. -/
def readLetters (flags : List Flag) (next : Option Text) :
    Text → Except FlagError (List (Text × FlagValue) × Bool)
  | [] => .ok ([], false)
  | letter :: rest =>
    if Text.startsWith (letter :: rest) "test." then .ok ([], false)
    else
      match flags.find? (fun flag => flag.letter == some letter) with
      | none => .error (.unknownLetter letter (letter :: rest))
      | some flag =>
        let last (value : Text) (used : Bool) :
            Except FlagError (List (Text × FlagValue) × Bool) := do
          return ([(flag.name, ← flag.readValue value)], used)
        match rest, flag.kind with
        | 61 :: byte :: value, _ => last (byte :: value) false
        | _, .switch => do
            let (others, used) ← readLetters flags next rest
            return ((flag.name, .switch true) :: others, used)
        | [], _ =>
          match next with
          | some value => last value true
          | none => .error (.letterNeedsArgument letter [letter])
        | value, _ => last value false

def read (flags : List Flag) : List Text → Except FlagError CommandLine
  | [] => .ok empty
  | argument :: rest =>
    match argument with
    | 45 :: 45 :: [] => .ok ⟨[], rest⟩
    | 45 :: 45 :: body =>
      let name := body.takeWhile (· != 61)
      if Text.startsWith body "-" || name.isEmpty then .error (.badSyntax argument)
      else
        match flags.find? (fun flag => flag.name == name) with
        | none => .error (.unknown name)
        | some flag =>
          if name.length < body.length then do
            let value ← flag.readValue (body.drop (name.length + 1))
            return (← read flags rest).withFlag flag value
          else if flag.kind = .switch then do
            return (← read flags rest).withFlag flag (.switch true)
          else
            match rest with
            | [] => .error (.needsArgument argument)
            | next :: others => do
                let value ← flag.readValue next
                return (← read flags others).withFlag flag value
    | 45 :: letter :: letters => do
        let (found, used) ← readLetters flags rest.head? (letter :: letters)
        let line ← match rest with
          | [] => .ok empty
          | next :: others => if used then read flags others else read flags (next :: others)
        return { line with given := found ++ line.given }
    | _ => do return (← read flags rest).withArgument argument

/-- The values that a flag was given, in order. -/
def valuesOf (line : CommandLine) (flag : Flag) : List FlagValue :=
  (line.given.filter (fun entry => entry.1 == flag.name)).map (·.2)

def isOn (line : CommandLine) (flag : Flag) : Bool :=
  (line.valuesOf flag).getLast? == some (.switch true)

def textOf (line : CommandLine) (flag : Flag) : Text :=
  match (line.valuesOf flag).getLast? with
  | some (.text value) => value
  | _ => flag.initial

def textsOf (line : CommandLine) (flag : Flag) : List Text :=
  (line.valuesOf flag).flatMap fun
    | .texts values => values
    | _ => []

end CommandLine

/-!
## Help
-/

namespace Flag

def spelling (flag : Flag) : Text :=
  let name := match flag.letter with
    | some letter => "  -" ++ [letter] ++ ", --" ++ flag.name
    | none => "      --" ++ flag.name
  name ++ match flag.kind with
    | .switch => []
    | .text => " string"
    | .texts => " strings"

def helpLines (flags : List Flag) : List Text :=
  let width := flags.foldl (fun width flag => max width flag.spelling.length) 0
  (flags.mergeSort (fun left right => Text.le left.name right.name)).map fun flag =>
    flag.spelling ++ List.replicate (width + 3 - flag.spelling.length) 32 ++ flag.usage
      ++ if flag.initial.isEmpty then []
        else Text.ofString " (default " ++ Text.quoted flag.initial ++ Text.ofString ")"

end Flag

end Covenant
