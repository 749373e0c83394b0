import Covenant.Config
import Covenant.Flag
import Covenant.Report.Schema

/-!
# Commands

A command reads its flags, then its arguments, and then the files it needs. What verifying a package
takes beyond that is a plan for the caller.
-/

set_option autoImplicit false

namespace Covenant

inductive Command where
  | verify
  | schema
  | config
  deriving DecidableEq, Repr

namespace Command

/-!
## Flags and help
-/

def formatFlag : Flag :=
  ⟨"format", none, .text, [], "output format: text or json (default: from config, else text)"⟩

def functionFlag : Flag :=
  ⟨"function", some 102, .texts, [], "verify only these functions (repeatable)"⟩

def configFlag : Flag :=
  ⟨"config", none, .text, [],
    "path to .paranoid.yaml (default: nearest one above the working directory)"⟩

def interactiveFlag : Flag :=
  ⟨"interactive", some 105, .switch, [], "launch interactive TUI for browsing results"⟩

def keepFlag : Flag := ⟨"keep", none, .switch, [], "keep the generated driver directory"⟩

def verboseFlag : Flag := ⟨"verbose", some 118, .switch, [], "log each function as it is tested"⟩

def writeFlag : Flag :=
  ⟨"write", some 119, .switch, [], "write .paranoid.yaml to the working directory"⟩

def forceFlag : Flag := ⟨"force", none, .switch, [], "overwrite an existing .paranoid.yaml"⟩

def name : Command → Text
  | .verify => "verify"
  | .schema => "schema"
  | .config => "config"

def helpFlag (name : Text) : Flag :=
  ⟨"help", some 104, .switch, [], "help for " ++ name⟩

def flags (command : Command) : List Flag :=
  helpFlag command.name :: match command with
    | .verify => [formatFlag, functionFlag, configFlag, interactiveFlag, keepFlag, verboseFlag]
    | .schema => []
    | .config => [writeFlag, forceFlag]

def description : Command → List String
  | .verify =>
    ["Load a Go package, build a temporary driver that imports it, and",
      "call every contract-wrapped function it registers with values",
      "generated from the declared argument types.",
      "",
      "Exit status is 0 when every function executed at least one case,",
      "2 when some function was untested, and 1 on contract failures."]
  | .schema =>
    ["Print the JSON Schema (Draft 2020-12) that documents the",
      "structure of paranoid verify --format=json output. Useful for",
      "validating output or generating client types."]
  | .config => ["Print or write the default .paranoid.yaml"]

def synopsis : Command → String
  | .verify => "  verify [package] [flags]"
  | .schema => "  schema [flags]"
  | .config => "  config [flags]"

def help (command : Command) : Text :=
  let head := command.description ++ ["", "Usage:", command.synopsis, "", "Flags:"]
  (head.map Text.ofString ++ Flag.helpLines command.flags).flatMap (· ++ "\n")

/-!
## Running
-/

inductive CommandFailure where
  | badFlags (cause : FlagError)
  | tooManyArguments (limit given : Nat)
  | unexpectedArgument (argument command : Text)
  | badFormat (format : Text)
  | badConfig (cause : Config.LoadFailure)
  | failed (cause : Failure)

def CommandFailure.message : CommandFailure → Text
  | .badFlags cause => cause.message
  | .tooManyArguments limit given =>
    "accepts at most " ++ Text.ofNat limit ++ " arg(s), received " ++ Text.ofNat given
  | .unexpectedArgument argument command =>
    "unknown command " ++ Text.quoted argument ++ " for " ++ Text.quoted command
  | .badFormat format =>
    "invalid format " ++ Text.quoted format ++ ": must be 'text' or 'json'"
  | .badConfig cause => cause.message
  | .failed cause => cause.message

structure Plan where
  package : Text
  format : Text
  config : Config
  configPath : Text
  functions : List Text
  interactive : Bool
  keep : Bool
  verbose : Bool

inductive Outcome where
  | printed (text : Text) (files : FileTree)
  | planned (plan : Plan)

def noArguments (command : Text) : List Text → Except CommandFailure Unit
  | [] => .ok ()
  | argument :: _ => .error (.unexpectedArgument argument command)

def plan (files : FileTree) (line : CommandLine) : Except CommandFailure Plan := do
  if 1 < line.arguments.length then throw (.tooManyArguments 1 line.arguments.length)
  let format := line.textOf formatFlag
  if !format.isEmpty && format != "text" && format != "json" then
    throw (.badFormat format)
  let (chosen, path) ← (Config.choose files (line.textOf configFlag)).mapError .badConfig
  return { package := line.arguments.headD "."
           format := if format.isEmpty then chosen.format else format
           config := chosen
           configPath := path
           functions := line.textsOf functionFlag
           interactive := line.isOn interactiveFlag
           keep := line.isOn keepFlag
           verbose := line.isOn verboseFlag }

/-- Prints the standard configuration or writes it into a folder. A file that exists is only
overwritten by force. -/
def writeConfig (files : FileTree) (folder : Text) (write force : Bool) :
    Except CommandFailure (Text × FileTree) :=
  let contents := Config.standard.print
  if !write then .ok (contents, files)
  else
    let path := Path.join folder Config.fileName
    let present := (files.stat path).isOk
    if present && !force then
      .ok ("skipped: " ++ path ++ " (already exists, use --force to overwrite)\n", files)
    else
      match files.write path contents with
      | .ok written =>
        .ok (Text.ofString (if present then "overwritten: " else "created: ") ++ path
          ++ "\n", written)
      | .error cause =>
        .error (.failed (.plain ("creating " ++ path ++ ": open "
          ++ path ++ ": " ++ cause.message)))

def run (command : Command) (files : FileTree) (arguments : List Text) :
    Except CommandFailure Outcome := do
  let line ← (CommandLine.read command.flags arguments).mapError .badFlags
  if line.isOn (helpFlag command.name) then return .printed command.help files
  match command with
  | .verify => return .planned (← plan files line)
  | .schema =>
    noArguments command.name line.arguments
    return .printed (Report.schema ++ "\n") files
  | .config =>
    noArguments command.name line.arguments
    let (text, written) ←
      writeConfig files files.workingPath (line.isOn writeFlag) (line.isOn forceFlag)
    return .printed text written

end Command

end Covenant
