import Covenant.Config
import Covenant.Flag
import Covenant.Result.Exchange
import Covenant.TestProgram
import Covenant.Workspace

/-!
# Running a test program

A test program reads its command line, applies its configuration to the global settings, tests the
functions it is asked for, or all that are registered, and prints the results as JSON.
-/

set_option autoImplicit false

namespace Covenant.TestProgram

open Workspace (Session globalStore)
open Contract (defaultRegistry)

def configFlag : Flag :=
  ⟨"config", none, .text, [], "path to a .paranoid.yaml file (default: built-in settings)"⟩

def functionFlag : Flag :=
  ⟨"function", none, .texts, [], "test only these functions (repeatable)"⟩

def targetFlag : Flag :=
  ⟨"target", none, .text, "registry", "name of the tested package, used in the summary line"⟩

def verboseFlag : Flag := ⟨"verbose", some 118, .switch, [], "log each function as it is tested"⟩

def helpFlag : Flag := ⟨"help", some 104, .switch, [], "help for paranoid-driver"⟩

def flags : List Flag := [configFlag, functionFlag, targetFlag, verboseFlag, helpFlag]

def Request.ofCommandLine (line : CommandLine) : Request :=
  ⟨line.textOf targetFlag, line.textOf configFlag, line.textsOf functionFlag,
    line.isOn verboseFlag⟩

def help : Text :=
  let head : List Text :=
    ["Run generated tests on every registered contract", "", "Usage:", "  paranoid-driver [flags]",
      "", "Flags:"]
  (head ++ Flag.helpLines flags).flatMap (· ++ "\n")

structure Exit where
  status : Int
  results : Option (List TestResult)

def select (workspace : Workspace) (names : List Text) : Except Failure (List Nat) :=
  if names.isEmpty then .ok (workspace.registryOf defaultRegistry)
  else names.mapM fun name =>
    match workspace.find? defaultRegistry name with
    | some number => .ok number
    | none =>
      .error (.plain ("function " ++ Text.quoted name ++ " is not registered"))

def Request.serve (request : Request) (files : FileTree) : Session Exit := do
  match Config.load files request.config with
  | .error _ => return ⟨1, none⟩
  | .ok config =>
    let (settings, fault) := config.apply ((← get).settingsOf globalStore)
    Workspace.putSettings globalStore settings
    if fault.isSome then return ⟨1, none⟩
    let names := if request.functions.isEmpty then config.functions else request.functions
    match select (← get) names with
    | .error _ => return ⟨1, none⟩
    | .ok numbers =>
      let results ← Workspace.run numbers false
      return ⟨(Summary.ofResults results).exitStatus, some results⟩

/-- Runs a program whose arguments are read in some way. -/
def runWith (read : FlagReader) (files : FileTree) (arguments : List Text) : Session Exit :=
  match read flags arguments with
  | .error _ => return ⟨1, none⟩
  | .ok line =>
    if line.isOn helpFlag then return ⟨0, none⟩
    else if !line.arguments.isEmpty then return ⟨1, none⟩
    else (Request.ofCommandLine line).serve files

def run : FileTree → List Text → Session Exit := runWith CommandLine.read

def output (exit : Exit) : Text :=
  match exit.results with
  | some results => Exchange.encode results
  | none => []

end Covenant.TestProgram
