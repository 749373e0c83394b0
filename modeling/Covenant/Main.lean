import Covenant.Command

/-!
# The command line

Reads the files that a command may need, runs the command, and writes what it changed.
-/

set_option autoImplicit false

namespace Covenant.CommandLine

def toSystem (text : Text) : String := (String.fromUTF8? ⟨text.toArray⟩).getD ""

def addFile (files : FileTree) (path : Text) : IO FileTree := do
  try
    let contents ← IO.FS.readBinFile (toSystem path)
    let placed := do (← files.makeFolders (Path.parent path)).write path contents.data.toList
    return placed.toOption.getD files
  catch _ => return files

/-- The working folder with the files that the arguments of a command name and the configuration
files above that folder. -/
def snapshot (working : Text) (arguments : List Text) : IO FileTree := do
  let folders := ((FileTree.empty.makeFolders working).bind (·.enter working)).toOption.getD .empty
  let wanted := (Path.ancestors working).map (Path.join · Config.fileName)
    ++ arguments.map (Path.absolute working)
  wanted.foldlM addFile folders

def printTo (stream : IO.FS.Stream) (text : Text) : IO Unit := stream.write ⟨text.toArray⟩

def execute (command : Command) (arguments : List Text) : IO UInt32 := do
  let working := Text.ofString (← IO.currentDir).toString
  let files ← snapshot working arguments
  let errors ← IO.getStderr
  match command.run files arguments with
  | .error failure =>
    printTo errors (failure.message ++ "\n")
    return 1
  | .ok (.planned plan) =>
    printTo errors ("no loader for package " ++ Text.quoted plan.package ++ "\n")
    return 1
  | .ok (.printed text changed) =>
    let path := Path.join working Config.fileName
    match changed.read path, files.read path with
    | .ok contents, .error _ => IO.FS.writeBinFile (toSystem path) ⟨contents.toArray⟩
    | .ok contents, .ok earlier =>
      if contents != earlier then IO.FS.writeBinFile (toSystem path) ⟨contents.toArray⟩
    | _, _ => pure ()
    printTo (← IO.getStdout) text
    return 0

end Covenant.CommandLine

def main (arguments : List String) : IO UInt32 := do
  let rest := arguments.tail.map Covenant.Text.ofString
  match arguments.head? with
  | some "verify" => Covenant.CommandLine.execute .verify rest
  | some "schema" => Covenant.CommandLine.execute .schema rest
  | some "config" => Covenant.CommandLine.execute .config rest
  | _ =>
    IO.eprintln "usage: paranoid verify|schema|config [flags]"
    return 1
