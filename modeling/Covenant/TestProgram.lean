import Covenant.FileTree
import Covenant.Text.Quoted

/-!
# Test programs

A package is verified by a small program that imports it and tests every contract it declares. The
program is written into a fresh folder and is told on its command line what to test.
-/

set_option autoImplicit false

namespace Covenant.TestProgram

def source (importPath version : Text) : Text :=
  let version := if version.isEmpty then Text.ofString "dev" else version
  Text.join "\n" ["// Code generated by paranoid " ++ version ++ ". DO NOT EDIT.",
    "", "package main", "", "import (", "\t\"os\"", "",
    "\t\"github.com/unbound-force/paranoid/pkg/autotest\"", "",
    "\t_ " ++ Text.quoted importPath, ")", "", "func main() \x7b",
    "\tos.Exit(autotest.Main(os.Args[1:], os.Stdout, os.Stderr))", "\x7d", ""]

structure Request where
  importPath : Text
  config : Text
  functions : List Text
  verbose : Bool
  deriving DecidableEq, Repr

def Request.arguments (request : Request) : List Text :=
  let config : List Text :=
    if request.config.isEmpty then [] else ["--config", request.config]
  let verbose : List Text := if request.verbose then ["--verbose"] else []
  [Text.ofString "--target", request.importPath] ++ config
    ++ request.functions.flatMap (fun name => [Text.ofString "--function", name]) ++ verbose

def folderStart : Text := "paranoid-driver-"

/-- Writes the program into a folder named with a fresh mark. Gives the path of the folder. -/
def write (files : FileTree) (moduleFolder mark importPath version : Text) :
    Except FileError (Text × FileTree) := do
  let folder := Path.join moduleFolder (folderStart ++ mark)
  let made ← files.makeFolders folder
  let written ← made.write (Path.join folder "main.go") (source importPath version)
  return (folder, written)

end Covenant.TestProgram
