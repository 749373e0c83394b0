import Covenant.Text

/-!
# File trees

A snapshot of folders and files below a root. Paths are followed step by step as a file system does:
each step must start in a folder that exists.
-/

set_option autoImplicit false

namespace Covenant

/-!
## Paths

Paths are texts with slashes between their elements. The operations work on the text alone: an
element `..` cancels the element before it, whatever the file system says.
-/

namespace Path

def isAbsolute (path : Text) : Bool := Text.startsWith path "/"

def elements (path : Text) : List Text := Text.split "/" path

def withoutEnd (path : Text) : Text := (path.reverse.dropWhile (· == 47)).reverse

/-- The last element of a path, `.` where it has none and `/` for the root. -/
def base (path : Text) : Text :=
  if path.isEmpty then "."
  else
    let bare := withoutEnd path
    if bare.isEmpty then "/" else (bare.reverse.takeWhile (· != 47)).reverse

/-- Adds an element to those kept so far, latest first. Where `..` has nothing to cancel it stays,
except at the root. -/
def addElement (rooted : Bool) (done : List Text) (element : Text) : List Text :=
  if element.isEmpty || element == "." then done
  else if element == ".." then
    match done with
    | [] => if rooted then [] else [element]
    | last :: before => if last == ".." then element :: done else before
  else element :: done

/-- The shortest path that leads to the same place by its text alone. -/
def clean (path : Text) : Text :=
  let rooted := isAbsolute path
  let kept := ((elements path).foldl (addElement rooted) []).reverse
  let joined := Text.join "/" kept
  if rooted then "/" ++ joined else if joined.isEmpty then "." else joined

def join (folder path : Text) : Text :=
  if folder.isEmpty && path.isEmpty then []
  else if folder.isEmpty then clean path
  else if path.isEmpty then clean folder
  else clean (folder ++ "/" ++ path)

def parent (path : Text) : Text :=
  clean (path.reverse.dropWhile (· != 47)).reverse

def absolute (working path : Text) : Text :=
  if isAbsolute path then clean path else join working path

/-- A path from the root and those of the folders around it, innermost first. -/
def ancestors (path : Text) : List Text :=
  let names := (elements path).filter (!·.isEmpty)
  ((List.range (names.length + 1)).reverse).map
    (fun count => "/" ++ Text.join "/" (names.take count))

end Path

/-!
## Files and folders
-/

inductive FileError where
  | missing
  | notFolder
  | isFolder
  deriving DecidableEq, Repr

def FileError.message : FileError → Text
  | .missing => "no such file or directory"
  | .notFolder => "not a directory"
  | .isFolder => "is a directory"

inductive FileEntry where
  | file (contents : Text)
  | folder
  deriving DecidableEq, Repr

/-- What stands at each place, given by the elements from the root; the latest entry comes first. -/
structure FileTree where
  entries : List (List Text × FileEntry)
  working : List Text

namespace FileTree

def empty : FileTree := ⟨[], []⟩

def entry? (tree : FileTree) (place : List Text) : Option FileEntry :=
  if place.isEmpty then some .folder else tree.entries.lookup place

/-- Where elements lead from a place. The last one need not exist. -/
def walk (tree : FileTree) (place : List Text) : List Text → Except FileError (List Text)
  | [] => .ok place
  | element :: rest =>
    match tree.entry? place with
    | none => .error .missing
    | some (.file _) => .error .notFolder
    | some .folder =>
      if element.isEmpty || element == "." then tree.walk place rest
      else if element == ".." then tree.walk place.dropLast rest
      else tree.walk (place ++ [element]) rest

def locate (tree : FileTree) (path : Text) : Except FileError (List Text) :=
  if path.isEmpty then .error .missing
  else tree.walk (if Path.isAbsolute path then [] else tree.working) (Path.elements path)

def stat (tree : FileTree) (path : Text) : Except FileError FileEntry := do
  let place ← tree.locate path
  match tree.entry? place with
  | some entry => return entry
  | none => throw .missing

def read (tree : FileTree) (path : Text) : Except FileError Text := do
  match ← tree.stat path with
  | .file contents => return contents
  | .folder => throw .isFolder

def write (tree : FileTree) (path contents : Text) : Except FileError FileTree := do
  let place ← tree.locate path
  if tree.entry? place = some .folder then throw .isFolder
  return { tree with entries := (place, .file contents) :: tree.entries }

/-- Makes the folders along some elements that do not exist yet. -/
def makeFrom (tree : FileTree) (place : List Text) : List Text → Except FileError FileTree
  | [] => .ok tree
  | element :: rest =>
    let next :=
      if element.isEmpty || element == "." then place
      else if element == ".." then place.dropLast
      else place ++ [element]
    match tree.entry? next with
    | some .folder => tree.makeFrom next rest
    | some (.file _) => .error .notFolder
    | none => { tree with entries := (next, .folder) :: tree.entries }.makeFrom next rest

def makeFolders (tree : FileTree) (path : Text) : Except FileError FileTree :=
  tree.makeFrom (if Path.isAbsolute path then [] else tree.working) (Path.elements path)

def enter (tree : FileTree) (path : Text) : Except FileError FileTree := do
  match ← tree.stat path with
  | .folder => return { tree with working := ← tree.locate path }
  | .file _ => throw .notFolder

def workingPath (tree : FileTree) : Text := "/" ++ Text.join "/" tree.working

end FileTree

end Covenant
