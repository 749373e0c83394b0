import Covenant.FileTree
import Covenant.Location
import Covenant.Result

/-!
# Cyclomatic complexity

A function is looked up by its exact position, then by the base name of its file with the line, and
then by its name. Functions in test files and, on request, in generated files are left out.
-/

set_option autoImplicit false

namespace Covenant.Complexity

structure Measurement where
  package : Text
  function : Text
  complexity : Int
  location : Location

def plainName (name : Text) : Text :=
  match name with
  | 40 :: rest =>
    if Text.startsWith rest "*" then name
    else match Text.find? ")." rest with
      | some position => rest.take position ++ rest.drop (position + 1)
      | none => name
  | _ => name

/-!
## Generated files
-/

def longestLine : Nat := 65535

def isMark (line : Text) : Bool :=
  let start := Text.ofString "// Code generated "
  let finish := Text.ofString " DO NOT EDIT."
  start.length + finish.length ≤ line.length && Text.startsWith line start
    && Text.endsWith line finish

def hasMark : List Text → Bool
  | [] => false
  | line :: rest =>
    if longestLine < line.length then false
    else
      let trimmed := Text.trim line
      if Text.startsWith trimmed "package " then false
      else isMark trimmed || hasMark rest

def isGenerated (files : FileTree) (path : Text) : Bool :=
  match files.read path with
  | .ok contents => hasMark (Text.split "\n" contents)
  | .error _ => false

/-!
## The index
-/

/-- Complexities by exact position, by base name and line, and by name. The latest entry for a key
stands first. -/
structure Index where
  exact : List (Location × Int)
  byBase : List (Location × Int)
  byName : List (Text × Int)

namespace Index

def empty : Index := ⟨[], [], []⟩

def baseOf (location : Location) : Location := ⟨Path.base location.file, location.line⟩

def add (index : Index) (measurement : Measurement) : Index :=
  let value := measurement.complexity
  let name := measurement.package ++ "." ++ plainName measurement.function
  { exact := (measurement.location, value) :: index.exact
    byBase := (baseOf measurement.location, value) :: index.byBase
    byName := (name, value) :: index.byName }

def admits (files : FileTree) (ignoreGenerated : Bool) (measurement : Measurement) : Bool :=
  !Text.endsWith measurement.location.file "_test.go"
    && !(ignoreGenerated && isGenerated files measurement.location.file)

def ofMeasurements (files : FileTree) (ignoreGenerated : Bool) (measurements : List Measurement) :
    Index :=
  (measurements.filter (admits files ignoreGenerated)).foldl add empty

def size (index : Index) : Nat := (index.exact.map (·.1)).eraseDups.length

def find? (index : Index) (location : Location) (name : Text) : Option Int :=
  (index.exact.lookup location).or <| (index.byBase.lookup (baseOf location)).or <|
    index.byName.lookup name

/-- Annotates the results whose functions are known, and counts them. A location that cannot be read
leaves the file, or nothing, to be looked up. -/
def annotateAll (index : Index) : List TestResult → List TestResult × Nat
  | [] => ([], 0)
  | result :: results =>
    let location := (Location.split result.target.location).1
    let (annotated, count) := index.annotateAll results
    match index.find? location result.target.function with
    | some complexity => ({ result with complexity := complexity } :: annotated, count + 1)
    | none => (result :: annotated, count)

end Index

end Covenant.Complexity
