import Covenant.FileTree
import Covenant.Settings
import Covenant.Yaml.Printer

/-!
# Configuration

A configuration file gives settings and says how reports are shown. What it leaves out keeps its
standard value; a setting that is explicitly absent leaves a store of settings alone.
-/

set_option autoImplicit false

namespace Covenant

structure Config where
  enabled : Option Bool
  maxRuntime : Option Float
  maxCache : Option Int
  names : Option (List (Yaml.Scalar × Yaml.Datum))
  format : Text
  showPassed : Bool
  functions : List Text

namespace Config

def standard : Config := ⟨some true, some 2.0, some 2, none, "text", true, []⟩

def values (config : Config) : Bindings :=
  let entry (name : String) (value : Option Value) : Bindings :=
    (value.map (fun found => (Text.ofString name, found))).toList
  entry "enabled" (config.enabled.map .ofBool)
    ++ entry "max_runtime" (config.maxRuntime.map .ofFloat)
    ++ entry "max_cache" (config.maxCache.map .ofWord)
    ++ entry "namespace" (config.names.map (fun names => (Yaml.Datum.map true names).toValue))

def apply (config : Config) (settings : Settings) : Settings × Option Failure :=
  settings.setAll config.values

def fault? (config : Config) : Option Failure :=
  if config.format == "text" || config.format == "json" then
    (config.apply .initial).2
  else
    some (.plain ("invalid report format " ++ Text.quoted config.format ++ " (want text or json)"))

/-!
## Reading documents
-/

open Yaml (Node Scalar Reading complain checkKeys readKey)

def boolOfWord? (word : Text) : Option Bool :=
  let isIn (words : List String) : Bool := words.any (fun known => Text.ofString known == word)
  if isIn ["y", "Y", "yes", "Yes", "YES", "on", "On", "ON"] then some true
  else if isIn ["n", "N", "no", "No", "NO", "off", "Off", "OFF"] then some false
  else none

def readBool? : Scalar → Option Bool
  | .bool value => some value
  | .text word => boolOfWord? word
  | _ => none

def readFloat? : Scalar → Option Float
  | .int value => some (Number.ofInt value)
  | .float value => some value
  | _ => none

def readInt? : Scalar → Option Int
  | .int value => if value < 0x8000000000000000 then some value else none
  | .float value => if value ≤ 9223372036854775808.0 then some (Number.toWord value) else none
  | _ => none

/-- Reads a scalar of a type; nothing if it is absent. A misfit is a complaint and keeps the earlier
value. -/
def readScalar {α : Type} (type : String) (read? : Scalar → Option α) (earlier : Option α)
    (node : Node) : Reading (Option α) :=
  match node with
  | .scalar style source _ =>
    if node.isMerge then failure
    else
      match Scalar.of style source with
      | .null => return none
      | scalar =>
        match read? scalar with
        | some value => return some value
        | none => do
            complain (node.misfit type)
            return earlier
  | .sequence .. => do
      complain (node.misfit type)
      return earlier
  | .mapping entries _ => do
      if ← checkKeys entries then complain (node.misfit type)
      return earlier

def readText (node : Node) : Reading (Option Text) :=
  readScalar "string" (fun _ => some node.text) none node

def readTexts (earlier : List Text) (node : Node) : Reading (List Text) :=
  match node with
  | .sequence items _ => do return (← items.mapM readText).filterMap id
  | _ => do return (← readScalar "[]string" (fun _ => none) (some earlier) node).getD []

def readFields {α : Type} (type : String) (set : α → Text → Node → Reading α) (record : α)
    (node : Node) : Reading α :=
  match node with
  | .mapping entries _ => do
      if !(← checkKeys entries) then return record
      else if entries.any (·.1.isMerge) then failure
      else
        entries.foldlM (fun record (key, value) => do
          match ← readKey key with
          | some name => set record name value
          | none => return record) record
  | _ => do return (← readScalar type (fun _ => none) (some record) node).getD record

def readNames (node : Node) : Reading (Option (List (Scalar × Yaml.Datum))) :=
  let type := "map[string]interface \x7b\x7d"
  match node with
  | .mapping .. => some <$> readFields type (fun done name value => do
      match ← Yaml.readDatum value with
      | some datum => return Yaml.setEntry (.text name) datum done
      | none => return done) [] node
  | _ => readScalar type (fun _ => none) none node

def setSetting (config : Config) (name : Text) (node : Node) : Reading Config := do
  if name == "enabled" then
    return { config with enabled := ← readScalar "bool" readBool? config.enabled node }
  else if name == "max_runtime" then
    return { config with maxRuntime := ← readScalar "float64" readFloat? config.maxRuntime node }
  else if name == "max_cache" then
    return { config with maxCache := ← readScalar "int" readInt? config.maxCache node }
  else if name == "namespace" then
    return { config with names := ← readNames node }
  else return config

def setReport (config : Config) (name : Text) (node : Node) : Reading Config := do
  if name == "format" then
    return { config with format := (← readText node).getD config.format }
  else if name == "show_passed" then
    let shown ← readScalar "bool" readBool? none node
    return { config with showPassed := shown.getD config.showPassed }
  else if name == "functions" then
    return { config with functions := ← readTexts config.functions node }
  else return config

def readRoot (node : Node) : Reading Config :=
  readFields "config.Config" (fun config name value =>
    if name == "settings" then readFields "config.Settings" setSetting config value
    else if name == "report" then readFields "config.Report" setReport config value
    else return config) standard node

/-!
## Files
-/

inductive LoadFailure where
  | malformed (path : Text)
  | mistyped (path : Text) (complaints : List Text)
  | failed (failure : Failure)

def LoadFailure.message : LoadFailure → Text
  | .malformed path =>
    "parsing config " ++ Text.quoted path ++ ": yaml: malformed document"
  | .mistyped path complaints =>
    "parsing config " ++ Text.quoted path
      ++ ": yaml: unmarshal errors:\n  " ++ Text.join "\n  " complaints
  | .failed failure => failure.message

def read (path source : Text) : Except LoadFailure Config := do
  let config ← match Yaml.read source with
    | none => throw (.malformed path)
    | some none => pure standard
    | some (some root) =>
      match (readRoot root).run [] with
      | none => throw (.malformed path)
      | some (config, complaints) =>
        if complaints.isEmpty then pure config else throw (.mistyped path complaints)
  match config.fault? with
  | some fault => throw (.failed (.within ("config " ++ Text.quoted path) fault))
  | none => return config

def load (files : FileTree) (path : Text) : Except LoadFailure Config :=
  if path.isEmpty then .ok standard
  else match files.read path with
    | .ok source => read path source
    | .error cause =>
      let step := if cause = .isFolder then "read " else "open "
      .error (.failed (.plain ("reading config " ++ Text.quoted path
        ++ ": " ++ Text.ofString step ++ path ++ ": " ++ cause.message)))

def fileName : Text := ".paranoid.yaml"

/-- The first path at which something stands. Other faults than a missing file end the search. -/
def firstPresent (files : FileTree) : List Text → Except Failure (Option Text)
  | [] => .ok none
  | path :: paths =>
    match files.stat path with
    | .ok _ => .ok (some path)
    | .error .missing => firstPresent files paths
    | .error cause =>
      .error (.plain ("checking " ++ Text.quoted path ++ ": stat "
        ++ path ++ ": " ++ cause.message))

def find (files : FileTree) (folder : Text) : Except Failure (Option Text) :=
  firstPresent files
    ((Path.ancestors (Path.absolute files.workingPath folder)).map (Path.join · fileName))

def choose (files : FileTree) (path : Text) : Except LoadFailure (Config × Text) := do
  let chosen ←
    if path.isEmpty then (find files ".").mapError .failed else pure (some path)
  match chosen with
  | none => return (standard, [])
  | some path =>
    let absolute := Path.absolute files.workingPath path
    return (← load files absolute, absolute)

/-!
## Printing
-/

def sectionLines (name : String) (fields : List (String × Yaml.Datum)) : List Text :=
  match fields with
  | [] => [Text.ofString name ++ ": \x7b\x7d"]
  | _ =>
    (Text.ofString name ++ ":")
      :: fields.flatMap (fun (field, value) =>
        Yaml.entryLines 4 (.text field) (value.print (Yaml.deeper 4)))

def print (config : Config) : Text :=
  let scalar (value : Yaml.Scalar) : Yaml.Datum := .scalar value
  let field (name : String) (value : Option Yaml.Datum) : List (String × Yaml.Datum) :=
    (value.map (fun found => (name, found))).toList
  let settings := field "enabled" (config.enabled.map (fun value => scalar (.bool value)))
    ++ field "max_runtime" (config.maxRuntime.map (fun value => scalar (.float value)))
    ++ field "max_cache" (config.maxCache.map (fun value => scalar (.int value)))
    ++ field "namespace" ((config.names.filter (!·.isEmpty)).map (.map true))
  let functions := if config.functions.isEmpty then none
    else some (Yaml.Datum.list (config.functions.map (fun name => scalar (.text name))))
  let report := field "format" (some (scalar (.text config.format)))
    ++ field "show_passed" (some (scalar (.bool config.showPassed)))
    ++ field "functions" functions
  let comment : Text :=
    "# paranoid configuration. max_runtime is in seconds; 0 disables the limit."
  (comment :: sectionLines "settings" settings ++ sectionLines "report" report).flatMap
    (· ++ "\n")

end Config

end Covenant
