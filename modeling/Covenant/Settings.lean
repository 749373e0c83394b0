import Covenant.Failure

/-!
# Settings

Whether contracts are checked, how long a generated case may run, how many calls are remembered, and
which names conditions see besides the arguments. A value is checked when it is assigned. A function
may override settings with an overlay, which wins.
-/

set_option autoImplicit false

namespace Covenant

/-- An assignment that is accepted, with what it assigns. -/
inductive Setting where
  | enabled (value : Bool)
  | maxRuntime (seconds : Float)
  | maxCache (count : Int)
  | namespace (names : Option Bindings)

namespace Value

def plainWord? : Value → Option Int
  | .int type number => if type = .wordInt then some number else none
  | _ => none

def plainDouble? : Value → Option Float
  | .float type number => if type = .double then some number else none
  | _ => none

def text? : Value → Option Text
  | .text _ bytes => some bytes
  | _ => none

/-- The entries of a plain table of names, which may be absent. -/
def plainNames? : Value → Option Bindings
  | .absent type => if type = .namedValues then some [] else none
  | .dict type _ entries =>
    if type = .namedValues then
      some (entries.filterMap (fun entry => entry.1.text?.map (·, entry.2)))
    else none
  | _ => none

end Value

namespace Setting

def names : List Text := ["enabled", "max_cache", "max_runtime", "namespace"]

def name : Setting → Text
  | .enabled _ => "enabled"
  | .maxRuntime _ => "max_runtime"
  | .maxCache _ => "max_cache"
  | .namespace _ => "namespace"

def namesValue : Option Bindings → Value
  | none => .absent .namedValues
  | some names => .dict .namedValues 0 (names.map (fun (name, value) => (.ofText name, value)))

/-- The form in which a setting is stored. -/
def value : Setting → Value
  | .enabled on => .ofBool on
  | .maxRuntime seconds => .ofFloat seconds
  | .maxCache count => .ofWord count
  | .namespace names => namesValue names

/-- Seconds, from a duration or from a number that is finite and not negative. -/
def readRuntime? : Value → Option Float
  | .int type count =>
    if type = .duration then
      if count < 0 then none
      else
        some (Number.ofInt (count.tdiv 1000000000)
          + Number.ofInt (count.tmod 1000000000) / 1000000000.0)
    else if count < 0 then none else some (Number.ofInt count)
  | .float _ seconds => if seconds.isFinite && !(seconds < 0.0) then some seconds else none
  | _ => none

def readCache? : Value → Option Int
  | .int _ count => if count < 0 then none else some (IntKind.int.wrap count)
  | _ => none

/-- A copy of any table with texts as keys. Only a plain one can stay absent. -/
def readNames? (value : Value) : Option (Option Bindings) :=
  match value with
  | .absent type =>
    if type = .namedValues then some none
    else match type.underlying with
      | .map key _ => if key.isText then some (some []) else none
      | _ => none
  | .dict type _ entries =>
    if type.key.isText then
      some (some (entries.filterMap fun
        | (.text _ name, value) => some (name, value)
        | _ => none))
    else none
  | _ => none

def read (name : Text) (value : Value) : Except Failure Setting :=
  let checked (result : Option Setting) : Except Failure Setting :=
    result.elim (.error (.invalidSetting name value)) .ok
  if name == "enabled" then checked (value.plainBool?.map .enabled)
  else if name == "max_runtime" then checked ((readRuntime? value).map .maxRuntime)
  else if name == "max_cache" then checked ((readCache? value).map .maxCache)
  else if name == "namespace" then checked ((readNames? value).map .namespace)
  else .error (.unknownSetting name)

end Setting

/-!
## Values by name
-/

/-- Values by name. Each is in the form in which a setting of that name is stored. -/
@[ext]
structure Overlay where
  find? : Text → Option Value
  stored : ∀ {name value}, find? name = some value →
    ∃ setting : Setting, setting.name = name ∧ setting.value = value

namespace Overlay

def empty : Overlay := ⟨fun _ => none, nofun⟩

instance : Inhabited Overlay := ⟨empty⟩

def assign (overlay : Overlay) (setting : Setting) : Overlay where
  find? name := if name = setting.name then some setting.value else overlay.find? name
  stored {name value} found := by
    split at found
    · next same => exact ⟨setting, same.symm, Option.some.inj found⟩
    · exact overlay.stored found

def set (overlay : Overlay) (name : Text) (value : Value) : Except Failure Overlay :=
  overlay.assign <$> Setting.read name value

def values (overlay : Overlay) : Bindings :=
  Setting.names.filterMap (fun name => (overlay.find? name).map (name, ·))

end Overlay

/-- The values of a store, which has one for every setting. -/
structure Settings extends Overlay where
  complete : ∀ name ∈ Setting.names, (find? name).isSome

namespace Settings

def initial : Settings where
  toOverlay := (((Overlay.empty.assign (.enabled true)).assign (.maxRuntime 2.0)).assign
    (.maxCache 2)).assign (.namespace (some []))
  complete := by decide

def assign (settings : Settings) (setting : Setting) : Settings where
  toOverlay := settings.toOverlay.assign setting
  complete name known := by
    dsimp only [Overlay.assign]
    split
    · rfl
    · exact settings.complete name known

def set (settings : Settings) (name : Text) (value : Value) : Except Failure Settings :=
  settings.assign <$> Setting.read name value

def setInOrder (settings : Settings) : Bindings → Settings × Option Failure
  | [] => (settings, none)
  | (name, value) :: rest =>
    match settings.set name value with
    | .ok changed => changed.setInOrder rest
    | .error failure => (settings, some failure)

/-- Assigns by ascending name, up to the first value that is refused. -/
def setAll (settings : Settings) (values : Bindings) : Settings × Option Failure :=
  settings.setInOrder values.sorted

def get (settings : Settings) (name : Text) : Except Failure Value :=
  (settings.find? name).elim (.error (.unknownSetting name)) .ok

def overridden (settings : Settings) (overlay : Overlay) : Settings where
  find? name := (overlay.find? name).or (settings.find? name)
  stored {name value} found := by
    rcases Option.or_eq_some_iff.mp found with found | ⟨_, found⟩
    · exact overlay.stored found
    · exact settings.stored found
  complete name known := by rw [Option.isSome_or, settings.complete name known, Bool.or_true]

end Settings

/-!
## The settings of a call
-/

structure Snapshot where
  enabled : Bool
  maxRuntime : Int
  maxCache : Int
  names : Bindings

/-- The settings of a call from values by name. Each value has to be of the type that its setting
has. -/
def Snapshot.ofValues? (values : Text → Option Value) : Option Snapshot := do
  let enabled ← (values "enabled").bind Value.plainBool?
  let seconds ← (values "max_runtime").bind Value.plainDouble?
  let count ← (values "max_cache").bind Value.plainWord?
  let names ← (values "namespace").bind Value.plainNames?
  return ⟨enabled, Number.toWord (seconds * 1000000000.0), count, names⟩

namespace Settings

/-- A store answers to whatever reads every form in which one of its settings is stored. -/
theorem exists_bind_eq_some {α : Type} (settings : Settings) {name : Text}
    (known : name ∈ Setting.names) {read? : Value → Option α}
    (reads : ∀ setting : Setting, setting.name = name → (read? setting.value).isSome) :
    ∃ found, (settings.find? name).bind read? = some found := by
  obtain ⟨value, found⟩ := Option.isSome_iff_exists.mp (settings.complete name known)
  obtain ⟨setting, same, rfl⟩ := settings.stored found
  obtain ⟨read, isRead⟩ := Option.isSome_iff_exists.mp (reads setting same)
  exact ⟨read, by rw [found, Option.bind_some, isRead]⟩

/-- Every value of a store has the type of its setting. -/
theorem isSome_ofValues? (settings : Settings) :
    (Snapshot.ofValues? settings.find?).isSome := by
  have enabled : ∃ on, (settings.find? "enabled").bind Value.plainBool? = some on := by
    refine settings.exists_bind_eq_some (by decide) fun setting same => ?_
    cases setting with
    | enabled on => rfl
    | maxRuntime | maxCache | «namespace» => simp +decide [Setting.name] at same
  have runtime : ∃ seconds, (settings.find? "max_runtime").bind Value.plainDouble? =
      some seconds := by
    refine settings.exists_bind_eq_some (by decide) fun setting same => ?_
    cases setting with
    | maxRuntime seconds => rfl
    | enabled | maxCache | «namespace» => simp +decide [Setting.name] at same
  have cache : ∃ count, (settings.find? "max_cache").bind Value.plainWord? = some count := by
    refine settings.exists_bind_eq_some (by decide) fun setting same => ?_
    cases setting with
    | maxCache count => rfl
    | enabled | maxRuntime | «namespace» => simp +decide [Setting.name] at same
  have names : ∃ names, (settings.find? "namespace").bind Value.plainNames? = some names := by
    refine settings.exists_bind_eq_some (by decide) fun setting same => ?_
    cases setting with
    | «namespace» names => cases names <;> rfl
    | enabled | maxRuntime | maxCache => simp +decide [Setting.name] at same
  obtain ⟨on, enabled⟩ := enabled
  obtain ⟨seconds, runtime⟩ := runtime
  obtain ⟨count, cache⟩ := cache
  obtain ⟨names, namespaces⟩ := names
  simp only [Snapshot.ofValues?, enabled, runtime, cache, namespaces]
  rfl

/-- The overlay wins. -/
def resolve (settings : Settings) (overlay : Overlay) : Snapshot :=
  (Snapshot.ofValues? (settings.overridden overlay).find?).get (isSome_ofValues? _)

end Settings

end Covenant
