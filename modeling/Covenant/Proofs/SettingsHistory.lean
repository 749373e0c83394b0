import Covenant.Proofs.Accumulation
import Covenant.Proofs.Order
import Mathlib.Logic.Function.Basic

/-!
# Where the settings of a call come from

After any assignments each setting of a call is the last value that its overlay accepted, or else
the last one that its store accepted since it was reset, or else the value before any assignment.
-/

set_option autoImplicit false

namespace Covenant

open List

open Stateful

/-!
## Values by name
-/

namespace Settings

theorem toOption_get (settings : Settings) (name : Text) :
    (settings.get name).toOption = settings.find? name := by
  unfold get
  cases settings.find? name <;> rfl

theorem toOverlay_foldl_assign (made : List Setting) (settings : Settings) :
    (made.foldl assign settings).toOverlay = made.foldl Overlay.assign settings.toOverlay := by
  induction made generalizing settings with
  | nil => rfl
  | cons setting made ih => exact ih (settings.assign setting)

theorem ofValues?_resolve (settings : Settings) (overlay : Overlay) :
    Snapshot.ofValues? (fun name => (overlay.find? name).or (settings.find? name)) =
      some (settings.resolve overlay) :=
  (Option.some_get _).symm

end Settings

/-!
## Attempts
-/

namespace Setting

def accepted? (attempt : Text × Value) : Option Setting := (read attempt.1 attempt.2).toOption

def refusal? (attempt : Text × Value) : Option Failure :=
  match read attempt.1 attempt.2 with
  | .ok _ => none
  | .error failure => some failure

/-- The value that the last accepted attempt to assign a setting left. -/
def latest? (name : Text) (attempts : Bindings) : Option Value :=
  ((attempts.filterMap accepted?).filter (fun setting => setting.name == name)).getLast?.map value

theorem read_cases (attempt : Text × Value) :
    (∃ setting, read attempt.1 attempt.2 = .ok setting ∧ accepted? attempt = some setting ∧
      refusal? attempt = none) ∨
    ∃ failure, read attempt.1 attempt.2 = .error failure ∧ accepted? attempt = none ∧
      refusal? attempt = some failure := by
  unfold accepted? refusal?
  cases read attempt.1 attempt.2 with
  | ok setting => exact .inl ⟨setting, rfl, rfl, rfl⟩
  | error failure => exact .inr ⟨failure, rfl, rfl, rfl⟩

section

variable {σ : Type} (assign : σ → Setting → σ) (state : σ) {attempt : Text × Value}
  {attempts : Bindings}

/-- What attempts make of a state in which settings can be assigned. -/
def tried (attempts : Bindings) : σ := (attempts.filterMap accepted?).foldl assign state

theorem tried_append (attempts others : Bindings) :
    tried assign state (attempts ++ others) =
      tried assign (tried assign state attempts) others := by
  rw [tried, tried, tried, filterMap_append, foldl_append]

theorem tried_refused {failure : Failure} (refused : refusal? attempt = some failure) :
    tried assign state [attempt] = state := by
  rcases read_cases attempt with ⟨setting, _, _, noRefusal⟩ | ⟨_, _, unaccepted, _⟩
  · rw [noRefusal] at refused
    cases refused
  · rw [tried, filterMap_cons_none unaccepted]
    rfl

theorem map_read (attempt : Text × Value) :
    assign state <$> read attempt.1 attempt.2 =
      (refusal? attempt).elim (.ok (tried assign state [attempt])) .error := by
  rcases read_cases attempt with
    ⟨setting, read, accepted, noRefusal⟩ | ⟨failure, read, _, refused⟩
  · rw [read, noRefusal, tried, filterMap_cons_some accepted]
    rfl
  · rw [read, refused]
    rfl

end

end Setting

/-- Assigning several values tries those before the first that is refused, and fails for that
one. -/
theorem Settings.setInOrder_eq (settings : Settings) (entries : Bindings) :
    settings.setInOrder entries =
      (Setting.tried assign settings
        (entries.takeWhile (fun entry => (Setting.refusal? entry).isNone)),
        entries.findSome? Setting.refusal?) := by
  induction entries generalizing settings with
  | nil => rfl
  | cons entry entries ih =>
    have assigned : settings.set entry.1 entry.2 = _ := Setting.map_read assign settings entry
    cases refusal : Setting.refusal? entry with
    | none =>
      rw [refusal] at assigned
      rw [setInOrder, assigned]
      dsimp only [Option.elim]
      rw [ih, takeWhile_cons_of_pos (by simp [refusal]), List.findSome?_cons, refusal,
        ← Setting.tried_append]
      rfl
    | some failure =>
      rw [refusal] at assigned
      rw [setInOrder, assigned]
      dsimp only [Option.elim]
      rw [takeWhile_cons_of_neg (by simp [refusal]), List.findSome?_cons, refusal]
      rfl

/-!
## Changes
-/

namespace Workspace

/-- A change of the settings of a store or of an overlay. -/
inductive SettingsChange where
  | set (store name : Text) (value : Value)
  | setAll (store : Text) (values : Bindings)
  | reset (store : Text)
  | extend (id origin name : Text) (value : Value)

def SettingsChange.perform : SettingsChange → Session Unit
  | .set store name value => Workspace.set store name value
  | .setAll store values => Workspace.setAll store values
  | .reset store => putSettings store .initial
  | .extend id origin name value => (fun _ => ()) <$> Workspace.overlay id origin name value

def afterChanges (workspace : Workspace) (changes : List SettingsChange) : Workspace :=
  changes.foldl (fun reached change => (change.perform.run reached).2) workspace

/-- What has been tried: on each store since it was last reset, and on the way to each overlay. -/
structure Attempts where
  stores : Text → Bindings
  overlays : Text → Bindings

namespace Attempts

def initial : Attempts := ⟨fun _ => [], fun _ => []⟩

/-- A bulk assignment tries its entries by ascending name up to the first that is refused. -/
def after (memory : Memory) (attempts : Attempts) : SettingsChange → Attempts
  | .set store name value =>
    { attempts with
      stores := Function.update attempts.stores store
        (attempts.stores store ++ [(name, memory.view value)]) }
  | .setAll store values =>
    let present : Bindings := values.map (fun (name, value) => (name, memory.view value))
    { attempts with
      stores := Function.update attempts.stores store (attempts.stores store ++
        present.sorted.takeWhile (fun entry => (Setting.refusal? entry).isNone)) }
  | .reset store => { attempts with stores := Function.update attempts.stores store [] }
  | .extend id origin name value =>
    { attempts with
      overlays := Function.update attempts.overlays id
        (attempts.overlays origin ++ [(name, memory.view value)]) }

end Attempts

section

variable (workspace : Workspace)

def withSettings (store : Text) (settings : Settings) : Workspace :=
  { workspace with stores := put store settings workspace.stores }

def withOverlay (id : Text) (overlay : Overlay) : Workspace :=
  { workspace with overlays := put id overlay workspace.overlays }

theorem settingsOf_withSettings (store : Text) (settings : Settings) (other : Text) :
    (workspace.withSettings store settings).settingsOf other =
      if other = store then settings else workspace.settingsOf other := by
  rw [settingsOf, withSettings, lookup_put]
  split <;> rfl

theorem overlayOf_withOverlay (id : Text) (overlay : Overlay) (other : Text) :
    (workspace.withOverlay id overlay).overlayOf other =
      if other = id then overlay else workspace.overlayOf other := by
  rw [overlayOf, withOverlay, lookup_put]
  split <;> rfl

theorem set_run (store name : Text) (value : Value) :
    (Workspace.set store name value).run workspace =
      (Setting.refusal? (name, workspace.memory.view value)).elim
        (.ok (), workspace.withSettings store (Setting.tried Settings.assign
          (workspace.settingsOf store) [(name, workspace.memory.view value)]))
        (fun failure => (.error failure, workspace)) := by
  have assigned : (workspace.settingsOf store).set name (workspace.memory.view value) = _ :=
    Setting.map_read Settings.assign (workspace.settingsOf store)
      (name, workspace.memory.view value)
  simp only [Workspace.set]
  rw [run_bind_of_ok (run_get workspace), assigned]
  cases Setting.refusal? (name, workspace.memory.view value) <;> rfl

theorem setAll_run (store : Text) (values : Bindings) :
    let present : Bindings :=
      values.map (fun (name, value) => (name, workspace.memory.view value))
    (Workspace.setAll store values).run workspace =
      ((present.sorted.findSome? Setting.refusal?).elim (.ok ()) .error,
        workspace.withSettings store (Setting.tried Settings.assign (workspace.settingsOf store)
          (present.sorted.takeWhile (fun entry => (Setting.refusal? entry).isNone)))) := by
  intro present
  simp only [Workspace.setAll]
  rw [run_bind_of_ok (run_get workspace), Settings.setAll, Settings.setInOrder_eq]
  dsimp only [putSettings]
  rw [run_bind_of_ok (run_modify _ _)]
  cases present.sorted.findSome? Setting.refusal? <;> rfl

theorem overlay_run (id origin name : Text) (value : Value) :
    (Workspace.overlay id origin name value).run workspace =
      let extended := Setting.tried Overlay.assign (workspace.overlayOf origin)
        [(name, workspace.memory.view value)]
      (.ok (Setting.refusal? (name, workspace.memory.view value), extended),
        workspace.withOverlay id extended) := by
  have assigned : ((workspace.overlays.lookup origin).getD .empty).set name
      (workspace.memory.view value) = _ :=
    Setting.map_read Overlay.assign (workspace.overlayOf origin)
      (name, workspace.memory.view value)
  simp only [Workspace.overlay]
  rw [run_bind_of_ok (run_get workspace), assigned]
  cases refusal : Setting.refusal? (name, workspace.memory.view value) with
  | none => rfl
  | some failure =>
    rw [Setting.tried_refused Overlay.assign _ refusal]
    rfl

end

namespace Attempts

/-- The stores and overlays of a workspace are what the attempts made of them. -/
structure Explain (attempts : Attempts) (workspace : Workspace) : Prop where
  stores : ∀ store, workspace.settingsOf store =
    Setting.tried Settings.assign .initial (attempts.stores store)
  overlays : ∀ id, workspace.overlayOf id =
    Setting.tried Overlay.assign .empty (attempts.overlays id)

theorem Explain.step {attempts : Attempts} {workspace : Workspace}
    (explain : attempts.Explain workspace) (change : SettingsChange) :
    (attempts.after workspace.memory change).Explain (change.perform.run workspace).2 := by
  obtain ⟨stores, overlays⟩ := explain
  -- Whatever a store is given, the other stores and the overlays are explained as before.
  have store {store : Text} {settings : Settings} {tries : Bindings}
      (made : settings = Setting.tried Settings.assign .initial tries) :
      Explain { attempts with stores := Function.update attempts.stores store tries }
        (workspace.withSettings store settings) := by
    refine ⟨fun other => ?_, overlays⟩
    rw [settingsOf_withSettings]
    dsimp only
    rw [Function.update_apply]
    split
    · exact made
    · exact stores other
  cases change with
  | set name label value =>
    rw [SettingsChange.perform, set_run]
    cases refusal : Setting.refusal? (label, workspace.memory.view value) with
    | none =>
      apply store
      rw [Setting.tried_append, stores]
    | some failure =>
      refine ⟨fun other => (stores other).trans ?_, overlays⟩
      rw [after]
      dsimp only
      rw [Function.update_apply]
      split
      · next same =>
        rw [Setting.tried_append, Setting.tried_refused _ _ refusal, same]
      · rfl
  | setAll name values =>
    simp only [SettingsChange.perform, setAll_run]
    apply store
    rw [Setting.tried_append, stores]
  | reset name => exact store rfl
  | extend id origin label value =>
    rw [SettingsChange.perform, run_map, overlay_run]
    refine ⟨stores, fun other => ?_⟩
    rw [overlayOf_withOverlay, after]
    dsimp only
    rw [Function.update_apply]
    split
    · rw [Setting.tried_append, overlays]
    · exact overlays other

end Attempts

theorem memory_perform (change : SettingsChange) (workspace : Workspace) :
    (change.perform.run workspace).2.memory = workspace.memory := by
  cases change with
  | set name label value =>
    rw [SettingsChange.perform, set_run]
    cases Setting.refusal? (label, workspace.memory.view value) <;> rfl
  | setAll name values =>
    simp only [SettingsChange.perform, setAll_run]
    rfl
  | reset name => rfl
  | extend id origin label value =>
    rw [SettingsChange.perform, run_map, overlay_run]
    rfl

theorem memory_afterChanges (workspace : Workspace) (changes : List SettingsChange) :
    (workspace.afterChanges changes).memory = workspace.memory := by
  induction changes generalizing workspace with
  | nil => rfl
  | cons change changes ih => exact (ih _).trans (memory_perform change workspace)

namespace Attempts

theorem Explain.run {attempts : Attempts} {workspace : Workspace}
    (explain : attempts.Explain workspace) (changes : List SettingsChange) :
    (changes.foldl (after workspace.memory) attempts).Explain (workspace.afterChanges changes) := by
  induction changes generalizing attempts workspace with
  | nil => exact explain
  | cons change changes ih =>
    have rest := ih (explain.step change)
    rw [memory_perform] at rest
    exact rest

theorem Explain.resolve {attempts : Attempts} {workspace : Workspace}
    (explain : attempts.Explain workspace) (store overlay : Text) :
    Snapshot.ofValues? (fun name =>
        ((Setting.latest? name (attempts.overlays overlay)).or
          (Setting.latest? name (attempts.stores store))).or
          (Settings.initial.get name).toOption) =
      some ((workspace.settingsOf store).resolve (workspace.overlayOf overlay)) := by
  rw [← Settings.ofValues?_resolve]
  congr 1
  funext name
  have nothing : Overlay.empty.find? name = none := rfl
  rw [explain.stores, explain.overlays, Setting.tried, Setting.tried,
    Settings.toOverlay_foldl_assign, Overlay.find?_foldl_assign, Overlay.find?_foldl_assign,
    nothing, Option.or_none, Option.or_assoc, Settings.toOption_get]
  rfl

theorem explain_initial (workspace : Workspace) :
    initial.Explain { workspace with stores := [], overlays := [] } :=
  ⟨fun _ => rfl, fun _ => rfl⟩

end Attempts

/-- After any changes of stores and overlays, the settings of a call are those values: the last one
that its overlay accepted, or else the last one that its store accepted since it was reset, or else
the one before any assignment. Each has the type of its setting. A refused assignment changes
nothing, and a refused extension gives the overlay that was extended. A bulk assignment assigns the
entries before the first that is refused, by ascending name. Extending an overlay changes no other
one and no store. -/
theorem settings_come_from_last_accepted (workspace : Workspace) (changes : List SettingsChange) :
    let fresh : Workspace := { workspace with stores := [], overlays := [] }
    let reached := fresh.afterChanges changes
    let attempts := changes.foldl (Attempts.after workspace.memory) .initial
    (∀ store overlay : Text,
      Snapshot.ofValues? (fun name =>
          ((Setting.latest? name (attempts.overlays overlay)).or
            (Setting.latest? name (attempts.stores store))).or
            (Settings.initial.get name).toOption) =
        some ((reached.settingsOf store).resolve (reached.overlayOf overlay))) ∧
    (∀ (store name : Text) (value : Value) (failure : Failure) (after : Workspace),
      (Workspace.set store name value).run reached = (.error failure, after) → after = reached) ∧
    (∀ (store : Text) (values : Bindings),
      let present : Bindings :=
        values.map (fun (name, value) => (name, workspace.memory.view value))
      let entries := present.sorted
      entries.Perm present ∧
      entries.Pairwise (fun one other => Text.le one.1 other.1 = true) ∧
      (Workspace.setAll store values).run reached =
        ((entries.findSome? Setting.refusal?).elim (.ok ()) .error,
          reached.withSettings store (Setting.tried Settings.assign (reached.settingsOf store)
            (entries.takeWhile (fun entry => (Setting.refusal? entry).isNone))))) ∧
    ∀ (id origin name : Text) (value : Value), ∃ refusal result after,
      (Workspace.overlay id origin name value).run reached = (.ok (refusal, result), after) ∧
      after.overlayOf id = result ∧
      (∀ failure, refusal = some failure → result = reached.overlayOf origin) ∧
      (∀ other, other ≠ id → after.overlayOf other = reached.overlayOf other) ∧
      ∀ store, after.settingsOf store = reached.settingsOf store := by
  intro fresh reached attempts
  have explain : attempts.Explain reached := (Attempts.explain_initial workspace).run changes
  have memory : reached.memory = workspace.memory := memory_afterChanges fresh changes
  refine ⟨explain.resolve, ?_, ?_, ?_⟩
  · intro store name value failure after refused
    rw [set_run] at refused
    cases refusal : Setting.refusal? (name, reached.memory.view value) with
    | none =>
      rw [refusal] at refused
      cases refused
    | some failure =>
      rw [refusal] at refused
      exact (congrArg Prod.snd refused).symm
  · intro store values present entries
    have ran := setAll_run reached store values
    rw [memory] at ran
    exact ⟨Bindings.sorted_perm present, Bindings.sorted_pairwise present, ran⟩
  · intro id origin name value
    refine ⟨_, _, _, overlay_run reached id origin name value, ?_, ?_, ?_, fun store => rfl⟩
    · rw [overlayOf_withOverlay, if_pos rfl]
    · intro failure refused
      exact Setting.tried_refused _ _ refused
    · intro other different
      rw [overlayOf_withOverlay, if_neg different]

/-- A store that refuses two assignments, one that is reset, and overlays that extend each other;
the last of them refuses a value. -/
def sampleChanges : List SettingsChange :=
  [.set "global" "max_cache" (.ofWord 5), .set "global" "max_cache" (.ofWord (-1)),
    .set "global" "color" (.ofWord 1), .set "quiet" "enabled" (.ofBool false), .reset "quiet",
    .setAll "quiet" [("max_cache", .int (.int .uint16) 9)],
    .extend "first" "" "enabled" (.ofBool false),
    .extend "second" "first" "max_cache" (.int (.int .uint8) 7),
    .extend "third" "second" "max_cache" (.ofText "many")]

theorem settings_come_from_last_accepted_sample :
    let reached := (initial Sample.host).afterChanges sampleChanges
    ((reached.settingsOf "global").resolve (reached.overlayOf "first")).maxCache = 5 ∧
    ((reached.settingsOf "quiet").resolve (reached.overlayOf "first")).maxCache = 9 ∧
    ((reached.settingsOf "quiet").resolve (reached.overlayOf "third")).maxCache = 7 ∧
    ((reached.settingsOf "quiet").resolve (reached.overlayOf "third")).enabled = false ∧
    ((reached.settingsOf "quiet").resolve (reached.overlayOf "fourth")).enabled = true ∧
    (Workspace.set "quiet" "max_cache" (.ofWord (-1))).run reached =
      (.error (.invalidSetting "max_cache" (.ofWord (-1))), reached) := by
  intro reached
  have refused : ((Workspace.set "quiet" "max_cache" (.ofWord (-1))).run reached).1 =
      .error (.invalidSetting "max_cache" (.ofWord (-1))) := by
    rw [set_run, memory_afterChanges (initial Sample.host) sampleChanges]
    rfl
  have unchanged := (settings_come_from_last_accepted (initial Sample.host) sampleChanges).2.1
    "quiet" "max_cache" (.ofWord (-1)) _ _ (Prod.ext refused rfl)
  exact ⟨by decide +kernel, by decide +kernel, by decide +kernel, by decide +kernel,
    by decide +kernel, Prod.ext refused unchanged⟩

end Workspace

end Covenant
