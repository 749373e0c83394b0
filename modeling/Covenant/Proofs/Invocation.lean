import Covenant.Proofs.Records
import Covenant.Proofs.SettingsHistory
import Covenant.TestProgram.Run

/-!
# What a test program is told

Of a request that is passed as command-line arguments, the package, the configuration and the
verbosity always arrive. Each function name is read as a record, so the names arrive as they were
exactly when each of them is plain.
-/

set_option autoImplicit false

namespace Covenant

open List

open Stateful

/-!
## Reading flags
-/

structure Flag.GivenBy (flag : Flag) (flags : List Flag) (argument : Text) : Prop where
  spelled : argument = 45 :: 45 :: flag.name
  inhabited : flag.name ≠ []
  noEquals : 61 ∉ flag.name
  noDash : Text.startsWith flag.name "-" = false
  found : flags.find? (fun known => known.name == flag.name) = some flag

/-- What is relied on of a reader. A flag is given by its name behind two dashes. A switch is then
on, and any other flag takes the next argument, whatever it is: a text as it is, texts as the fields
of a record. -/
structure FlagReader.Conventional (read : FlagReader) : Prop where
  nothing : ∀ flags, read flags [] = .ok .empty
  value : ∀ {flags : List Flag} {argument : Text} {flag : Flag}, flag.GivenBy flags argument →
    flag.kind ≠ .switch → ∀ value rest, read flags (argument :: value :: rest) = do
      let given ← flag.readValue value
      return (← read flags rest).withFlag flag given
  switch : ∀ {flags : List Flag} {argument : Text} {flag : Flag}, flag.GivenBy flags argument →
    flag.kind = .switch → ∀ rest, read flags (argument :: rest) = do
      return (← read flags rest).withFlag flag (.switch true)

theorem CommandLine.conventional_read : FlagReader.Conventional read where
  nothing _ := rfl
  value {_ _ flag} given takesValue value rest := by
    obtain ⟨rfl, inhabited, noEquals, noDash, found⟩ := given
    have named : flag.name.isEmpty = false := by simpa using inhabited
    rw [read.eq_3 _ _ _ inhabited]
    simp only [Csv.takeWhile_ne_of_absent noEquals, noDash, named, found, Nat.lt_irrefl,
      Bool.or_self, Bool.false_eq_true, takesValue, if_false]
  switch {_ _ flag} given isSwitch rest := by
    obtain ⟨rfl, inhabited, noEquals, noDash, found⟩ := given
    have named : flag.name.isEmpty = false := by simpa using inhabited
    rw [read.eq_3 _ _ _ inhabited]
    simp only [Csv.takeWhile_ne_of_absent noEquals, noDash, named, found, Nat.lt_irrefl,
      Bool.or_self, Bool.false_eq_true, isSwitch, if_false, if_true]

namespace FlagReader

variable {read : FlagReader} {flags : List Flag} {argument : Text} {flag : Flag}

/-- Whatever is read behind them, the arguments add these flags in front of it. -/
def Adds (read : FlagReader) (flags : List Flag) (arguments : List Text)
    (added : Except FlagError (List (Text × FlagValue))) : Prop :=
  ∀ rest, read flags (arguments ++ rest) = do
    let given ← added
    let line ← read flags rest
    return { line with given := given ++ line.given }

namespace Adds

theorem nil : Adds read flags [] (.ok []) := by
  intro rest
  rw [nil_append]
  cases read flags rest <;> rfl

theorem append {first second : List Text} {left right : Except FlagError (List (Text × FlagValue))}
    (addsLeft : Adds read flags first left) (addsRight : Adds read flags second right) :
    Adds read flags (first ++ second) (do return (← left) ++ (← right)) := by
  intro rest
  rw [append_assoc, addsLeft, addsRight]
  cases left with
  | error fault => rfl
  | ok given =>
    cases right with
    | error fault => rfl
    | ok later =>
      cases read flags rest with
      | error fault => rfl
      | ok line =>
        exact congrArg (fun all => Except.ok (CommandLine.mk all line.arguments))
          (append_assoc given later line.given).symm

end Adds

namespace Conventional

variable (conventional : read.Conventional) (given : flag.GivenBy flags argument)
include conventional given

theorem adds_value (takesValue : flag.kind ≠ .switch) (value : Text) :
    read.Adds flags [argument, value] (do return [(flag.name, ← flag.readValue value)]) := by
  intro rest
  rw [cons_append, cons_append, nil_append, conventional.value given takesValue]
  cases flag.readValue value with
  | error fault => rfl
  | ok given => cases read flags rest <;> rfl

theorem adds_switch (isSwitch : flag.kind = .switch) :
    read.Adds flags [argument] (.ok [(flag.name, .switch true)]) := by
  intro rest
  rw [cons_append, nil_append, conventional.switch given isSwitch]
  cases read flags rest <;> rfl

theorem adds_values (takesValue : flag.kind ≠ .switch) (values : List Text) :
    read.Adds flags (values.flatMap (fun value => [argument, value]))
      (List.map (flag.name, ·) <$> values.mapM flag.readValue) := by
  induction values with
  | nil => exact .nil
  | cons first values ih =>
    intro rest
    rw [flatMap_cons, (conventional.adds_value given takesValue first).append ih, mapM_cons]
    cases flag.readValue first with
    | error fault => rfl
    | ok given => cases values.mapM flag.readValue <;> rfl

end Conventional

end FlagReader

namespace CommandLine

theorem valuesOf_given (name : Text) (values : List FlagValue) (flag : Flag) :
    ((values.map (name, ·)).filter (fun entry => entry.1 == flag.name)).map (·.2) =
      if name = flag.name then values else [] := by
  by_cases same : name = flag.name <;> simp [filter_map, Function.comp_def, same]

end CommandLine

/-!
## Reading a request
-/

namespace TestProgram

def namesGiven (argument : Text) : Except FlagError (List Text) :=
  if argument.isEmpty then .ok []
  else (Csv.readRecord argument).mapError fun cause =>
    .badValue functionFlag.letter functionFlag.name argument (.badRecord cause)

theorem readValue_function (argument : Text) :
    functionFlag.readValue argument = FlagValue.texts <$> namesGiven argument := by
  have kind : functionFlag.kind = .texts := rfl
  unfold Flag.readValue namesGiven
  simp only [kind]
  split
  · rfl
  · cases Csv.readRecord argument <;> rfl

theorem mapM_map {ε α β γ : Type} (change : β → γ) (step : α → Except ε β) (items : List α) :
    items.mapM (fun item => change <$> step item) = List.map change <$> items.mapM step := by
  induction items with
  | nil => rfl
  | cons item items ih =>
    rw [mapM_cons, mapM_cons, ih]
    cases step item with
    | error fault => rfl
    | ok found => cases items.mapM step <;> rfl

namespace Request

/-- A request as it is read, if these are the names that its functions are read as. -/
def lineWith (request : Request) (groups : List (List Text)) : CommandLine :=
  ⟨[.text request.importPath].map (targetFlag.name, ·)
    ++ (if request.config.isEmpty then [] else [.text request.config]).map (configFlag.name, ·)
    ++ (groups.map .texts).map (functionFlag.name, ·)
    ++ (if request.verbose then [.switch true] else []).map (verboseFlag.name, ·), []⟩

section

variable {read : FlagReader} (conventional : read.Conventional)
include conventional

theorem adds_arguments (request : Request) :
    read.Adds flags request.arguments
      ((fun groups => (request.lineWith groups).given) <$> request.functions.mapM namesGiven) := by
  have target : targetFlag.GivenBy flags "--target" :=
    ⟨rfl, by decide, by decide, by decide, rfl⟩
  have config : configFlag.GivenBy flags "--config" :=
    ⟨rfl, by decide, by decide, by decide, rfl⟩
  have function : functionFlag.GivenBy flags "--function" :=
    ⟨rfl, by decide, by decide, by decide, rfl⟩
  have verbose : verboseFlag.GivenBy flags "--verbose" :=
    ⟨rfl, by decide, by decide, by decide, rfl⟩
  have addsTarget := conventional.adds_value target (by decide) request.importPath
  have addsConfig : read.Adds flags
      (if request.config.isEmpty then [] else ["--config", request.config])
      (.ok ((if request.config.isEmpty then [] else [.text request.config]).map
        (configFlag.name, ·))) := by
    split
    · exact .nil
    · exact conventional.adds_value config (by decide) request.config
  have addsFunctions := conventional.adds_values function (by decide) request.functions
  have addsVerbose : read.Adds flags (if request.verbose then ["--verbose"] else [])
      (.ok ((if request.verbose then [.switch true] else []).map (verboseFlag.name, ·))) := by
    split
    · exact conventional.adds_switch verbose rfl
    · exact .nil
  have all := ((addsTarget.append addsConfig).append addsFunctions).append addsVerbose
  have same : request.functions.mapM functionFlag.readValue =
      List.map FlagValue.texts <$> request.functions.mapM namesGiven := by
    rw [funext readValue_function, mapM_map]
  rw [same] at all
  intro rest
  rw [arguments, all]
  cases request.functions.mapM namesGiven <;> rfl

theorem read_arguments (request : Request) :
    read flags request.arguments = request.lineWith <$> request.functions.mapM namesGiven := by
  have added := request.adds_arguments conventional []
  rw [append_nil, conventional.nothing] at added
  rw [added]
  cases request.functions.mapM namesGiven with
  | error fault => rfl
  | ok groups => exact congrArg (fun all => Except.ok (CommandLine.mk all [])) (append_nil _)

end

theorem valuesOf_lineWith (request : Request) (groups : List (List Text)) (flag : Flag) :
    (request.lineWith groups).valuesOf flag =
      (if targetFlag.name = flag.name then [.text request.importPath] else [])
      ++ (if configFlag.name = flag.name then
          if request.config.isEmpty then [] else [.text request.config] else [])
      ++ (if functionFlag.name = flag.name then groups.map .texts else [])
      ++ (if verboseFlag.name = flag.name then
          if request.verbose then [.switch true] else [] else []) := by
  simp only [CommandLine.valuesOf, lineWith, filter_append, map_append,
    CommandLine.valuesOf_given]

theorem ofCommandLine_lineWith (request : Request) (groups : List (List Text)) :
    ofCommandLine (request.lineWith groups) = { request with functions := groups.flatten } := by
  have target : (request.lineWith groups).textOf targetFlag = request.importPath := by
    rw [CommandLine.textOf, valuesOf_lineWith]
    simp +decide
  have config : (request.lineWith groups).textOf configFlag = request.config := by
    rw [CommandLine.textOf, valuesOf_lineWith]
    cases empty : request.config <;> simp +decide
  have functions : (request.lineWith groups).textsOf functionFlag = groups.flatten := by
    rw [CommandLine.textsOf, valuesOf_lineWith]
    simp +decide [flatMap_map]
  have verbose : (request.lineWith groups).isOn verboseFlag = request.verbose := by
    rw [CommandLine.isOn, valuesOf_lineWith]
    cases request.verbose <;> simp +decide
  rw [ofCommandLine, target, config, functions, verbose]

/-- The request that arrives: each name of a function stands for the fields of its record. -/
def received (request : Request) : Except FlagError Request :=
  (fun groups => { request with functions := groups.flatten }) <$>
    request.functions.mapM namesGiven

end Request

/-!
## Names as records
-/

section

variable {name : Text} {names group : List Text} {groups : List (List Text)}

theorem room_le_of_namesGiven (given : namesGiven name = .ok group) :
    Csv.room group ≤ name.length + 1 ∧ (name = [] ↔ group = []) := by
  unfold namesGiven at given
  split at given
  · next empty =>
    cases given
    exact ⟨Nat.zero_le _, iff_of_true (isEmpty_iff.mp empty) rfl⟩
  · next notEmpty =>
    obtain ⟨inhabited, fits⟩ := Csv.room_le_of_readRecord (mapError_eq_ok_iff.mp given)
    exact ⟨fits, iff_of_false (fun empty => notEmpty (isEmpty_iff.mpr empty)) inhabited⟩

theorem namesGiven_eq_self_iff : namesGiven name = .ok [name] ↔ Csv.Plain name := by
  unfold namesGiven
  split
  · next empty =>
    rw [isEmpty_iff.mp empty]
    refine iff_of_false (fun same => ?_) (fun plain => plain.inhabited rfl)
    exact cons_ne_nil _ _ (Except.ok.inj same).symm
  · rw [mapError_eq_ok_iff]
    exact Csv.readRecord_eq_self_iff

theorem room_flatten_le
    (given : List.Forall₂ (fun name group => namesGiven name = .ok group) names groups) :
    Csv.room groups.flatten ≤ Csv.room names ∧
      ([] ∈ names → Csv.room groups.flatten < Csv.room names) := by
  induction given with
  | nil => exact ⟨Nat.le_refl _, fun member => absurd member not_mem_nil⟩
  | @cons name group names groups first _ ih =>
    obtain ⟨fits, empty⟩ := room_le_of_namesGiven first
    obtain ⟨othersFit, othersLess⟩ := ih
    rw [flatten_cons, Csv.room_append, Csv.room]
    refine ⟨by omega, fun member => ?_⟩
    rcases mem_cons.mp member with isFirst | later
    · rw [empty.mp isFirst.symm]
      have nothing : Csv.room [] = 0 := rfl
      omega
    · have less := othersLess later
      omega

theorem length_le_length_flatten (inhabited : ∀ group ∈ groups, group ≠ []) :
    groups.length ≤ groups.flatten.length := by
  induction groups with
  | nil => exact Nat.le_refl _
  | cons group groups ih =>
    obtain ⟨first, others⟩ := forall_mem_cons.mp inhabited
    have one := length_pos_iff.mpr first
    have more := ih others
    rw [flatten_cons, length_append, length_cons]
    omega

theorem eq_map_singleton (inhabited : ∀ group ∈ groups, group ≠ [])
    (few : groups.flatten.length ≤ groups.length) : groups = groups.flatten.map ([·]) := by
  induction groups with
  | nil => rfl
  | cons group groups ih =>
    obtain ⟨first, others⟩ := forall_mem_cons.mp inhabited
    have one := length_pos_iff.mpr first
    have more := length_le_length_flatten others
    rw [flatten_cons, length_append, length_cons] at few
    obtain ⟨only, rfl⟩ := length_eq_one_iff.mp (show group.length = 1 by omega)
    exact congrArg ([only] :: ·) (ih others (by omega))

/-- Names that are the fields of their own records, one behind the other, are each the one field of
its record: for want of room none of them is empty. -/
theorem groups_eq_of_flatten_eq
    (given : List.Forall₂ (fun name group => namesGiven name = .ok group) names groups)
    (same : groups.flatten = names) : groups = names.map ([·]) := by
  have noEmpty : [] ∉ names := by
    intro member
    have less := (room_flatten_le given).2 member
    rw [same] at less
    exact Nat.lt_irrefl _ less
  have inhabited : ∀ group ∈ groups, group ≠ [] := by
    intro group member empty
    obtain ⟨name, among, read⟩ := exists_mem_of_forall₂ given.flip member
    exact noEmpty ((room_le_of_namesGiven read).2.mpr empty ▸ among)
  have few : groups.flatten.length ≤ groups.length := by
    rw [same, given.length_eq]
  have singletons := eq_map_singleton inhabited few
  rwa [same] at singletons

theorem mapM_namesGiven_iff :
    (∃ groups, names.mapM namesGiven = .ok groups ∧ groups.flatten = names) ↔
      ∀ name ∈ names, Csv.Plain name := by
  constructor
  · rintro ⟨groups, read, same⟩
    have given := mapM_eq_ok_iff.mp read
    rw [groups_eq_of_flatten_eq given same, forall₂_map_right_iff, forall₂_same] at given
    exact fun name member => namesGiven_eq_self_iff.mp (given name member)
  · intro plain
    refine ⟨names.map ([·]), mapM_eq_ok_iff.mpr ?_, flatMap_singleton' names⟩
    rw [forall₂_map_right_iff, forall₂_same]
    exact fun name member => namesGiven_eq_self_iff.mpr (plain name member)

end

/-!
## What a program serves
-/

section

variable {request : Request} {files : FileTree} {start final : Workspace} {exit : Exit}
  {results : List TestResult}

theorem Request.exists_run_of_serve (served : (request.serve files).run start = (.ok exit, final))
    (printed : exit.results = some results) :
    exit.status = (Summary.ofResults results).exitStatus ∧
      ∃ config middle numbers, Config.load files request.config = .ok config ∧
        select middle (if request.functions.isEmpty then config.functions else request.functions) =
          .ok numbers ∧
        (Workspace.run numbers false).run middle = (.ok results, final) := by
  unfold Request.serve at served
  split at served
  · cases served
    cases printed
  · next config loaded =>
    obtain ⟨before, _, got, served⟩ := run_bind_eq_ok_iff.mp served
    cases got
    obtain ⟨_, middle, _, served⟩ := run_bind_eq_ok_iff.mp served
    split at served
    · cases served
      cases printed
    obtain ⟨now, _, got, served⟩ := run_bind_eq_ok_iff.mp served
    cases got
    split at served
    · cases served
      cases printed
    · next numbers selected =>
      obtain ⟨found, _, tested, served⟩ := run_bind_eq_ok_iff.mp served
      cases served
      cases printed
      exact ⟨rfl, config, middle, numbers, loaded, selected, tested⟩

theorem exists_serve_of_run {arguments : List Text}
    (ran : (run files arguments).run start = (.ok exit, final))
    (printed : exit.results = some results) :
    ∃ line, CommandLine.read flags arguments = .ok line ∧
      ((Request.ofCommandLine line).serve files).run start = (.ok exit, final) := by
  unfold run runWith at ran
  split at ran
  · cases ran
    cases printed
  · next line read =>
    split at ran
    · cases ran
      cases printed
    split at ran
    · cases ran
      cases printed
    · exact ⟨line, read, ran⟩

end

end TestProgram

/-!
## What is tested
-/

namespace Workspace

def nameAt? (workspace : Workspace) (number : Nat) : Option Text :=
  (workspace.contractAt? number).map (·.name)

variable {workspace final : Workspace} {number : Nat} {numbers : List Nat}

theorem function_resultOf (contract : Contract) (location : Location) (failure : Option Failure)
    (tally : Testing.Tally) :
    (Testing.resultOf contract location failure tally).target.function = contract.name := by
  unfold Testing.resultOf
  cases failure with
  | none =>
    dsimp only
    split <;> rfl
  | some found =>
    dsimp only
    split <;> rfl

theorem nameAt?_of_testNumber {cancelled : Bool}
    {answer : Contract × Option Failure × Testing.Tally}
    (tested : (testNumber number cancelled).run workspace = (.ok answer, final)) :
    workspace.nameAt? number = some answer.1.name ∧ final.nameAt? = workspace.nameAt? := by
  unfold testNumber at tested
  obtain ⟨now, _, got, tested⟩ := run_bind_eq_ok_iff.mp tested
  cases got
  split at tested
  · cases tested
  · next contract known =>
    dsimp only [replaceContract] at tested
    rw [run_bind_of_ok (run_modify _ _), run_bind_of_ok (run_modify _ _)] at tested
    split at tested
    · cases tested
    · cases tested
      refine ⟨congrArg (Option.map _) known, funext fun other => ?_⟩
      unfold nameAt? contractAt?
      rw [List.getElem?_set]
      split
      · next same =>
        subst same
        rw [if_pos (List.getElem?_eq_some_iff.mp known).1]
        exact (congrArg (Option.map (·.name)) known).symm
      · rfl

theorem functions_of_run {results : List TestResult}
    (ran : (Workspace.run numbers false).run workspace = (.ok results, final)) :
    numbers.map workspace.nameAt? = (results.map (·.target.function)).map some := by
  simp only [Workspace.run, Bool.false_eq_true, ↓reduceIte] at ran
  induction numbers generalizing workspace results with
  | nil =>
    cases ran
    rfl
  | cons number numbers ih =>
    rw [mapM_cons] at ran
    obtain ⟨result, middle, tested, ran⟩ := run_bind_eq_ok_iff.mp ran
    obtain ⟨others, _, ranOthers, answered⟩ := run_bind_eq_ok_iff.mp ran
    obtain ⟨⟨contract, failure, tally⟩, _, testedFirst, reported⟩ := run_bind_eq_ok_iff.mp tested
    obtain ⟨here, kept⟩ := nameAt?_of_testNumber testedFirst
    cases answered
    cases reported
    rw [map_cons, map_cons, map_cons, function_resultOf, here, ← kept,
      ih ranOthers]

end Workspace

namespace TestProgram

theorem names_of_select {workspace : Workspace} {names : List Text} {numbers : List Nat}
    (inhabited : names ≠ []) (selected : select workspace names = .ok numbers) :
    numbers.map workspace.nameAt? = names.map some := by
  unfold select at selected
  rw [if_neg (by simpa using inhabited)] at selected
  have each := mapM_eq_ok_iff.mp selected
  rw [← forall₂_eq_eq_eq, forall₂_map_left_iff, forall₂_map_right_iff]
  refine (each.imp ?_).flip
  intro name number found
  split at found
  · next known =>
    cases found
    have recorded := List.find?_some known
    simp only [Option.any_eq_true, beq_iff_eq] at recorded
    obtain ⟨contract, isContract, sameName⟩ := recorded
    rw [flip, Workspace.nameAt?, isContract, Option.map_some, sameName]
  · cases found

theorem runWith_arguments {read : FlagReader} (conventional : read.Conventional)
    {request arrived : Request} (arrives : request.received = .ok arrived) (files : FileTree) :
    runWith read files request.arguments = arrived.serve files := by
  obtain ⟨groups, given, rfl⟩ := map_eq_ok_iff.mp arrives
  have line : read flags request.arguments = .ok (request.lineWith groups) := by
    rw [request.read_arguments conventional, given]
    rfl
  have noHelp : (request.lineWith groups).isOn helpFlag = false := by
    rw [CommandLine.isOn, request.valuesOf_lineWith]
    simp +decide
  unfold runWith
  rw [line]
  change (if (request.lineWith groups).isOn helpFlag then return ⟨0, none⟩
    else (Request.ofCommandLine (request.lineWith groups)).serve files) = _
  rw [noHelp, request.ofCommandLine_lineWith]
  rfl

theorem received_eq_self_iff {request : Request} :
    request.received = .ok request ↔ ∀ name ∈ request.functions, Csv.Plain name := by
  unfold Request.received
  rw [map_eq_ok_iff, ← mapM_namesGiven_iff]
  refine exists_congr fun groups => and_congr_right fun _ => ?_
  constructor
  · intro same
    exact congrArg Request.functions same
  · intro same
    rw [same]

/-- Whatever reader of that convention it uses, as ours is, a program is told the package, the
configuration and the verbosity of a request, and for each function name the fields of its record.
It is told the request exactly when every name is plain. Then it serves the request, and where
functions are named, it reports on them. -/
theorem request_arrives_iff_plain (request : Request) :
    FlagReader.Conventional CommandLine.read ∧
    (request.received = .ok request ↔ ∀ name ∈ request.functions, Csv.Plain name) ∧
    ∀ read : FlagReader, read.Conventional →
      (read flags request.arguments).map Request.ofCommandLine = request.received ∧
      ((∀ name ∈ request.functions, Csv.Plain name) → ∀ files : FileTree,
        runWith read files request.arguments = request.serve files ∧
        ∀ (start final : Workspace) (exit : Exit) (results : List TestResult),
          (runWith read files request.arguments).run start = (.ok exit, final) →
          exit.results = some results → request.functions ≠ [] →
          results.map (·.target.function) = request.functions) := by
  refine ⟨CommandLine.conventional_read, received_eq_self_iff, fun read conventional => ?_⟩
  refine ⟨?_, fun plain files => ?_⟩
  · rw [request.read_arguments conventional, Request.received]
    cases request.functions.mapM namesGiven with
    | error fault => rfl
    | ok groups => exact congrArg Except.ok (request.ofCommandLine_lineWith groups)
  · have served := runWith_arguments conventional (received_eq_self_iff.mpr plain) files
    refine ⟨served, ?_⟩
    intro start final exit results ran printed named
    rw [served] at ran
    obtain ⟨_, config, middle, numbers, _, selected, tested⟩ :=
      Request.exists_run_of_serve ran printed
    rw [if_neg (by simpa using named)] at selected
    have names := names_of_select named selected
    rw [Workspace.functions_of_run tested] at names
    exact List.map_injective_iff.mpr (fun _ _ => Option.some.inj) names

/-!
## Requests that arrive, and one that does not
-/

theorem fault_standard (settings : Settings) : (Config.standard.apply settings).2 = none := by
  have each : ∀ entry ∈ [(Text.ofString "enabled", Value.ofBool true),
      (Text.ofString "max_runtime", .ofFloat 2.0), (Text.ofString "max_cache", .ofWord 2)],
      Setting.refusal? entry = none := by
    intro entry member
    simp only [mem_cons, not_mem_nil, or_false] at member
    rcases member with rfl | rfl | rfl
    · rfl
    · decide +kernel
    · rfl
  rw [Config.apply, Settings.setAll, Settings.setInOrder_eq, List.findSome?_eq_none_iff]
  intro entry member
  exact each entry (mem_mergeSort.mp member)

/-- Without a configuration file, the functions that are selected are run and reported. -/
theorem Request.serve_standard {request : Request} (standard : request.config = [])
    (start : Workspace) : ∃ settings,
      let middle := start.withSettings Workspace.globalStore settings
      ∀ (numbers : List Nat) (results : List TestResult) (final : Workspace),
        select middle request.functions = .ok numbers →
        (Workspace.run numbers false).run middle = (.ok results, final) →
        (request.serve .empty).run start =
          (.ok ⟨(Summary.ofResults results).exitStatus, some results⟩, final) := by
  have faultless := fault_standard (start.settingsOf Workspace.globalStore)
  rcases applied : Config.standard.apply (start.settingsOf Workspace.globalStore) with
    ⟨settings, fault⟩
  rw [applied] at faultless
  dsimp only at faultless
  subst faultless
  refine ⟨settings, ?_⟩
  intro middle numbers results final selected tested
  have loaded : Config.load .empty request.config = .ok Config.standard := by
    rw [standard]
    rfl
  have names : (if request.functions.isEmpty then Config.standard.functions
      else request.functions) = request.functions := by
    split
    · next empty => exact (isEmpty_iff.mp empty).symm
    · rfl
  have put : (Workspace.putSettings Workspace.globalStore settings).run start = (.ok (), middle) :=
    rfl
  unfold Request.serve
  rw [loaded]
  dsimp only
  rw [run_bind_of_ok (run_get _), applied]
  dsimp only
  rw [run_bind_of_ok put, Option.isSome_none, if_neg Bool.false_ne_true, run_bind_of_ok (run_get _),
    names, selected]
  dsimp only
  rw [run_bind_of_ok tested]
  rfl

def spacedRequest : Request := ⟨"example.com/p", [], ["twice a number"], true⟩

def spacedWorkspace : Workspace :=
  ((Workspace.wrap "f" (.function Sample.intFunction (.host "Double"))
    [.name "twice a number", .parameters ["n"]]).run (Workspace.initial Sample.host)).2

theorem spaced_served : ∃ exit final results,
    (spacedRequest.serve .empty).run spacedWorkspace = (.ok exit, final) ∧
      exit.results = some results := by
  obtain ⟨settings, served⟩ := spacedRequest.serve_standard rfl spacedWorkspace
  exact ⟨_, _, _, served [0] _ _ rfl rfl, rfl⟩

theorem request_arrives_iff_plain_spaced :
    (∀ name ∈ spacedRequest.functions, Csv.Plain name) ∧
      spacedRequest.received = .ok spacedRequest ∧
      ∃ exit final results,
        (run .empty spacedRequest.arguments).run spacedWorkspace = (.ok exit, final) ∧
        exit.results = some results ∧
        results.map (·.target.function) = [Text.ofString "twice a number"] := by
  have plain : ∀ name ∈ spacedRequest.functions, Csv.Plain name := by decide +kernel
  obtain ⟨conventional, arrives, told⟩ := request_arrives_iff_plain spacedRequest
  obtain ⟨served, reports⟩ := (told _ conventional).2 plain .empty
  obtain ⟨exit, final, results, ran, printed⟩ := spaced_served
  rw [← served] at ran
  exact ⟨plain, arrives.mpr plain, exit, final, results, ran, printed,
    reports _ _ _ _ ran printed (List.cons_ne_nil _ _)⟩

/-- A name with a comma arrives as two names, quotes are taken off, and an empty name is lost. A
quote inside a name stops the program. -/
theorem request_with_comma_does_not_arrive :
    ((CommandLine.read flags (Request.arguments ⟨"p", [], ["a,b", "\"c\"", ""], false⟩)).map
        Request.ofCommandLine).toOption = some ⟨"p", [], ["a", "b", "c"], false⟩ ∧
      ¬ Request.received ⟨"p", [], ["a,b"], false⟩ = .ok ⟨"p", [], ["a,b"], false⟩ ∧
      (CommandLine.read flags (Request.arguments ⟨"p", [], ["d\"e"], false⟩)).isOk = false := by
  refine ⟨by decide +kernel, ?_, by decide +kernel⟩
  rw [received_eq_self_iff]
  decide +kernel

end TestProgram

end Covenant
