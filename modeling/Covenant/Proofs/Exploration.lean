import Covenant.Proofs.CallOrigins
import Covenant.Proofs.Products
import Covenant.Proofs.Session

/-!
# What generated tests explore and report

A test calls its function with the combinations of samples in lexicographic order, each once, up to
the first call that fails. Its counters tell how many calls were made and which combination failed.
-/

set_option autoImplicit false

namespace Covenant.Testing

open List

variable {world : World} {contract : Contract} {snapshot : Snapshot} {memory start : Memory}
  {types : List (Text × Predicate)} {failure : Failure}

/-!
## Combinations by position
-/

def combinations : List (Text × List Value) → List Bindings
  | [] => [[]]
  | (name, values) :: rest =>
    let others := combinations rest
    values.flatMap (fun value => others.map (fun other => (name, value) :: other))

def choose (samples : List (Text × List Value)) (index : List Nat) : Bindings :=
  samples.zipWith (fun sample place => (sample.1, sample.2.getD place .nil)) index

def sizes (samples : List (Text × List Value)) : List Nat := samples.map (·.2.length)

theorem combinations_eq_map (samples : List (Text × List Value)) :
    combinations samples = (places (sizes samples)).map (choose samples) := by
  induction samples with
  | nil => rfl
  | cons sample samples ih =>
    obtain ⟨name, values⟩ := sample
    have listed : values = (List.range values.length).map (values.getD · .nil) := by
      refine ext_getElem (by simp) fun place within _ => ?_
      simp [List.getElem?_eq_getElem within]
    rw [combinations, ih]
    -- Both sides then run through the same range of positions.
    conv_lhs => rw [listed]
    simp only [flatMap_map, map_map, sizes, map_cons, places, map_flatMap]
    rfl

theorem length_combinations (samples : List (Text × List Value)) :
    (combinations samples).length = (sizes samples).prod := by
  rw [combinations_eq_map, length_map, length_places]

theorem product_combinations {σ ε : Type} (samples : List (Text × List Value))
    (callback : Bindings → σ → Option ε × σ) (state : σ) :
    product (samples.map (·.2)) (fun tuple => callback ((samples.map (·.1)).zip tuple)) state =
      untilFailure callback (combinations samples) state := by
  have chosen (index : List Nat) :
      choose samples index = (samples.map (·.1)).zip (tupleAt (samples.map (·.2)) index) := by
    induction samples generalizing index with
    | nil => rfl
    | cons sample samples ih =>
      cases index with
      | nil => rfl
      | cons place index => exact congrArg _ (ih index)
  rw [product_eq, ← untilFailure_map callback, map_map, map_map, combinations_eq_map,
    funext chosen]
  rfl

/-!
## The calls of a test
-/

/-- A case of a test: its arguments, the state in which it is run, and what becomes of it. -/
structure Visit where
  arguments : Bindings
  before : Progress
  made : Case

section

variable (world contract snapshot)

def Visit.of (arguments : Bindings) (progress : Progress) : Visit :=
  ⟨arguments, progress, .of world contract snapshot arguments progress⟩

def Visit.present (visit : Visit) : Bindings :=
  visit.arguments.map fun (name, value) => (name, visit.made.memory.view value)

/-- The call of a case, as it ends where the test waits for it. -/
def Visit.called (visit : Visit) : Contract.Called :=
  { contract with remembered := visit.before.remembered }.callBound world snapshot
    visit.arguments visit.before.memory

/-- The failure that a case ends its test with. -/
def Visit.failure? (visit : Visit) : Option Failure :=
  match visit.made.outcome with
  | .failed cause => some (.failedCase contract.name visit.present cause)
  | _ => none

def Visit.InTime (visit : Visit) : Prop :=
  delay? world snapshot visit.arguments visit.before.memory = none

/-- The state after a case, in which the abandoned calls that are due have ended. -/
def Visit.after (visit : Visit) : Progress :=
  Progress.settle world contract snapshot (·.wait == 0)
    ⟨visit.before.tally.count visit.made.outcome, visit.made.memory, visit.made.remembered,
      visit.before.abandoned ++ visit.made.abandoned⟩

/-- The calls that a test makes: one case after the other, each in the state that the one before
leaves, up to the first that fails. -/
def visits : List Bindings → Progress → List Visit
  | [], _ => []
  | arguments :: rest, progress =>
    let visit := Visit.of world contract snapshot arguments progress
    visit :: (visit.failure? contract).elim (visits rest (visit.after world contract snapshot))
      fun _ => []

def runCases : List Bindings → Progress → Option Failure × Progress :=
  untilFailure (runCase world contract snapshot false)

def stateAfter (start : Progress) (made : List Visit) : Progress :=
  made.foldl (fun _ visit => visit.after world contract snapshot) start

def Tally.counted (tally : Tally) : Nat := tally.executed + tally.skipped + tally.timedOut

def Tally.countAll (tally : Tally) (made : List Visit) : Tally :=
  made.foldl (fun tally visit => tally.count visit.made.outcome) tally

/-- How the calls of a test over cases account for what it reports. -/
structure Accounts (cases : List Bindings) (start : Progress)
    (tested : Option Failure × Progress) (made : List Visit) : Prop where
  inOrder : made.map Visit.arguments <+: cases
  tally : tested.2.tally = start.tally.countAll made
  state : tested.2 = stateAfter world contract snapshot start made
  finished : tested.1 = none → made.map Visit.arguments = cases ∧
    tested.2.tally.counted = start.tally.counted + cases.length
  stopped : ∀ failure, tested.1 = some failure → ∃ before last cause,
    made = before ++ [last] ∧ tested.2.tally.counted = start.tally.counted + before.length ∧
      last.made.outcome = .failed cause ∧
      failure = .failedCase contract.name last.present cause

end

theorem outcome_of (arguments : Bindings) (progress : Progress) :
    let visit := Visit.of world contract snapshot arguments progress
    visit.made.outcome = (delay? world snapshot arguments progress.memory).elim
      (.of contract snapshot.maxRuntime (visit.called world contract snapshot).outcome)
      (fun _ => .timedOut) := by
  unfold Visit.of Case.of
  cases delay? world snapshot arguments progress.memory <;> rfl

@[simp] theorem settle_tally (due : Abandoned → Bool) (progress : Progress) :
    (progress.settle world contract snapshot due).tally = progress.tally := by
  have ended (late : List Abandoned) (start : Progress) :
      (late.foldl (Progress.conclude world contract snapshot) start).tally = start.tally := by
    induction late generalizing start with
    | nil => rfl
    | cons first late ih => exact ih _
  exact ended _ _

theorem tally_after (visit : Visit) : (visit.after world contract snapshot).tally =
    visit.before.tally.count visit.made.outcome := settle_tally _ _

theorem counted_count {outcome : CaseOutcome} (counts : ∀ cause, outcome ≠ .failed cause)
    (tally : Tally) : (tally.count outcome).counted = tally.counted + 1 := by
  cases outcome with
  | executed | skipped => simp only [Tally.count, Tally.counted]; omega
  | timedOut => rfl
  | failed cause => exact absurd rfl (counts cause)

theorem failure?_eq_some_iff {visit : Visit} : visit.failure? contract = some failure ↔
    ∃ cause, visit.made.outcome = .failed cause ∧
      failure = .failedCase contract.name visit.present cause := by
  unfold Visit.failure?
  cases visit.made.outcome <;> simp [eq_comm]

/-- The first case ends the test if it fails; otherwise the rest starts from the state and the tally
that it leaves. -/
theorem runCases_cons (arguments : Bindings) (rest : List Bindings) (progress : Progress) :
    let visit := Visit.of world contract snapshot arguments progress
    let next := visit.after world contract snapshot
    runCases world contract snapshot (arguments :: rest) progress =
      (visit.failure? contract).elim (runCases world contract snapshot rest next)
        fun failure => (some failure, next) := by
  intro visit next
  have ran : runCase world contract snapshot false arguments progress =
      (visit.failure? contract, next) := rfl
  rw [runCases, untilFailure, ran]
  cases visit.failure? contract <;> rfl

theorem Accounts.cons {visit : Visit} {rest : List Bindings}
    {tested : Option Failure × Progress} {made : List Visit}
    (passed : visit.failure? contract = none)
    (following : Accounts world contract snapshot rest (visit.after world contract snapshot)
      tested made) :
    Accounts world contract snapshot (visit.arguments :: rest) visit.before tested
      (visit :: made) := by
  have one : (visit.after world contract snapshot).tally.counted =
      visit.before.tally.counted + 1 := by
    rw [tally_after]
    refine counted_count (fun cause failed => ?_) _
    rw [failure?_eq_some_iff.mpr ⟨cause, failed, rfl⟩] at passed
    cases passed
  refine ⟨?_, ?_, following.state, ?_, ?_⟩
  · rw [map_cons, cons_prefix_cons]
    exact ⟨rfl, following.inOrder⟩
  · rw [following.tally, tally_after]
    rfl
  · intro passed
    obtain ⟨all, counted⟩ := following.finished passed
    rw [map_cons, all, counted, one, length_cons]
    exact ⟨rfl, by omega⟩
  · intro failure failed
    obtain ⟨before, last, cause, split, counted, ended, same⟩ := following.stopped failure failed
    refine ⟨visit :: before, last, cause, ?_, ?_, ended, same⟩
    · rw [split, cons_append]
    · rw [counted, one, length_cons]
      omega

theorem runCases_accounts (cases : List Bindings) (progress : Progress) :
    Accounts world contract snapshot cases progress
      (runCases world contract snapshot cases progress)
      (visits world contract snapshot cases progress) := by
  induction cases generalizing progress with
  | nil =>
    refine ⟨prefix_rfl, rfl, rfl, fun _ => ⟨rfl, rfl⟩, ?_⟩
    intro failure failed
    cases failed
  | cons arguments rest ih =>
    rw [runCases_cons, visits]
    cases ended : (Visit.of world contract snapshot arguments progress).failure? contract with
    | none => exact .cons ended (ih _)
    | some failure =>
      obtain ⟨cause, failed, same⟩ := failure?_eq_some_iff.mp ended
      have tally : (Visit.after world contract snapshot
          (.of world contract snapshot arguments progress)).tally = _ := tally_after _
      refine ⟨cons_prefix_cons.mpr ⟨rfl, nil_prefix⟩, tally, rfl, nofun, ?_⟩
      rintro _ ⟨⟩
      rw [failed] at tally
      exact ⟨[], _, cause, rfl, congrArg Tally.counted tally, failed, same⟩

/-!
## Samples
-/

/-- A sample with an identity of its own, where it can be written into. -/
def Adopted (value sample : Value) : Prop := ∃ memory, sample = (adopt value memory).1

/-- The samples of an argument are what its type generates in a memory. -/
def SampledFrom (world : World) (memory : Memory) (entry : Text × Predicate)
    (sample : Text × List Value) : Prop :=
  sample.1 = entry.1 ∧ ∃ values, (memory.viewPredicate entry.2).generate world = .ok values ∧
    List.Forall₂ Adopted values sample.2

def Sampled (world : World) (memory : Memory) (types : List (Text × Predicate))
    (samples : List (Text × List Value)) : Prop :=
  ∃ arranged : List (Text × Predicate), arranged.Perm types ∧
    arranged.Pairwise (fun left right => Text.le left.1 right.1 = true) ∧
    List.Forall₂ (SampledFrom world memory) arranged samples

theorem adopt_written (value : Value) (memory : Memory) :
    (adopt value memory).2.written = memory.written := by
  unfold adopt Memory.allocate
  dsimp only
  split
  · split <;> rfl
  all_goals rfl

theorem adoptAll_adopted (values : List Value) (memory : Memory) :
    List.Forall₂ Adopted values (adoptAll values memory).1 := by
  induction values generalizing memory with
  | nil => exact .nil
  | cons value values ih => exact .cons ⟨memory, rfl⟩ (ih _)

theorem adoptAll_written (values : List Value) (memory : Memory) :
    (adoptAll values memory).2.written = memory.written := by
  induction values generalizing memory with
  | nil => rfl
  | cons value values ih => exact (ih _).trans (adopt_written value memory)

theorem viewPredicate_congr {other : Memory} (same : other.written = memory.written)
    (predicate : Predicate) : other.viewPredicate predicate = memory.viewPredicate predicate := by
  unfold Memory.viewPredicate Memory.present
  rw [same]

/-- Generating fails as the first type does that fails otherwise than by having no samples. -/
def GeneratingFails (world : World) (name : Text) (types : List (Text × Predicate))
    (memory : Memory) (failure : Failure) : Prop :=
  ∃ entry ∈ types, ∃ cause, (memory.viewPredicate entry.2).generate world = .error cause ∧
    (failure = cause ∧ (∃ reason, cause = .crash reason) ∨
      failure = .within (name ++ ": generating " ++ entry.1) cause)

theorem generateAll_ready (name : Text)
    (same : memory.written = start.written)
    (generates : ∀ entry ∈ types, ∃ values,
      (start.viewPredicate entry.2).generate world = .ok values) :
    ∃ samples ready, generateAll world name types memory = .ready samples ready ∧
      ready.written = start.written ∧ List.Forall₂ (SampledFrom world start) types samples := by
  induction types generalizing memory with
  | nil => exact ⟨[], memory, rfl, same, .nil⟩
  | cons entry types ih =>
    obtain ⟨label, type⟩ := entry
    obtain ⟨values, made⟩ := generates (label, type) mem_cons_self
    -- Adopting samples writes nothing, so the other types are seen as they were at the start.
    obtain ⟨others, ready, rest, still, sampled⟩ :=
      ih ((adoptAll_written values memory).trans same)
        fun other member => generates other (mem_cons_of_mem _ member)
    refine ⟨(label, (adoptAll values memory).1) :: others, ready, ?_, still,
      .cons ⟨rfl, values, made, adoptAll_adopted values memory⟩ sampled⟩
    rw [generateAll, viewPredicate_congr same, made]
    dsimp only
    rw [rest]

theorem generateAll_failed {name : Text} (same : memory.written = start.written)
    (failed : generateAll world name types memory = .failed failure) :
    GeneratingFails world name types start failure := by
  induction types generalizing memory with
  | nil => cases failed
  | cons entry types ih =>
    obtain ⟨label, type⟩ := entry
    rw [generateAll, viewPredicate_congr same] at failed
    split at failed
    · next reason crashed =>
      cases failed
      exact ⟨_, mem_cons_self, _, crashed, .inl ⟨rfl, reason, rfl⟩⟩
    · next cause _ refused =>
      split at failed
      · cases failed
      · cases failed
        exact ⟨_, mem_cons_self, cause, refused, .inr rfl⟩
    · next values _ =>
      dsimp only at failed
      split at failed
      · cases failed
      · obtain ⟨found, member, fails⟩ := ih ((adoptAll_written values memory).trans same) failed
        exact ⟨found, mem_cons_of_mem _ member, fails⟩

/-!
## Tests
-/

/-- What a test does that makes the given calls with the combinations of samples. -/
structure Explores (world : World) (contract : Contract) (snapshot : Snapshot)
    (samples : List (Text × List Value)) (start : Progress)
    (tested : Option Failure × Progress) (made : List Visit) : Prop where
  /-- The combinations are those at all positions, in lexicographic order of the positions. -/
  lexicographic : combinations samples = (places (sizes samples)).map (choose samples) ∧
    (places (sizes samples)).Pairwise (· < ·) ∧
    ∀ index, index ∈ places (sizes samples) ↔ List.Forall₂ (· < ·) index (sizes samples)
  cases : tested.2.tally.cases = (sizes samples).prod ∧
    (combinations samples).length = (sizes samples).prod
  inOrder : made.map Visit.arguments <+: combinations samples
  /-- Every call is counted by what the test makes of it. -/
  tally : tested.2.tally = start.tally.countAll made
  /-- Calls that are still abandoned after the last case end with the test. -/
  state : tested.2 =
    (stateAfter world contract snapshot start made).settle world contract snapshot fun _ => true
  finished : tested.1 = none → made.map Visit.arguments = combinations samples ∧
    tested.2.tally.counted = tested.2.tally.cases
  /-- A failure is that of the last call, the first one that is not counted. -/
  stopped : ∀ failure, tested.1 = some failure → ∃ before last cause,
    made = before ++ [last] ∧ before.length = tested.2.tally.counted ∧
      tested.2.tally.counted < tested.2.tally.cases ∧
      (combinations samples)[tested.2.tally.counted]? = some last.arguments ∧
      last.made.outcome = .failed cause ∧
      failure = .failedCase contract.name last.present cause

theorem cases_countAll (made : List Visit) (tally : Tally) :
    (tally.countAll made).cases = tally.cases := by
  induction made generalizing tally with
  | nil => rfl
  | cons visit made ih =>
    refine (ih (tally.count visit.made.outcome)).trans ?_
    cases visit.made.outcome <;> rfl

/-- The state in which the first case is run. -/
def opening (samples : List (Text × List Value)) (memory : Memory) (remembered : List Record) :
    Progress :=
  ⟨{ Tally.empty with cases := (sizes samples).prod }, memory, remembered, []⟩

theorem Accounts.explores {samples : List (Text × List Value)} {memory : Memory}
    {remembered : List Record} {tested : Option Failure × Progress} {made : List Visit}
    (accounts : Accounts world contract snapshot (combinations samples)
      (opening samples memory remembered) tested made) :
    Explores world contract snapshot samples (opening samples memory remembered)
      (tested.1, tested.2.settle world contract snapshot fun _ => true) made := by
  have fresh : (opening samples memory remembered).tally.counted = 0 := rfl
  have all : tested.2.tally.cases = (sizes samples).prod := by
    rw [accounts.tally, cases_countAll]
    rfl
  refine ⟨⟨combinations_eq_map samples, places_increasing _, fun _ => mem_places_iff⟩,
    ⟨?_, length_combinations samples⟩, accounts.inOrder, ?_, ?_, ?_, ?_⟩
  · rw [settle_tally, all]
  · rw [settle_tally, accounts.tally]
  · rw [accounts.state]
  · intro passed
    obtain ⟨called, counted⟩ := accounts.finished passed
    rw [settle_tally, all, counted, fresh, length_combinations, Nat.zero_add]
    exact ⟨called, rfl⟩
  · intro failure failed
    obtain ⟨before, last, cause, split, counted, ended, same⟩ := accounts.stopped failure failed
    rw [fresh, Nat.zero_add] at counted
    obtain ⟨later, whole⟩ := accounts.inOrder
    have here : (combinations samples)[before.length]? = some last.arguments := by
      rw [← whole, split]
      simp
    have within : before.length < (combinations samples).length :=
      (List.getElem?_eq_some_iff.mp here).1
    rw [length_combinations] at within
    rw [settle_tally, counted, all]
    exact ⟨before, last, cause, split, rfl, within, here, ended, same⟩

theorem sizes_prod_pos {samples : List (Text × List Value)}
    (sampled : List.Forall₂ (SampledFrom world memory) types samples)
    (some : ∀ entry ∈ types, (memory.viewPredicate entry.2).generate world ≠ .ok []) :
    0 < (sizes samples).prod := by
  induction sampled with
  | nil => exact Nat.one_pos
  | @cons entry sample types samples first rest ih =>
    obtain ⟨_, values, made, adopted⟩ := first
    have filled : 0 < sample.2.length := by
      rw [← adopted.length_eq, length_pos_iff]
      intro none
      exact some entry mem_cons_self (none ▸ made)
    rw [sizes, map_cons, prod_cons]
    exact Nat.mul_pos filled (ih fun other member => some other (mem_cons_of_mem _ member))

theorem test_explores (declared : contract.argumentTypes = some types)
    (generates : ∀ entry ∈ types, ∃ values,
      (memory.viewPredicate entry.2).generate world = .ok values ∧ values ≠ []) :
    ∃ samples ready, ready.written = memory.written ∧ Sampled world memory types samples ∧
      0 < (sizes samples).prod ∧
      Explores world contract snapshot samples (opening samples ready contract.remembered)
        (test world contract snapshot false memory)
        (visits world contract snapshot (combinations samples)
          (opening samples ready contract.remembered)) := by
  have order := Bindings.pairwise_mergeSort types
  have same := mergeSort_perm types fun left right => Text.le left.1 right.1
  have each : ∀ entry ∈ types.mergeSort (fun left right => Text.le left.1 right.1), ∃ values,
      (memory.viewPredicate entry.2).generate world = .ok values ∧ values ≠ [] :=
    fun entry member => generates entry (same.mem_iff.mp member)
  obtain ⟨samples, ready, generated, still, sampled⟩ := generateAll_ready contract.name rfl
    fun entry member => (each entry member).imp fun _ made => made.1
  have positive : 0 < (sizes samples).prod := by
    refine sizes_prod_pos sampled fun entry member empty => ?_
    obtain ⟨values, made, filled⟩ := each entry member
    rw [empty] at made
    cases made
    exact filled rfl
  refine ⟨samples, ready, still, ⟨_, same, order, sampled⟩, positive, ?_⟩
  let start := opening samples ready contract.remembered
  have ran : test world contract snapshot false memory =
      ((runCases world contract snapshot (combinations samples) start).1,
        (runCases world contract snapshot (combinations samples) start).2.settle world contract
          snapshot fun _ => true) := by
    have some : productSize (samples.map (·.2.length)) ≠ 0 := by
      rw [productSize_eq_prod]
      exact Nat.ne_of_gt positive
    unfold test
    simp only [declared, generated]
    rw [if_neg some, product_combinations, productSize_eq_prod]
    rfl
  rw [ran]
  exact (runCases_accounts (combinations samples) start).explores

theorem exists_of_mem_visits {cases : List Bindings} {progress : Progress} {visit : Visit}
    (member : visit ∈ visits world contract snapshot cases progress) :
    visit = .of world contract snapshot visit.arguments visit.before := by
  induction cases generalizing progress with
  | nil => cases member
  | cons arguments rest ih =>
    rcases mem_cons.mp member with same | later
    · rw [same]
      rfl
    · cases ended : (Visit.of world contract snapshot arguments progress).failure? contract with
      | none =>
        rw [ended] at later
        exact ih later
      | some failure =>
        rw [ended] at later
        cases later

theorem test_failed (failed : (test world contract snapshot false memory).1 = some failure) :
    (contract.argumentTypes = none ∧ failure = .within contract.name .noAnnotations) ∨
      ∃ types, contract.argumentTypes = some types ∧
        (GeneratingFails world contract.name types memory failure ∨
          ∃ (visit : Visit) (cause : Failure),
            visit = .of world contract snapshot visit.arguments visit.before ∧
            visit.made.outcome = .failed cause ∧
            failure = .failedCase contract.name visit.present cause) := by
  unfold test at failed
  extract_lets still at failed
  split at failed
  · next declared =>
    cases failed
    exact .inl ⟨declared, rfl⟩
  · next types declared =>
    refine .inr ⟨types, declared, ?_⟩
    extract_lets sorted at failed
    split at failed
    · next refused =>
      cases failed
      obtain ⟨entry, member, fails⟩ := generateAll_failed rfl refused
      exact .inl ⟨entry, (mergeSort_perm types _).mem_iff.mp member, fails⟩
    · cases failed
    · next samples ready _ =>
      extract_lets cases at failed
      split at failed
      · cases failed
      · rw [product_combinations] at failed
        obtain ⟨before, last, cause, split, _, ended, same⟩ :=
          (runCases_accounts (combinations samples) _).stopped failure failed
        have member : last ∈ before ++ [last] := mem_append_right before mem_cons_self
        rw [← split] at member
        exact .inr ⟨last, cause, exists_of_mem_visits member, ended, same⟩

/-!
## Results
-/

theorem lacksAnnotations_eq (failure : Failure) :
    lacksAnnotations failure = failure.restsOn .annotations := by
  unfold lacksAnnotations Failure.restsOn
  congr
  funext link
  cases link <;> rfl

theorem restsOn_of_failed {origin : Origin} {limit : Int}
    {outcome : Except Failure Value} {cause : Failure} (spares : Spares origin outcome)
    (failed : CaseOutcome.of contract limit outcome = .failed cause) :
    cause.restsOn origin = false := by
  unfold CaseOutcome.of at failed
  split at failed
  · cases failed
  · cases failed
    exact Failure.restsOn_of_isPlain rfl
  · split at failed
    · cases failed
    · cases failed
      exact Failure.restsOn_of_isPlain rfl
  · split at failed
    · cases failed
    · split at failed
      · cases failed
      · cases failed
        exact spares

theorem called_of_failed {arguments : Bindings} {progress : Progress} {cause : Failure}
    (failed : (Visit.of world contract snapshot arguments progress).made.outcome =
      .failed cause) :
    CaseOutcome.of contract snapshot.maxRuntime
      ((Visit.of world contract snapshot arguments progress).called world contract
        snapshot).outcome = .failed cause := by
  rw [outcome_of] at failed
  cases late : delay? world snapshot arguments progress.memory with
  | none =>
    rw [late] at failed
    exact failed
  | some wait =>
    rw [late] at failed
    cases failed

theorem lacksAnnotations_iff (user : world.Spares .annotations)
    (failed : (test world contract snapshot false memory).1 = some failure) :
    lacksAnnotations failure = true ↔ contract.argumentTypes = none := by
  rw [lacksAnnotations_eq]
  rcases test_failed failed with ⟨undeclared, same⟩ | ⟨types, declared, fails⟩
  · rw [same, undeclared]
    exact ⟨fun _ => rfl, fun _ => rfl⟩
  · have other : failure.restsOn .annotations = false := by
      rcases fails with ⟨entry, _, cause, refused, named⟩ | ⟨visit, cause, made, ended, same⟩
      · have spares : Spares .annotations ((memory.viewPredicate entry.2).generate world) :=
          (Predicate.allows_of_ne (by decide) _).generate_spares user.hooks
        rcases named with ⟨same, _⟩ | same
        · rw [same]
          exact spares.of_error refused
        · rw [same, Failure.restsOn_within]
          exact spares.of_error refused
      · rw [same, Failure.restsOn_failedCase]
        rw [made] at ended
        exact restsOn_of_failed
          (Contract.callBound_spares user (by decide) _ (by decide) snapshot _ _)
          (called_of_failed ended)
    simp [other, declared]

def Generates (world : World) (contract : Contract) : Prop :=
  ∀ entry ∈ contract.argumentTypes.getD [], ∀ (memory : Memory) (reason : Text),
    (memory.viewPredicate entry.2).generate world ≠ .error (.crash reason)

theorem test_ne_crash (generates : Generates world contract) (reason : Text) :
    (test world contract snapshot false memory).1 ≠ some (.crash reason) := by
  intro crashed
  rcases test_failed crashed with ⟨_, same⟩ | ⟨types, declared, fails | ⟨_, _, _, _, same⟩⟩
  · cases same
  · obtain ⟨entry, member, cause, refused, ⟨same, _⟩ | same⟩ := fails
    · rw [← same] at refused
      refine generates entry ?_ memory reason refused
      rw [declared]
      exact member
    · cases same
  · cases same

end Covenant.Testing

/-!
## Runs
-/

namespace Covenant.Workspace

open List

open Stateful

/-- User code does not fail because of a check of the engine: neither the host nor the samples of
declared classes. -/
structure Spares (origin : Origin) (workspace : Workspace) : Prop where
  host : workspace.host.Spares origin
  samples : ∀ declaration ∈ workspace.classes, ∀ made ∈ declaration.samples,
    Covenant.Spares origin made

theorem Spares.world {origin : Origin} {workspace : Workspace} (user : workspace.Spares origin)
    (other : origin ≠ .receiver) : workspace.world.Spares origin :=
  World.of_spares user.host other user.samples

def tested (workspace : Workspace) (contract : Contract) : Option Failure × Testing.Progress :=
  Testing.test workspace.world contract (workspace.snapshotOf contract) false workspace.memory

def afterTest (workspace : Workspace) (number : Nat) (contract : Contract) : Workspace :=
  let progress := (workspace.tested contract).2
  { workspace with
    contracts := workspace.contracts.set number
      { contract with remembered := progress.remembered }
    memory := progress.memory }

/-- The test of a function with argument types fails, and its failure is taken for the want of
them: user code passed one on. -/
def Mistaken (workspace : Workspace) (contract : Contract) : Prop :=
  contract.argumentTypes ≠ none ∧ ∃ failure, (workspace.tested contract).1 = some failure ∧
    failure.restsOn .annotations = true

/-- A result tells what the test of a function came to. -/
structure Reported (workspace : Workspace) (contract : Contract) (result : TestResult) : Prop where
  function : result.target.function = contract.name
  counters :
    let tally := (workspace.tested contract).2.tally
    result.cases = tally.cases ∧ result.executed = tally.executed ∧
      result.skipped = tally.skipped ∧ result.timedOut = tally.timedOut
  passed : result.verdict = .passed ↔
    (workspace.tested contract).1 = none ∧ 0 < (workspace.tested contract).2.tally.executed
  untested : result.verdict = .untested ↔
    ((workspace.tested contract).1 = none ∧ (workspace.tested contract).2.tally.executed = 0) ∨
      contract.argumentTypes = none ∨ workspace.Mistaken contract
  failed : result.verdict = .failed ↔ (workspace.tested contract).1 ≠ none ∧
    contract.argumentTypes ≠ none ∧ ¬ workspace.Mistaken contract

/-- One result for each function, in order; every function is tested in the workspace that the
tests before it leave. -/
inductive Reports : Workspace → List Nat → List TestResult → Workspace → Prop where
  | nil {workspace} : Reports workspace [] [] workspace
  | cons {workspace number contract result numbers results after} :
      workspace.contractAt? number = some contract → Reported workspace contract result →
      Reports (workspace.afterTest number contract) numbers results after →
      Reports workspace (number :: numbers) (result :: results) after

theorem not_mistaken_of_spares {workspace : Workspace} {contract : Contract}
    (user : workspace.Spares .annotations) : ¬ workspace.Mistaken contract := by
  rintro ⟨declared, failure, ended, rests⟩
  rw [← Testing.lacksAnnotations_eq] at rests
  exact declared ((Testing.lacksAnnotations_iff (user.world (by decide)) ended).mp rests)

theorem reported_resultOf (workspace : Workspace) (contract : Contract) (location : Location) :
    Reported workspace contract (Testing.resultOf contract location (workspace.tested contract).1
      (workspace.tested contract).2.tally) := by
  cases ended : (workspace.tested contract).1 with
  | none =>
    have declared : contract.argumentTypes ≠ none := by
      intro undeclared
      simp only [tested, Testing.test, undeclared] at ended
      cases ended
    have right : ¬ workspace.Mistaken contract := by
      rintro ⟨_, failure, failed, _⟩
      rw [ended] at failed
      cases failed
    by_cases nothing : (workspace.tested contract).2.tally.executed = 0
    · constructor <;> simp [Testing.resultOf, ended, nothing]
    · constructor <;>
        simp [Testing.resultOf, ended, nothing, declared, right, Nat.pos_of_ne_zero]
  | some failure =>
    have mistaken : workspace.Mistaken contract ↔
        contract.argumentTypes ≠ none ∧ Testing.lacksAnnotations failure = true := by
      simp [Mistaken, ended, Testing.lacksAnnotations_eq]
    have lacks : contract.argumentTypes = none → Testing.lacksAnnotations failure = true := by
      intro undeclared
      simp only [tested, Testing.test, undeclared] at ended
      cases ended
      rfl
    cases missing : Testing.lacksAnnotations failure with
    | true =>
      have either : contract.argumentTypes = none ∨ workspace.Mistaken contract := by
        rw [mistaken, missing]
        exact (em _).imp_right (⟨·, rfl⟩)
      constructor <;> simp [Testing.resultOf, ended, missing, either]
      exact either.resolve_left
    | false =>
      have declared : contract.argumentTypes ≠ none := by
        intro undeclared
        rw [lacks undeclared] at missing
        cases missing
      have right : ¬ workspace.Mistaken contract := by simp [mistaken, missing]
      constructor <;> simp [Testing.resultOf, ended, missing, declared, right]

theorem testNumber_run {workspace : Workspace} {number : Nat} {contract : Contract}
    (known : workspace.contractAt? number = some contract)
    (generates : Testing.Generates workspace.world contract) :
    (testNumber number false).run workspace =
      (.ok (contract, (workspace.tested contract).1, (workspace.tested contract).2.tally),
        workspace.afterTest number contract) := by
  have calm : ∀ reason, (workspace.tested contract).1 ≠ some (.crash reason) :=
    Testing.test_ne_crash generates
  simp only [testNumber]
  rw [run_bind_of_ok (run_get workspace), known]
  dsimp only
  rw [replaceContract, run_bind_of_ok (run_modify _ _), run_bind_of_ok (run_modify _ _)]
  split
  · next reason crashed => exact absurd crashed (calm reason)
  · rfl

theorem contractAt?_afterTest {workspace : Workspace} {number other : Nat}
    {contract found : Contract} (known : workspace.contractAt? number = some contract)
    (same : workspace.contractAt? other = some found) :
    ∃ remembered, (workspace.afterTest number contract).contractAt? other =
      some { found with remembered := remembered } := by
  unfold contractAt? afterTest at *
  rw [List.getElem?_set]
  split
  · next here =>
    subst here
    rw [known] at same
    cases same
    rw [if_pos (List.getElem?_eq_some_iff.mp known).1]
    exact ⟨_, rfl⟩
  · exact ⟨found.remembered, same⟩

theorem run_reports {workspace : Workspace} {numbers : List Nat}
    (known : ∀ number ∈ numbers, ∃ contract, workspace.contractAt? number = some contract ∧
      Testing.Generates workspace.world contract) :
    ∃ results after, (Workspace.run numbers false).run workspace = (.ok results, after) ∧
      Reports workspace numbers results after := by
  induction numbers generalizing workspace with
  | nil => exact ⟨[], workspace, rfl, .nil⟩
  | cons number numbers ih =>
    obtain ⟨contract, found, generates⟩ := known number mem_cons_self
    have still : ∀ other ∈ numbers, ∃ later,
        (workspace.afterTest number contract).contractAt? other = some later ∧
          Testing.Generates (workspace.afterTest number contract).world later := by
      intro other member
      obtain ⟨later, same, made⟩ := known other (mem_cons_of_mem number member)
      obtain ⟨remembered, kept⟩ := contractAt?_afterTest found same
      exact ⟨_, kept, made⟩
    obtain ⟨results, after, ran, reports⟩ := ih still
    refine ⟨_ :: results, after, ?_, .cons found
      (reported_resultOf workspace contract (workspace.host.locationOf contract.function))
      reports⟩
    simp only [Workspace.run, Bool.false_eq_true, ↓reduceIte] at ran ⊢
    rw [mapM_cons, bind_assoc, run_bind_of_ok (testNumber_run found generates)]
    rw [bind_assoc, run_bind_of_ok (run_get _), run_bind_of_ok (run_pure _ _),
      run_bind_of_ok ran]
    rfl

/-- Generated tests call a function with the combinations of its samples in lexicographic order,
up to the first call that fails, and account for every call; a run has one result for each
function. Its verdict is that of the test, except that a failure for want of argument types which
user code passes on makes a function untested. Where user code passes on none, nothing is mistaken
for one. -/
theorem tests_account_for_every_case (world : World) (contract : Contract) (snapshot : Snapshot)
    (memory : Memory) (workspace : Workspace) :
    (∀ types : List (Text × Predicate), contract.argumentTypes = some types →
      (∀ entry ∈ types, ∃ values,
        (memory.viewPredicate entry.2).generate world = .ok values ∧ values ≠ []) →
      ∃ samples ready, ready.written = memory.written ∧
        Testing.Sampled world memory types samples ∧ 0 < (Testing.sizes samples).prod ∧
        Testing.Explores world contract snapshot samples
          (Testing.opening samples ready contract.remembered)
          (Testing.test world contract snapshot false memory)
          (Testing.visits world contract snapshot (Testing.combinations samples)
            (Testing.opening samples ready contract.remembered))) ∧
    (∀ numbers : List Nat,
      (∀ number ∈ numbers, ∃ known, workspace.contractAt? number = some known ∧
        Testing.Generates workspace.world known) →
      ∃ results after, (Workspace.run numbers false).run workspace = (.ok results, after) ∧
        Reports workspace numbers results after) ∧
    (workspace.Spares .annotations → ¬ workspace.Mistaken contract) :=
  ⟨fun _ declared generates => Testing.test_explores declared generates,
    fun _ known => run_reports known, not_mistaken_of_spares⟩

def riskyTypes : List (Text × Predicate) :=
  -- The first one is too large, and the function crashes on the third.
  [("n", .oneOf [.ofWord 700, .ofWord 7, .ofWord (-1), .ofWord 8])]

def risky : Contract :=
  { (Contract.wrap Sample.host (.function Sample.intFunction (.host "Panics"))
      [.parameters ["n"], .requires "n < 100"]).toOption.get (by decide +kernel) with
    argumentTypes := some riskyTypes }

/-- A program in which every function gives a seven back and crashes on anything else. -/
def sevenHost : Host :=
  { Sample.host with
    call := fun _ arguments memory =>
      (if arguments matches [.int _ 7] then .returned arguments else .crashed "not seven", memory)
    callMethod := fun _ _ arguments memory => (.returned arguments, memory) }

theorem sevenHost_spares {origin : Origin} : sevenHost.Spares origin := by
  refine ⟨fun name arguments memory failure failed => ?_, nofun⟩
  dsimp only [sevenHost] at failed
  split at failed <;> cases failed

def bench : Workspace :=
  { initial sevenHost with contracts := [risky, { risky with argumentTypes := none }] }

theorem risky_samples (memory : Memory) : ∀ entry ∈ riskyTypes, ∃ values,
    (memory.viewPredicate entry.2).generate bench.world = .ok values ∧ values ≠ [] := by
  intro entry member
  rw [mem_singleton.mp member]
  unfold Memory.viewPredicate
  split <;> exact ⟨_, rfl, cons_ne_nil _ _⟩

theorem bench_known : ∀ number ∈ [0, 1, 0], ∃ contract, bench.contractAt? number = some contract ∧
    Testing.Generates bench.world contract := by
  have first : Testing.Generates bench.world risky := by
    intro entry member memory reason crashed
    obtain ⟨values, made, _⟩ := risky_samples memory entry member
    rw [made] at crashed
    cases crashed
  have second : Testing.Generates bench.world { risky with argumentTypes := none } := by
    intro entry member
    cases member
  intro number member
  simp only [mem_cons, not_mem_nil, or_false] at member
  rcases member with same | same | same <;> rw [same]
  · exact ⟨_, rfl, first⟩
  · exact ⟨_, rfl, second⟩
  · exact ⟨_, rfl, first⟩

/-- A case that is skipped, one that is executed and one that fails; the last one is not called. -/
theorem tests_account_for_every_case_risky :
    (∃ samples ready, ready.written = bench.memory.written ∧
      Testing.Sampled bench.world bench.memory riskyTypes samples ∧
      0 < (Testing.sizes samples).prod ∧
      Testing.Explores bench.world risky (bench.snapshotOf risky) samples
        (Testing.opening samples ready risky.remembered) (bench.tested risky)
        (Testing.visits bench.world risky (bench.snapshotOf risky)
          (Testing.combinations samples) (Testing.opening samples ready risky.remembered))) ∧
    (bench.tested risky).1.isSome = true ∧ (bench.tested risky).2.tally.counted = 2 ∧
    (bench.tested risky).2.tally.cases = 4 ∧
    (∃ results after, (Workspace.run [0, 1, 0] false).run bench = (.ok results, after) ∧
      Reports bench [0, 1, 0] results after) ∧
    bench.Spares .annotations ∧ ¬ bench.Mistaken risky := by
  have user : bench.Spares .annotations := by
    refine ⟨sevenHost_spares, ?_⟩
    intro declaration member
    cases member
  obtain ⟨explores, reports, right⟩ := tests_account_for_every_case bench.world risky
    (bench.snapshotOf risky) bench.memory bench
  exact ⟨explores riskyTypes rfl (risky_samples bench.memory), by decide +kernel,
    by decide +kernel, by decide +kernel, reports [0, 1, 0] bench_known, user, right user⟩

/-- A program in which every call fails in the same way. -/
def failingHost (failure : Failure) : Host :=
  { Sample.host with call := fun _ _ memory => (.failed failure, memory) }

def failing : Contract :=
  { (Contract.wrap Sample.host ((Sample.functionValue? "Fails").get (by decide +kernel))
      [.parameters ["n"]]).toOption.get (by decide +kernel) with
    argumentTypes := some [("n", .oneOf [.ofWord 1, .ofWord 2])] }

/-- A function with argument types whose own tests lack theirs: its failure makes it untested. -/
theorem failed_test_reported_untested :
    let workspace : Workspace :=
      { initial (failingHost (.within "inner" .noAnnotations)) with contracts := [failing] }
    failing.argumentTypes.isSome = true ∧ (workspace.tested failing).1.isSome = true ∧
      ((Workspace.run [0] false).run workspace).1.toOption.map (·.map TestResult.verdict) =
        some [.untested] := by
  decide +kernel

/-- Writing into a list that must start with one. The list stands for two samples. -/
def overwriting : Contract :=
  let sample := Value.list .anySlice 1 [.ofWord 1]
  { (Contract.wrap Sample.host ((Sample.functionValue? "SetAny").get (by decide +kernel))
      [.parameters ["xs"], .requires "xs[0] == 1"]).toOption.get (by decide +kernel) with
    argumentTypes := some [("xs", .oneOf [sample, sample])] }

-- Cases share their samples: the second one finds what the first one wrote, and is skipped.
example :
    let tally := ((initial Sample.host).tested overwriting).2.tally
    tally.cases = 2 ∧ tally.executed = 1 ∧ tally.skipped = 1 := by
  decide +kernel

end Covenant.Workspace
