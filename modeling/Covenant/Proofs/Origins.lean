import Covenant.Proofs.Acceptance
import Covenant.Proofs.Computation

/-!
# Where failures come from

A few failures are made by one check of the engine alone. Everything else may pass them on, where
code of the user fails with them, but never makes them. What a failure rests on counts as well.
-/

set_option autoImplicit false

namespace Covenant

open List

attribute [local simp] Predicate.generate Predicate.test

/-- A check whose failures nothing else in the engine makes. -/
inductive Origin where
  /-- The receiver's type, where no class is bound. -/
  | receiver
  | precondition
  | timeLimit
  /-- The argument types that a test needs. -/
  | annotations
  deriving DecidableEq

def Origin.makes : Origin → Failure → Bool
  | .receiver, .unboundSelf => true
  | .precondition, .entryConditions .. => true
  | .timeLimit, .timeout .. => true
  | .annotations, .noAnnotations => true
  | _, _ => false

namespace Failure

def restsOn (failure : Failure) (origin : Origin) : Bool := failure.chain.any origin.makes

/-- Failures of no such check that rest on no other failure. -/
def isPlain : Failure → Bool
  | .unboundSelf | .entryConditions .. | .timeout .. | .noAnnotations | .argumentType ..
  | .returnType .. | .failedCase .. | .within .. => false
  | _ => true

variable {failure : Failure} {origin : Origin}

theorem isUnboundSelf_eq : failure.isUnboundSelf = failure.restsOn .receiver := by
  unfold isUnboundSelf restsOn
  congr
  funext link
  cases link <;> rfl

theorem isEntryConditions_eq : failure.isEntryConditions = failure.restsOn .precondition := by
  unfold isEntryConditions restsOn
  congr
  funext link
  cases link <;> rfl

theorem isTimeout_eq : failure.isTimeout = failure.restsOn .timeLimit := by
  unfold isTimeout restsOn
  congr
  funext link
  cases link <;> rfl

theorem isPlain_of_isComputed (computed : failure.isComputed = true) :
    failure.isPlain = true := by
  cases failure <;> first | rfl | cases computed

theorem restsOn_of_isPlain (plain : failure.isPlain = true) : failure.restsOn origin = false := by
  cases failure <;> cases plain <;> cases origin <;> rfl

variable {function name type : Text} {value : Value} {arguments : Bindings} {cause : Failure}

theorem restsOn_within : (within name cause).restsOn origin = cause.restsOn origin := by
  cases origin <;> rfl

theorem restsOn_argumentType :
    (argumentType function name value type (some cause)).restsOn origin =
      cause.restsOn origin := by
  cases origin <;> rfl

theorem restsOn_returnType :
    (returnType function value type (some cause)).restsOn origin = cause.restsOn origin := by
  cases origin <;> rfl

theorem restsOn_failedCase :
    (failedCase function arguments cause).restsOn origin = cause.restsOn origin := by
  cases origin <;> rfl

/-- To any other check, a failed precondition is what kept it from being evaluated. -/
theorem restsOn_entryConditions (ordinary : origin ≠ .precondition) {found : Option Failure} :
    (entryConditions function name arguments found).restsOn origin =
      found.any (·.restsOn origin) := by
  cases origin with
  | precondition => exact absurd rfl ordinary
  | _ => cases found <;> rfl

end Failure

def Spares (origin : Origin) {α : Type} : Except Failure α → Prop
  | .ok _ => True
  | .error failure => failure.restsOn origin = false

variable {origin : Origin}

namespace Spares

variable {α β : Type}

theorem ok (value : α) : Spares origin (.ok value) := trivial

variable {failure : Failure}

theorem error (other : failure.restsOn origin = false) :
    Spares origin (.error failure : Except Failure α) := other

theorem made (plain : failure.isPlain = true) : Spares origin (.error failure : Except Failure α) :=
  Failure.restsOn_of_isPlain plain

theorem unboundSelf (other : origin ≠ .receiver) :
    Spares origin (.error .unboundSelf : Except Failure α) := by
  cases origin with
  | receiver => exact absurd rfl other
  | _ => rfl

theorem of_error {result : Except Failure α} (spares : Spares origin result)
    (failed : result = .error failure) : failure.restsOn origin = false := by
  rw [failed] at spares
  exact spares

theorem bind {first : Except Failure α} {next : α → Except Failure β}
    (begins : Spares origin first)
    (goesOn : ∀ value, first = .ok value → Spares origin (next value)) :
    Spares origin (first >>= next) := by
  cases first with
  | error failure => exact begins
  | ok value => exact goesOn value rfl

theorem map {result : Except Failure α} (spares : Spares origin result) (change : α → β) :
    Spares origin (change <$> result) := by
  cases result with
  | error failure => exact spares
  | ok value => exact .ok _

theorem forM {step : α → Except Failure Unit} {items : List α}
    (each : ∀ item ∈ items, Spares origin (step item)) : Spares origin (items.forM step) := by
  induction items with
  | nil => exact ok ()
  | cons item items ih =>
    refine bind (each item mem_cons_self) ?_
    intro _ _
    exact ih fun other member => each other (mem_cons_of_mem item member)

theorem mapM {step : α → Except Failure β} {items : List α}
    (each : ∀ item ∈ items, Spares origin (step item)) : Spares origin (items.mapM step) := by
  induction items with
  | nil => exact ok []
  | cons item items ih =>
    rw [mapM_cons]
    refine bind (each item mem_cons_self) ?_
    intro first _
    refine bind (ih fun other member => each other (mem_cons_of_mem item member)) ?_
    intro rest _
    exact ok (first :: rest)

theorem refuse (predicate : Predicate) (value : Value) (reason : Text) :
    Spares origin (.error (predicate.refuse value reason) : Except Failure α) := made rfl

end Spares

/-!
## Tests and samples
-/

theorem runStages_spares (value : Value) (number : Float) (stages : List Stage) :
    Spares origin (runStages value number stages) := by
  refine .forM fun stage _ => ?_
  split
  · exact .ok ()
  · exact .refuse _ _ _

theorem NumberClass.testArray_spares (family : NumberClass) (numbers : List Float) :
    Spares origin (family.testArray numbers) := by
  refine .forM fun stage _ => .forM fun number _ => ?_
  split
  · exact .ok ()
  · exact .refuse _ _ _

theorem NumberClass.test_spares (family : NumberClass) (value : Value) :
    Spares origin (family.test value) := by
  rw [test]
  split
  · cases family <;> exact .refuse _ _ _
  · exact runStages_spares _ _ _

theorem Interval.check_spares (interval : Interval) (low high number : Float) :
    Spares origin (interval.check low high number) := by
  unfold check
  extract_lets refuse
  split
  · exact .refuse _ _ _
  · split
    · exact .refuse _ _ _
    · split
      · exact .refuse _ _ _
      · exact .ok ()

theorem Interval.test_spares (interval : Interval) (low high : Float) (value : Value) :
    Spares origin (interval.test low high value) := by
  rw [test]
  split
  · exact .refuse _ _ _
  · exact .bind (runStages_spares _ _ _) (fun _ _ => interval.check_spares low high _)

theorem Interval.testArray_spares (interval : Interval) (low high : Float)
    (numbers : List Float) : Spares origin (interval.testArray low high numbers) := by
  exact .bind (NumberClass.testArray_spares _ numbers) fun _ _ =>
    .forM fun number _ => interval.check_spares low high number

theorem TextClass.test_spares (family : TextClass) (value : Value) :
    Spares origin (family.test value) := by
  rw [test]
  split
  · exact .refuse _ _ _
  · split
    · exact .ok ()
    · exact .refuse _ _ _

/-- The tests and samples of the registered classes do not fail because of a check. -/
def World.HooksSpare (origin : Origin) (world : World) : Prop :=
  ∀ type info, ClassTable.find? world.classes type = some info →
    (∀ test ∈ info.test, ∀ value, Spares origin (test value)) ∧
      ∀ samples ∈ info.generate, Spares origin samples

namespace World

variable {world : World}

theorem testClass_spares (hooks : world.HooksSpare origin) (type : HostType) (value : Value) :
    Spares origin (world.testClass type value) := by
  rw [testClass]
  split
  · exact .refuse _ _ _
  · split
    · refine .forM fun ancestor _ => ?_
      cases found : ClassTable.hook? world.classes ancestor with
      | none => exact .ok ()
      | some test =>
        obtain ⟨info, known, own⟩ := Option.bind_eq_some_iff.mp found
        exact (hooks ancestor info known).1 test own value
    · exact .refuse _ _ _

theorem classSamples_spares (hooks : world.HooksSpare origin) (type : HostType) :
    Spares origin (world.classSamples type) := by
  rw [classSamples]
  split
  · next samples found =>
    obtain ⟨ancestor, _, own⟩ := exists_of_findSome?_eq_some found
    obtain ⟨info, known, own⟩ := Option.bind_eq_some_iff.mp own
    exact (hooks ancestor info known).2 samples own
  · exact .made rfl

end World

/-- The receiver's type stands nowhere in a type, where failures for want of a class matter. -/
def Predicate.Allows (origin : Origin) (predicate : Predicate) : Prop :=
  predicate.Throughout fun part => origin = .receiver → part ≠ .self

namespace Predicate

variable {predicate : Predicate} {members elements : List Predicate} {value : Value}
  {missing : Text → Failure}

theorem sizeOf_lt_of_mem_parts {part : Predicate} (member : part ∈ predicate.parts) :
    sizeOf part < sizeOf predicate := by
  have inside (members : List Predicate) (listed : part ∈ members) :
      sizeOf part < sizeOf members := sizeOf_lt_of_mem listed
  cases predicate with
  | unchecked element | array _ element =>
    cases element with
    | none => cases member
    | some inner => rw [mem_singleton.mp member]; simp; omega
  | complement inner | list inner => rw [mem_singleton.mp member]; simp
  | dict key value =>
    rcases mem_pair.mp member with same | same
    · rw [same, Predicate.dict.sizeOf_spec]
      omega
    · rw [same, Predicate.dict.sizeOf_spec]
      omega
  | allOf members | anyOf members | tuple members =>
    have := inside members member
    simp
    omega
  | parameters entries allMandatory =>
    obtain ⟨⟨name, inner⟩, listed, same⟩ := mem_map.mp member
    have smaller := sizeOf_lt_of_mem listed
    rw [← same]
    simp at smaller ⊢
    omega
  | _ => cases member

theorem parts_induction {motive : Predicate → Prop}
    (step : ∀ predicate, (∀ part ∈ predicate.parts, motive part) → motive predicate)
    (predicate : Predicate) : motive predicate :=
  step predicate fun part _ => parts_induction step part
termination_by sizeOf predicate
decreasing_by exact sizeOf_lt_of_mem_parts ‹_›

theorem allows_of_ne (other : origin ≠ .receiver) (predicate : Predicate) :
    predicate.Allows origin := by
  induction predicate using parts_induction with
  | step predicate ih => exact .intro (fun same => absurd same other) ih

variable {world : World}

theorem testAll_spares (each : ∀ member ∈ members, Spares origin (member.test world value)) :
    Spares origin (testAll world members value) := by
  induction members with
  | nil => exact .ok ()
  | cons member members ih =>
    rw [testAll]
    refine .bind (each member mem_cons_self) ?_
    intro _ _
    exact ih fun other inside => each other (mem_cons_of_mem member inside)

theorem testTuple_spares {items : List Value}
    (each : ∀ element ∈ elements, ∀ item, Spares origin (element.test world item)) :
    Spares origin (testTuple world elements items) := by
  induction elements generalizing items with
  | nil => exact .ok ()
  | cons element elements ih =>
    cases items with
    | nil => exact .ok ()
    | cons item items =>
      rw [testTuple]
      refine .bind (each element mem_cons_self item) ?_
      intro _ _
      exact ih fun other inside => each other (mem_cons_of_mem element inside)

theorem testNamed_spares {declared : List (Text × Predicate)} {name : Text}
    {outcome : Except Failure Unit}
    (each : ∀ entry ∈ declared, Spares origin (entry.2.test world value))
    (known : testNamed world declared name value = some outcome) : Spares origin outcome := by
  induction declared with
  | nil => cases known
  | cons entry declared ih =>
    obtain ⟨label, predicate⟩ := entry
    rw [testNamed] at known
    split at known
    · cases known
      exact each (label, predicate) mem_cons_self
    · exact ih (fun other inside => each other (mem_cons_of_mem _ inside)) known

/-- Tests pass on what the tests of classes fail with, and ask for a class only where the
receiver's type is. -/
theorem Allows.test_spares (hooks : world.HooksSpare origin) (allows : predicate.Allows origin)
    (value : Value) : Spares origin (predicate.test world value) := by
  induction allows generalizing value with
  | @intro predicate itself within ih =>
  cases predicate with
  | self =>
    simp only [test]
    exact .unboundSelf fun same => itself same rfl
  | number family => simpa using family.test_spares value
  | range low high interval => simpa using interval.test_spares low high value
  | text family => simpa using family.test_spares value
  | generic type => simpa using world.testClass_spares hooks type value
  | allOf members =>
    simp only [test]
    exact testAll_spares fun member inside => ih member inside value
  | complement member =>
    simp only [test]
    split
    · exact .refuse _ _ _
    · exact .ok ()
  | list element =>
    simp only [test]
    split
    · exact .refuse _ _ _
    · exact .forM fun item _ => ih element mem_cons_self item
  | tuple elements =>
    simp only [test]
    split
    · exact .refuse _ _ _
    · split
      · exact testTuple_spares fun element inside item => ih element inside item
      · exact .refuse _ _ _
  | dict key element =>
    simp only [test]
    split
    · exact .refuse _ _ _
    · refine .forM fun entry _ => .bind (ih key mem_cons_self entry.1) ?_
      intro _ _
      exact ih element (mem_pair.mpr (.inr rfl)) entry.2
  | parameters declared allMandatory =>
    simp only [test]
    split
    · refine .bind (.forM fun entry _ => ?_) ?_
      · split
        · exact .refuse _ _ _
        · split
          · exact .refuse _ _ _
          · next outcome known =>
            exact testNamed_spares
              (fun other inside => ih other.2 (mem_map_of_mem inside) entry.2) known
      · intro _ _
        split
        · exact .refuse _ _ _
        · exact .ok ()
    · exact .refuse _ _ _
  | array dimensions element =>
    simp only [test]
    split
    · split <;> exact .refuse _ _ _
    · split
      · exact .refuse _ _ _
      · split
        · exact .refuse _ _ _
        · split
          · exact .ok ()
          · exact NumberClass.testArray_spares _ _
          · exact Interval.testArray_spares _ _ _ _
          · next other _ _ =>
            exact .forM fun number _ => ih other mem_cons_self (.ofFloat number)
  | constant only =>
    simp only [test]
    split
    · exact .made rfl
    · split
      · exact .ok ()
      · exact .refuse _ _ _
  | unchecked samples => exact .ok ()
  | _ =>
    simp only [test]
    split
    · exact .ok ()
    · exact .refuse _ _ _

theorem arraySamples_spares (dimensions : Nat) (elements : List Float)
    (accepts : Float → Bool) : Spares origin (arraySamples dimensions elements accepts) := by
  have filled (shape : List Int) (number : Float) : Spares origin (filledArray shape number) := by
    rw [filledArray]
    split
    · exact .made rfl
    · exact .ok _
  refine .bind (.mapM fun number _ => filled _ number) fun _ _ => ?_
  refine .bind (.mapM fun shape _ => filled shape _) fun _ _ => ?_
  exact .bind (filled _ _) fun _ _ => .ok _

theorem generateUnion_spares (each : ∀ member ∈ members, Spares origin (member.generate world)) :
    Spares origin (generateUnion world members) := by
  induction members with
  | nil => exact .ok none
  | cons member members ih =>
    have others := ih fun other inside => each other (mem_cons_of_mem member inside)
    rw [generateUnion]
    split
    · next failure failed =>
      split
      · exact others
      · exact (each member mem_cons_self).of_error failed
    · exact .bind others fun _ _ => .ok _

theorem generateFirsts_spares (plain : ∀ reason, (missing reason).isPlain = true)
    (each : ∀ element ∈ elements, Spares origin (element.generate world)) :
    Spares origin (generateFirsts world missing elements) := by
  induction elements with
  | nil => exact .ok []
  | cons element elements ih =>
    rw [generateFirsts]
    refine .bind (each element mem_cons_self) fun samples _ => ?_
    split
    · exact .made (plain _)
    · exact .bind (ih fun later inside => each later (mem_cons_of_mem element inside))
        fun _ _ => .ok _

theorem generateNamed_spares {entries : List (Text × Predicate)}
    (plain : ∀ reason, (missing reason).isPlain = true)
    (each : ∀ entry ∈ entries, Spares origin (entry.2.generate world)) :
    Spares origin (generateNamed world missing entries) := by
  induction entries with
  | nil => exact .ok []
  | cons entry entries ih =>
    obtain ⟨name, predicate⟩ := entry
    rw [generateNamed]
    refine .bind (each (name, predicate) mem_cons_self) fun samples _ => ?_
    split
    · exact .made (plain _)
    · exact .bind (ih fun later inside => each later (mem_cons_of_mem _ inside))
        fun _ _ => .ok _

/-- Samples pass on what the samples of classes fail with, and ask for a class likewise. -/
theorem Allows.generate_spares (hooks : world.HooksSpare origin)
    (allows : predicate.Allows origin) : Spares origin (predicate.generate world) := by
  induction allows with
  | @intro predicate itself within ih =>
  cases predicate with
  | self =>
    simp only [generate]
    exact .unboundSelf fun same => itself same rfl
  | generic type => simpa using world.classSamples_spares hooks type
  | unchecked samples =>
    cases samples with
    | none => exact .ok []
    | some inner => simpa using ih inner mem_cons_self
  | constant only =>
    simp only [generate]
    split
    · exact .made rfl
    · exact .ok _
  | allOf members | anyOf members =>
    simp only [generate]
    refine .bind (generateUnion_spares ih) fun union _ => ?_
    split
    · exact .made rfl
    · exact .ok _
  | list element =>
    simp only [generate]
    exact .bind (ih element mem_cons_self) fun _ _ => .ok _
  | tuple elements =>
    simp only [generate]
    exact .bind (generateFirsts_spares (fun _ => rfl) ih) fun _ _ => .ok _
  | dict key element =>
    simp only [generate]
    refine .bind (ih key mem_cons_self) fun _ _ => ?_
    exact .bind (ih element (mem_pair.mpr (.inr rfl))) fun _ _ => .ok _
  | parameters declared allMandatory =>
    simp only [generate]
    refine .bind (generateNamed_spares (fun _ => rfl) fun entry inside => ?_) fun _ _ => .ok _
    exact ih entry.2 (mem_map_of_mem inside)
  | array dimensions element =>
    cases element with
    | none => simpa using arraySamples_spares dimensions _ _
    | some inner =>
      simp only [generate]
      refine .bind (ih inner mem_cons_self) fun samples _ => ?_
      split
      · exact .made rfl
      · exact arraySamples_spares _ _ _
  | function => exact .made rfl
  | complement member => exact .made rfl
  | _ => exact .ok _

end Predicate

/-!
## Conversions
-/

namespace Spares

variable {α : Type}

theorem mapError_within {result : Except Failure α} (spares : Spares origin result)
    (context : Text) : Spares origin (result.mapError (.within context ·)) := by
  cases result with
  | ok value => exact .ok value
  | error failure => exact Failure.restsOn_within.trans spares

theorem elim {found : Option α} {failure : Failure} (plain : failure.isPlain = true) :
    Spares origin (found.elim (.error failure) .ok) := by
  cases found with
  | none => exact .made plain
  | some value => exact .ok value

end Spares

theorem Value.assigned_spares {host : Host} {target : HostType} {value : Value}
    {otherwise : Except Failure Value} (spares : Spares origin otherwise) :
    Spares origin (value.assigned host target otherwise) := by
  unfold assigned
  extract_lets type
  split
  · exact .ok _
  · split
    · split
      · exact .ok _
      · exact spares
    · exact spares

mutual

theorem Value.convert_spares (host : Host) (target : HostType) :
    ∀ value : Value, Spares origin (value.convert host target)
  | .nil => by
    rw [Value.convert]
    split
    · exact .ok _
    · exact .made rfl
  | .int type number | .float type number => by
    rw [Value.convert]
    split
    · exact .ok _
    · exact .elim rfl
  | .list type object items => by
    rw [Value.convert]
    refine Value.assigned_spares ?_
    split
    · exact .bind (Value.convertItems_spares host _ 0 items) fun _ _ => .ok _
    · split
      · exact .bind (Value.convertItems_spares host _ 0 items) fun _ _ => .ok _
      · exact .made rfl
    · exact .made rfl
  | .dict type object entries => by
    rw [Value.convert]
    refine Value.assigned_spares ?_
    split
    · exact .bind (Value.convertEntries_spares host _ _ [] entries) fun _ _ => .ok _
    · exact .made rfl
  | .absent type => by
    rw [Value.convert]
    refine Value.assigned_spares ?_
    split
    · exact .ok _
    · exact .ok _
    · exact .ok _
    · exact .elim rfl
    · exact .elim rfl
    · exact .made rfl
  | .bool .. | .text .. | .pointer .. | .record .. | .function .. | .predicate .. => by
    simp only [Value.convert]
    exact Value.assigned_spares (.elim rfl)

theorem Value.convertItems_spares (host : Host) (target : HostType) (position : Nat) :
    ∀ items : List Value, Spares origin (Value.convertItems host target position items)
  | [] => .ok []
  | item :: items => by
    rw [Value.convertItems]
    refine .bind ((Value.convert_spares host target item).mapError_within _) fun _ _ => ?_
    exact .bind (Value.convertItems_spares host target (position + 1) items) fun _ _ => .ok _

theorem Value.convertEntries_spares (host : Host) (keyTarget valueTarget : HostType)
    (done : List (Value × Value)) : ∀ entries : List (Value × Value),
      Spares origin (Value.convertEntries host keyTarget valueTarget done entries)
  | [] => .ok done
  | (key, value) :: entries => by
    rw [Value.convertEntries]
    refine .bind ((Value.convert_spares host keyTarget key).mapError_within _) fun _ _ => ?_
    refine .bind ((Value.convert_spares host valueTarget value).mapError_within _) fun _ _ => ?_
    exact Value.convertEntries_spares host keyTarget valueTarget _ entries

end

/-!
## Methods of predicates
-/

namespace Condition

theorem callPredicate_spares {world : World} (hooks : world.HooksSpare origin)
    {predicate : Predicate} (allows : predicate.Allows origin) (name : Text)
    (arguments : List Value) : Spares origin (callPredicate world predicate name arguments) := by
  have common : Spares origin (callPredicate.common world predicate name arguments) := by
    unfold callPredicate.common
    split
    · exact .bind (allows.test_spares hooks _) fun _ _ => .ok _
    · split
      · exact .bind (allows.generate_spares hooks) fun _ _ => .ok _
      · exact .ok _
  cases predicate with
  | number family =>
    simp only [callPredicate]
    split
    · exact .bind (family.testArray_spares _) fun _ _ => .ok _
    · exact common
  | range low high interval =>
    simp only [callPredicate]
    repeat' split
    · exact .bind (Interval.testArray_spares _ _ _ _) fun _ _ => .ok _
    · exact .ok _
    · exact .ok _
    · exact .ok _
    · exact common
  | _ => exact common

end Condition

end Covenant
