import Covenant.Proofs.Binding

/-!
# Arguments and the parameters they reach

Single parameters are served by position first, then by name, then by their defaults; what they
leave over is collected. A call is refused exactly when an argument has no place to go, when two
arguments have the same one, or when a place stays empty.
-/

set_option autoImplicit false

namespace Covenant

open List

namespace Parameters

def unknown (parameters : Parameters) (named : Bindings) : Bindings :=
  named.filter (fun entry => !parameters.positional.names.contains entry.1)

def recognised (parameters : Parameters) (named : Bindings) : Bindings :=
  named.filter (fun entry => parameters.positional.names.contains entry.1)

def unfilled (parameters : Parameters) (arguments : List Value) (named : Bindings) : Parameters :=
  (parameters.positional.drop arguments.length).filter
    (fun parameter => !(named.map Prod.fst).contains parameter.name)

/-- What a call must satisfy to be bound. -/
structure Bindable (parameters : Parameters) (arguments : List Value) (named : Bindings) :
    Prop where
  surplus : parameters.positional.length < arguments.length →
    ∃ parameter ∈ parameters, parameter.kind = .variadic
  once : ∀ parameter ∈ parameters.positional.take arguments.length,
    parameter.name ∉ named.map Prod.fst
  known : (∃ name ∈ named.map Prod.fst, name ∉ parameters.positional.names) →
    ∃ parameter ∈ parameters, parameter.kind = .keyword
  filled : ∀ parameter ∈ parameters.unfilled arguments named, parameter.default.isSome = true

def argumentsIn : ParameterKind → Value → List Value
  | .positional, value => [value]
  | .variadic, .list _ _ items => items
  | .keyword, .dict _ _ entries => entries.map Prod.snd
  | _, _ => []

def heldBy (bound : Bindings) (parameter : Parameter) : List Value :=
  (bound.lookup parameter.name).elim [] (argumentsIn parameter.kind)

/-- The arguments that bindings hold, those in collections one by one. -/
def contents (parameters : Parameters) (bound : Bindings) : List Value :=
  parameters.flatMap (heldBy bound)

/-- Where each argument of a call ends up. -/
structure Placed (parameters : Parameters) (listId dictId : ObjectId) (arguments : List Value)
    (named bound : Bindings) : Prop where
  names : bound.map Prod.fst = parameters.names
  byPosition : ∀ (place : Nat) parameter argument, parameters.positional[place]? = some parameter →
    arguments[place]? = some argument → bound.lookup parameter.name = some argument
  byName : ∀ parameter ∈ parameters.positional, ∀ argument, (parameter.name, argument) ∈ named →
    bound.lookup parameter.name = some argument
  byDefault : ∀ parameter ∈ parameters.unfilled arguments named,
    bound.lookup parameter.name = parameter.default
  surplus : ∀ parameter ∈ parameters, parameter.kind = .variadic →
    bound.lookup parameter.name =
      some (.list .anySlice listId (arguments.drop parameters.positional.length))
  collected : ∀ parameter ∈ parameters, parameter.kind = .keyword →
    bound.lookup parameter.name =
      some (dictionary dictId (parameters.unknown named.sorted))
  lossless : (parameters.contents bound).Perm (arguments ++ named.map Prod.snd ++
    (parameters.unfilled arguments named).filterMap Parameter.default)

/-!
## Arguments by position and by name
-/

theorem bindPositional_eq (parameters : Parameters) (arguments : List Value) :
    parameters.bindPositional arguments =
      (parameters.positional.names.zip arguments,
        arguments.drop parameters.positional.length) := by
  induction parameters generalizing arguments with
  | nil => simp [bindPositional, positional, names]
  | cons parameter parameters ih =>
    cases arguments with
    | nil => simp [bindPositional]
    | cons argument arguments =>
      simp only [bindPositional, ih]
      by_cases takes : parameter.kind = .positional <;> simp [takes, positional, names]

variable {parameters : Parameters}

theorem any_name_eq {name : Text} :
    parameters.any (fun parameter => parameter.name == name) =
      decide (name ∈ parameters.names) := by
  rw [Bool.eq_iff_iff]
  simp [names]

theorem hasKind_iff {kind : ParameterKind} :
    parameters.hasKind kind = true ↔ ∃ parameter ∈ parameters, parameter.kind = kind := by
  simp [hasKind]

section

variable {parameters : Parameters} {name : Text} {value : Value} {named : Bindings}

theorem recognised_cons_of_mem (takes : name ∈ parameters.positional.names) :
    parameters.recognised ((name, value) :: named) = (name, value) :: parameters.recognised named :=
  filter_cons_of_pos (by simpa using takes)

theorem unknown_cons_of_mem (takes : name ∈ parameters.positional.names) :
    parameters.unknown ((name, value) :: named) = parameters.unknown named :=
  filter_cons_of_neg (by simpa using takes)

theorem recognised_cons_of_not_mem (takes : name ∉ parameters.positional.names) :
    parameters.recognised ((name, value) :: named) = parameters.recognised named :=
  filter_cons_of_neg (by simpa using takes)

theorem unknown_cons_of_not_mem (takes : name ∉ parameters.positional.names) :
    parameters.unknown ((name, value) :: named) = (name, value) :: parameters.unknown named :=
  filter_cons_of_pos (by simpa using takes)

end

/-- Named arguments can be given out exactly when none repeats a name that is given already and
unknown ones are collected. -/
theorem bindKeywords_eq_ok_iff {given collected named : Bindings} {result : Bindings × Bindings}
    (different : (named.map Prod.fst).Nodup) :
    parameters.bindKeywords given collected named = .ok result ↔
      (∀ name ∈ named.map Prod.fst, name ∈ parameters.positional.names →
        name ∉ given.map Prod.fst) ∧
      ((∃ name ∈ named.map Prod.fst, name ∉ parameters.positional.names) →
        ∃ parameter ∈ parameters, parameter.kind = .keyword) ∧
      result = (given ++ parameters.recognised named, collected ++ parameters.unknown named) := by
  induction named generalizing given collected with
  | nil =>
    simp only [bindKeywords, recognised, unknown, map_nil, filter_nil, append_nil,
      not_mem_nil, false_and, exists_false, false_implies, implies_true, true_and,
      Except.ok.injEq]
    exact eq_comm
  | cons entry named ih =>
    obtain ⟨name, value⟩ := entry
    obtain ⟨fresh, different⟩ := nodup_cons.mp different
    simp only [bindKeywords, any_name_eq, decide_eq_true_eq, map_cons,
      forall_mem_cons, exists_mem_cons_iff]
    by_cases takes : name ∈ parameters.positional.names
    · simp only [takes, if_true, recognised_cons_of_mem takes, unknown_cons_of_mem takes,
        true_implies, not_true_eq_false, false_or]
      by_cases repeated : name ∈ given.map Prod.fst
      · have placed : (given.lookup name).isSome = true := by
          rw [Option.isSome_iff_ne_none]
          exact fun absent => Bindings.lookup_eq_none_iff_not_mem.mp absent repeated
        simp only [placed, if_true, repeated, not_true_eq_false, false_and, iff_false]
        intro refused
        cases refused
      · have placed : given.lookup name = none :=
          Bindings.lookup_eq_none_iff_not_mem.mpr repeated
        have later : (∀ other ∈ named.map Prod.fst, other ∈ parameters.positional.names →
              other ∉ (given ++ [(name, value)]).map Prod.fst) ↔
            ∀ other ∈ named.map Prod.fst, other ∈ parameters.positional.names →
              other ∉ given.map Prod.fst := by
          refine forall₂_congr fun other member => imp_congr_right fun _ => not_congr ?_
          have distinct : other ≠ name := fun same => fresh (same ▸ member)
          simp [distinct]
        simp only [placed, Option.isSome_none, Bool.false_eq_true, if_false, ih different, later,
          repeated, not_false_eq_true, true_and, append_assoc, singleton_append]
    · simp only [takes, if_false, recognised_cons_of_not_mem takes,
        unknown_cons_of_not_mem takes, false_implies, true_and, not_false_eq_true, true_or,
        true_implies]
      by_cases collects : parameters.hasKind .keyword = true
      · simp only [collects, Bool.not_true, Bool.false_eq_true, if_false, ih different,
          hasKind_iff.mp collects, implies_true, true_and, append_assoc,
          singleton_append]
      · have absent : ¬∃ parameter ∈ parameters, parameter.kind = .keyword :=
          fun found => collects (hasKind_iff.mpr found)
        simp only [Bool.not_eq_true] at collects
        simp only [collects, Bool.not_false, if_true, absent, false_and, and_false, iff_false]
        intro refused
        cases refused

/-!
## Completion
-/

section

variable {parameters : Parameters} {value? : Parameter → Option Value} {bound : Bindings}

theorem exists_assemble_iff :
    (∃ bound, parameters.assemble value? = .ok bound) ↔
      ∀ parameter ∈ parameters, (value? parameter).isSome = true := by
  have nothingMissing : requireAll
      ((parameters.filter fun parameter => (value? parameter).isNone).map (·.name)) = .ok () ↔
        ∀ parameter ∈ parameters, (value? parameter).isSome = true := by
    simp [requireAll_eq_ok_iff, Option.isSome_iff_ne_none]
  rw [← nothingMissing]
  constructor
  · rintro ⟨bound, assembled⟩
    exact (andThen_eq_ok_iff.mp assembled).1
  · intro passed
    exact ⟨_, andThen_eq_ok_iff.mpr ⟨passed, rfl⟩⟩

theorem lookup_of_assemble (different : parameters.names.Nodup)
    (assembled : parameters.assemble value? = .ok bound) {parameter : Parameter}
    (member : parameter ∈ parameters) : bound.lookup parameter.name = value? parameter := by
  have named := names_of_assemble assembled
  have supplied := exists_assemble_iff.mp ⟨bound, assembled⟩ parameter member
  obtain ⟨value, found⟩ := Option.isSome_iff_exists.mp supplied
  obtain ⟨_, made⟩ := andThen_eq_ok_iff.mp assembled
  cases made
  rw [found]
  apply Bindings.lookup_of_mem (named ▸ different)
  exact mem_filterMap.mpr ⟨parameter, member, by rw [found]; rfl⟩

end

/-!
## Whole calls
-/

def given (parameters : Parameters) (arguments : List Value) (named : Bindings) : Bindings :=
  parameters.positional.names.zip arguments ++ parameters.recognised named.sorted

section

variable {parameters : Parameters} {arguments : List Value} {named : Bindings}

variable {α β : Type} {bound : Bindings} {dictId listId : ObjectId} {parameter : Parameter}
  {kind : ParameterKind}

theorem map_fst_zip_eq_take (left : List α) (right : List β) :
    (left.zip right).map Prod.fst = left.take right.length := by
  induction left generalizing right with
  | nil => simp
  | cons first left ih => cases right <;> simp [ih]

theorem map_snd_zip_eq_take (left : List α) (right : List β) :
    (left.zip right).map Prod.snd = right.take left.length := by
  induction left generalizing right with
  | nil => simp
  | cons first left ih => cases right <;> simp [ih]

theorem mem_recognised {entry : Text × Value} :
    entry ∈ parameters.recognised named.sorted ↔
      entry ∈ named ∧ entry.1 ∈ parameters.positional.names := by
  simp [recognised, Bindings.mem_sorted]

theorem once_iff :
    (∀ name ∈ named.sorted.map Prod.fst, name ∈ parameters.positional.names →
        name ∉ (parameters.positional.names.zip arguments).map Prod.fst) ↔
      ∀ parameter ∈ parameters.positional.take arguments.length,
        parameter.name ∉ named.map Prod.fst := by
  have sorted := (Bindings.sorted_perm named).map Prod.fst
  rw [map_fst_zip_eq_take, names, ← map_take]
  constructor
  · intro free parameter member repeated
    have listed : parameter.name ∈ parameters.positional.map Parameter.name :=
      mem_map_of_mem (mem_of_mem_take member)
    exact free parameter.name (sorted.mem_iff.mpr repeated) listed (mem_map_of_mem member)
  · intro free name member _ taken
    obtain ⟨parameter, inside, rfl⟩ := mem_map.mp taken
    exact free parameter inside (sorted.mem_iff.mp member)

theorem surplus_accepted_iff :
    (!(arguments.drop parameters.positional.length).isEmpty &&
        !parameters.hasKind .variadic) = false ↔
      (parameters.positional.length < arguments.length →
        ∃ parameter ∈ parameters, parameter.kind = .variadic) := by
  rw [← hasKind_iff]
  cases parameters.hasKind .variadic <;> simp

theorem bind_eq_assemble (different : (named.map Prod.fst).Nodup)
    (surplus : parameters.positional.length < arguments.length →
      ∃ parameter ∈ parameters, parameter.kind = .variadic)
    (once : ∀ parameter ∈ parameters.positional.take arguments.length,
      parameter.name ∉ named.map Prod.fst)
    (known : (∃ name ∈ named.map Prod.fst, name ∉ parameters.positional.names) →
      ∃ parameter ∈ parameters, parameter.kind = .keyword) (listId dictId : ObjectId) :
    parameters.bind listId dictId arguments named =
      parameters.assemble (supply (parameters.given arguments named)
        (.list .anySlice listId (arguments.drop parameters.positional.length))
        (dictionary dictId (parameters.unknown named.sorted))) := by
  have sorted := (Bindings.sorted_perm named).map Prod.fst
  have keywords : parameters.bindKeywords (parameters.positional.names.zip arguments) []
      named.sorted = .ok (parameters.given arguments named, parameters.unknown named.sorted) := by
    refine (bindKeywords_eq_ok_iff (sorted.nodup_iff.mpr different)).mpr
      ⟨once_iff.mpr once, ?_, rfl⟩
    rintro ⟨name, member, strange⟩
    exact known ⟨name, sorted.mem_iff.mp member, strange⟩
  simp only [bind, bindPositional_eq, surplus_accepted_iff.mpr surplus, Bool.false_eq_true,
    if_false, keywords]
  rfl

theorem bind_succeeds_iff (different : (named.map Prod.fst).Nodup) :
    parameters.bind listId dictId arguments named = .ok bound ↔
      (parameters.positional.length < arguments.length →
        ∃ parameter ∈ parameters, parameter.kind = .variadic) ∧
      (∀ parameter ∈ parameters.positional.take arguments.length,
        parameter.name ∉ named.map Prod.fst) ∧
      ((∃ name ∈ named.map Prod.fst, name ∉ parameters.positional.names) →
        ∃ parameter ∈ parameters, parameter.kind = .keyword) ∧
      parameters.assemble (supply (parameters.given arguments named)
        (.list .anySlice listId (arguments.drop parameters.positional.length))
        (dictionary dictId (parameters.unknown named.sorted))) = .ok bound := by
  constructor
  · intro succeeded
    have sorted := (Bindings.sorted_perm named).map Prod.fst
    have opened := succeeded
    simp only [bind, bindPositional_eq] at opened
    split at opened
    · cases opened
    · next room =>
      obtain ⟨_, keywords, _⟩ := bind_eq_ok_iff.mp opened
      obtain ⟨once, known, _⟩ :=
        (bindKeywords_eq_ok_iff (sorted.nodup_iff.mpr different)).mp keywords
      have surplus := surplus_accepted_iff.mp (Bool.not_eq_true _ ▸ room)
      have once := once_iff.mp once
      have known : (∃ name ∈ named.map Prod.fst, name ∉ parameters.positional.names) →
          ∃ parameter ∈ parameters, parameter.kind = .keyword := by
        rintro ⟨name, member, strange⟩
        exact known ⟨name, sorted.mem_iff.mpr member, strange⟩
      rw [bind_eq_assemble different surplus once known] at succeeded
      exact ⟨surplus, once, known, succeeded⟩
  · rintro ⟨surplus, once, known, assembled⟩
    rwa [bind_eq_assemble different surplus once known]

theorem mem_positional :
    parameter ∈ parameters.positional ↔ parameter ∈ parameters ∧ parameter.kind = .positional := by
  simp [positional]

theorem positional_names_nodup (apart : parameters.names.Nodup) :
    parameters.positional.names.Nodup :=
  apart.sublist (filter_sublist.map Parameter.name)

theorem mem_unfilled :
    parameter ∈ parameters.unfilled arguments named ↔
      parameter ∈ parameters.positional.drop arguments.length ∧
        parameter.name ∉ named.map Prod.fst := by
  simp [unfilled]

theorem map_fst_recognised :
    (parameters.recognised named.sorted).map Prod.fst =
      (named.sorted.map Prod.fst).filter parameters.positional.names.contains := by
  rw [recognised, filter_map]
  rfl

theorem lookup_given_eq_none_iff (apart : parameters.names.Nodup)
    (member : parameter ∈ parameters.positional) :
    (parameters.given arguments named).lookup parameter.name = none ↔
      parameter ∈ parameters.unfilled arguments named := by
  have listed : parameter.name ∈ parameters.positional.names := mem_map_of_mem member
  have split := take_append_drop arguments.length parameters.positional
  have byPosition : parameter.name ∈ parameters.positional.names.take arguments.length ↔
      parameter ∉ parameters.positional.drop arguments.length := by
    have distinct := positional_names_nodup apart
    rw [names, ← split, map_append] at distinct
    rw [names, ← map_take]
    constructor
    · intro early late
      exact disjoint_of_nodup_append distinct early (mem_map_of_mem late)
    · intro early
      rw [← split] at member
      exact mem_map_of_mem ((mem_append.mp member).resolve_right early)
  rw [Bindings.lookup_eq_none_iff_not_mem, mem_unfilled, given, map_append,
    map_fst_zip_eq_take, map_fst_recognised, mem_append, byPosition, mem_filter,
    ((Bindings.sorted_perm named).map Prod.fst).mem_iff]
  simp [listed, -mem_map]

theorem given_names_nodup (apart : parameters.names.Nodup)
    (different : (named.map Prod.fst).Nodup)
    (once : ∀ parameter ∈ parameters.positional.take arguments.length,
      parameter.name ∉ named.map Prod.fst) :
    ((parameters.given arguments named).map Prod.fst).Nodup := by
  have sorted := (Bindings.sorted_perm named).map Prod.fst
  rw [given, map_append, map_fst_zip_eq_take, map_fst_recognised, names, ← map_take]
  refine nodup_append'.mpr ⟨?_, (sorted.nodup_iff.mpr different).filter _, ?_⟩
  · exact (positional_names_nodup apart).sublist ((take_sublist _ _).map Parameter.name)
  · intro name early late
    obtain ⟨parameter, inside, rfl⟩ := mem_map.mp early
    exact once parameter inside (sorted.mem_iff.mp (mem_filter.mp late).1)

theorem exists_bind_iff (apart : parameters.names.Nodup) (different : (named.map Prod.fst).Nodup)
    (listId dictId : ObjectId) :
    (∃ bound, parameters.bind listId dictId arguments named = .ok bound) ↔
      parameters.Bindable arguments named := by
  simp only [bind_succeeds_iff different, exists_and_left, exists_assemble_iff]
  constructor
  · rintro ⟨surplus, once, known, supplied⟩
    refine ⟨surplus, once, known, ?_⟩
    intro parameter missing
    have member := mem_of_mem_drop (mem_unfilled.mp missing).1
    obtain ⟨declared, kind⟩ := mem_positional.mp member
    have found := supplied parameter declared
    simpa [supply, kind, (lookup_given_eq_none_iff apart member).mpr missing] using found
  · rintro ⟨surplus, once, known, filled⟩
    refine ⟨surplus, once, known, ?_⟩
    intro parameter declared
    cases kind : parameter.kind with
    | variadic => simp [supply, kind]
    | keyword => simp [supply, kind]
    | positional =>
      have member := mem_positional.mpr ⟨declared, kind⟩
      cases found : (parameters.given arguments named).lookup parameter.name with
      | some value => simp [supply, kind, found]
      | none =>
        have missing := (lookup_given_eq_none_iff apart member).mp found
        simpa [supply, kind, found] using filled parameter missing

/-!
## Nothing is lost
-/

theorem filterMap_lookup_perm {entries : Bindings} {labels : List Text} (apart : labels.Nodup)
    (different : (entries.map Prod.fst).Nodup)
    (listed : ∀ name ∈ entries.map Prod.fst, name ∈ labels) :
    (labels.filterMap (entries.lookup ·)).Perm (entries.map Prod.snd) := by
  have firsts : (labels.filterMap fun name => (entries.lookup name).map (name, ·)).map Prod.fst =
      labels.filter fun name => (entries.lookup name).isSome := by
    clear apart listed
    induction labels with
    | nil => rfl
    | cons name labels ih =>
      cases found : entries.lookup name with
      | none => rw [filterMap_cons, filter_cons, found, ← ih]; rfl
      | some value => rw [filterMap_cons, filter_cons, found]; exact congrArg _ ih
  have pairs : (labels.filterMap fun name => (entries.lookup name).map (name, ·)).Perm entries := by
    refine (perm_ext_iff_of_nodup (.of_map Prod.fst ?_) (.of_map Prod.fst different)).mpr ?_
    · rw [firsts]
      exact apart.filter _
    · rintro ⟨name, value⟩
      simp only [mem_filterMap, Option.map_eq_some_iff, Prod.mk.injEq]
      constructor
      · rintro ⟨_, _, _, found, rfl, rfl⟩
        exact Bindings.mem_of_lookup found
      · intro member
        exact ⟨name, listed name (mem_map_of_mem member), value,
          Bindings.lookup_of_mem different member, rfl, rfl⟩
  have values := pairs.map Prod.snd
  rw [map_filterMap] at values
  refine (List.Perm.of_eq (filterMap_congr fun name _ => ?_)).trans values
  cases entries.lookup name <;> rfl

theorem flatMap_or_default_perm (parameters : Parameters) (found : Parameter → Option Value) :
    (parameters.flatMap fun parameter => ((found parameter).or parameter.default).toList).Perm
      (parameters.filterMap found ++
        (parameters.filter fun parameter => (found parameter).isNone).filterMap
          Parameter.default) := by
  induction parameters with
  | nil => exact .nil
  | cons parameter parameters ih =>
    cases value : found parameter with
    | some other => simpa [value] using ih.cons other
    | none =>
      cases default : parameter.default with
      | none => simpa [value, default] using ih
      | some other => simpa [value, default] using (ih.cons other).trans perm_middle.symm

def ofKind (parameters : Parameters) (kind : ParameterKind) : Parameters :=
  parameters.filter (fun parameter => parameter.kind = kind)

theorem perm_kinds (parameters : Parameters) :
    parameters.Perm (parameters.positional ++
      (parameters.ofKind .variadic ++ parameters.ofKind .keyword)) := by
  induction parameters with
  | nil => exact .nil
  | cons parameter parameters ih =>
    unfold positional ofKind at ih ⊢
    cases kind : parameter.kind with
    | positional => simpa [kind] using ih.cons parameter
    | variadic => simpa [kind] using (ih.cons parameter).trans perm_middle.symm
    | keyword =>
      rw [← append_assoc] at ih ⊢
      simpa [kind] using (ih.cons parameter).trans perm_middle.symm

/-- At most one parameter collects arguments of each sort. -/
structure Single (parameters : Parameters) : Prop where
  variadic : (parameters.ofKind .variadic).length ≤ 1
  keyword : (parameters.ofKind .keyword).length ≤ 1

theorem flatMap_const {collectors : Parameters} (single : collectors.length ≤ 1)
    {items : List Value} (none : collectors = [] → items = []) :
    collectors.flatMap (fun _ => items) = items := by
  cases collectors with
  | nil => exact (none rfl).symm
  | cons first rest =>
    have alone : rest = [] := by simpa using single
    simp [alone]

theorem mem_ofKind :
    parameter ∈ parameters.ofKind kind ↔ parameter ∈ parameters ∧ parameter.kind = kind := by
  simp [ofKind]

theorem ofKind_eq_nil_iff :
    parameters.ofKind kind = [] ↔ ¬∃ parameter ∈ parameters, parameter.kind = kind := by
  simp [ofKind]

section

variable {listId dictId : ObjectId} {bound : Bindings} (apart : parameters.names.Nodup)
  (assembled : parameters.assemble (supply (parameters.given arguments named)
    (.list .anySlice listId (arguments.drop parameters.positional.length))
    (dictionary dictId (parameters.unknown named.sorted))) = .ok bound)

include apart assembled

variable {parameter : Parameter}

theorem heldBy_positional (member : parameter ∈ parameters.positional) :
    heldBy bound parameter = (((parameters.given arguments named).lookup parameter.name).or
      parameter.default).toList := by
  obtain ⟨declared, kind⟩ := mem_positional.mp member
  simp only [heldBy, lookup_of_assemble apart assembled declared, supply, kind]
  cases ((parameters.given arguments named).lookup parameter.name).or parameter.default <;> rfl

theorem heldBy_variadic (member : parameter ∈ parameters.ofKind .variadic) :
    heldBy bound parameter = arguments.drop parameters.positional.length := by
  obtain ⟨declared, kind⟩ := mem_ofKind.mp member
  simp only [heldBy, lookup_of_assemble apart assembled declared, supply, kind]
  rfl

theorem heldBy_keyword (member : parameter ∈ parameters.ofKind .keyword) :
    heldBy bound parameter = (parameters.unknown named.sorted).map Prod.snd := by
  obtain ⟨declared, kind⟩ := mem_ofKind.mp member
  simp only [heldBy, lookup_of_assemble apart assembled declared, supply, kind, dictionary,
    Option.elim_some, argumentsIn, map_map]
  rfl

end

theorem perm_regroup (first second third fourth fifth : List α) :
    (first ++ second ++ third ++ (fourth ++ fifth)).Perm
      (first ++ fourth ++ (second ++ fifth) ++ third) := by
  simp only [append_assoc]
  refine .append_left first ?_
  refine ((perm_append_comm_assoc third fourth fifth).append_left second).trans ?_
  refine (perm_append_comm_assoc second fourth _).trans (.append_left fourth ?_)
  exact perm_append_comm.append_left second

theorem given_names_listed {name : Text}
    (member : name ∈ (parameters.given arguments named).map Prod.fst) :
    name ∈ parameters.positional.names := by
  rw [given, map_append, map_fst_zip_eq_take, map_fst_recognised, mem_append] at member
  rcases member with early | late
  · exact mem_of_mem_take early
  · simpa using (mem_filter.mp late).2

theorem recognised_append_unknown_perm :
    (parameters.recognised named.sorted ++ parameters.unknown named.sorted).Perm named := by
  simp only [recognised, unknown]
  exact (filter_append_perm _ _).trans (Bindings.sorted_perm named)

theorem filter_lookup_perm_unfilled (apart : parameters.names.Nodup) :
    (parameters.positional.filter fun parameter =>
      ((parameters.given arguments named).lookup parameter.name).isNone).Perm
      (parameters.unfilled arguments named) := by
  have distinct : parameters.positional.Nodup := .of_map _ (positional_names_nodup apart)
  refine (perm_ext_iff_of_nodup (distinct.filter _)
    ((distinct.sublist (drop_sublist ..)).filter _)).mpr fun parameter => ?_
  rw [mem_filter, Option.isNone_iff_eq_none]
  constructor
  · rintro ⟨member, missing⟩
    exact (lookup_given_eq_none_iff apart member).mp missing
  · intro missing
    have member := mem_of_mem_drop (mem_unfilled.mp missing).1
    exact ⟨member, (lookup_given_eq_none_iff apart member).mpr missing⟩

theorem contents_perm (apart : parameters.names.Nodup) (single : parameters.Single)
    (different : (named.map Prod.fst).Nodup)
    (succeeded : parameters.bind listId dictId arguments named = .ok bound) :
    (parameters.contents bound).Perm (arguments ++ named.map Prod.snd ++
      (parameters.unfilled arguments named).filterMap Parameter.default) := by
  obtain ⟨enough, once, known, assembled⟩ := (bind_succeeds_iff different).mp succeeded
  have own : (parameters.positional.flatMap (heldBy bound)).Perm
      ((parameters.given arguments named).map Prod.snd ++
        (parameters.unfilled arguments named).filterMap Parameter.default) := by
    rw [flatMap_congr fun _ member => heldBy_positional apart assembled member]
    refine (flatMap_or_default_perm _ _).trans (.append ?_
      ((filter_lookup_perm_unfilled apart).filterMap _))
    have looked := filterMap_lookup_perm (positional_names_nodup apart)
      (given_names_nodup apart different once) (fun name => given_names_listed)
    rwa [names, filterMap_map] at looked
  have surplus : (parameters.ofKind .variadic).flatMap (heldBy bound) =
      arguments.drop parameters.positional.length := by
    rw [flatMap_congr fun _ member => heldBy_variadic apart assembled member]
    refine flatMap_const single.variadic fun absent => drop_eq_nil_of_le ?_
    exact Nat.le_of_not_lt fun more => ofKind_eq_nil_iff.mp absent (enough more)
  have collected : (parameters.ofKind .keyword).flatMap (heldBy bound) =
      (parameters.unknown named.sorted).map Prod.snd := by
    rw [flatMap_congr fun _ member => heldBy_keyword apart assembled member]
    refine flatMap_const single.keyword fun absent => map_eq_nil_iff.mpr ?_
    refine filter_eq_nil_iff.mpr fun entry member strange => ?_
    refine ofKind_eq_nil_iff.mp absent (known ⟨entry.1, ?_, by simpa using strange⟩)
    exact mem_map_of_mem (Bindings.mem_sorted.mp member)
  have taken : (parameters.given arguments named).map Prod.snd =
      arguments.take parameters.positional.length ++
        (parameters.recognised named.sorted).map Prod.snd := by
    rw [given, map_append, map_snd_zip_eq_take, names, length_map]
  have values : ((parameters.recognised named.sorted).map Prod.snd ++
      (parameters.unknown named.sorted).map Prod.snd).Perm (named.map Prod.snd) := by
    rw [← map_append]
    exact recognised_append_unknown_perm.map Prod.snd
  have kinds := (perm_kinds parameters).flatMap_right (heldBy bound)
  rw [flatMap_append, flatMap_append, surplus, collected] at kinds
  rw [taken] at own
  refine kinds.trans ((own.append_right _).trans ((perm_regroup ..).trans ?_))
  rw [take_append_drop]
  exact (values.append_left arguments).append_right _

theorem placed_of_bind (apart : parameters.names.Nodup) (single : parameters.Single)
    (different : (named.map Prod.fst).Nodup)
    (succeeded : parameters.bind listId dictId arguments named = .ok bound) :
    parameters.Placed listId dictId arguments named bound := by
  obtain ⟨_, once, _, assembled⟩ := (bind_succeeds_iff different).mp succeeded
  have unique := given_names_nodup apart different once
  have supplied {parameter : Parameter} (member : parameter ∈ parameters.positional) :
      bound.lookup parameter.name =
        ((parameters.given arguments named).lookup parameter.name).or parameter.default := by
    obtain ⟨declared, kind⟩ := mem_positional.mp member
    simp only [lookup_of_assemble apart assembled declared, supply, kind]
  have reached {parameter : Parameter} (member : parameter ∈ parameters.positional)
      {argument : Value}
      (inside : (parameter.name, argument) ∈ parameters.given arguments named) :
      bound.lookup parameter.name = some argument := by
    rw [supplied member, Bindings.lookup_of_mem unique inside, Option.some_or]
  constructor
  case names => exact names_of_assemble assembled
  case byPosition =>
    intro place parameter argument declared passed
    apply reached (mem_of_getElem? declared)
    apply mem_append_left
    apply mem_of_getElem? (i := place)
    rw [List.getElem?_zip_eq_some, names, List.getElem?_map, declared]
    exact ⟨rfl, passed⟩
  case byName =>
    intro parameter member argument passed
    apply reached member
    apply mem_append_right
    exact mem_recognised.mpr ⟨passed, mem_map_of_mem member⟩
  case byDefault =>
    intro parameter missing
    have member := mem_of_mem_drop (mem_unfilled.mp missing).1
    rw [supplied member, (lookup_given_eq_none_iff apart member).mpr missing, Option.none_or]
  case surplus | collected =>
    intro parameter declared kind
    simp only [lookup_of_assemble apart assembled declared, supply, kind]
  case lossless => exact contents_perm apart single different succeeded

end

/-!
## Declared parameters
-/

theorem checkKinds_single {seen : Seen} {types : List HostType}
    (counted : parameters.length = types.length)
    (checked : checkKinds seen parameters types = .ok ()) :
    (parameters.ofKind .variadic).length + seen.variadic.toNat ≤ 1 ∧
      (parameters.ofKind .keyword).length + seen.keyword.toNat ≤ 1 := by
  induction parameters generalizing seen types with
  | nil => exact ⟨by simpa [ofKind] using Bool.toNat_le _, by simpa [ofKind] using Bool.toNat_le _⟩
  | cons parameter parameters ih =>
    cases types with
    | nil => cases counted
    | cons type types =>
      have counted := Nat.succ.inj counted
      rw [checkKinds] at checked
      cases kind : parameter.kind with
      | positional =>
        simp only [kind] at checked
        simpa [ofKind, kind] using ih counted checked
      | variadic =>
        simp only [kind] at checked
        split at checked
        · cases checked
        · next unseen =>
          split at checked
          · obtain ⟨variadic, keyword⟩ := ih counted checked
            simp [ofKind, kind, unseen] at variadic keyword ⊢
            exact ⟨by omega, keyword⟩
          · cases checked
      | keyword =>
        simp only [kind] at checked
        split at checked
        · cases checked
        · next unseen =>
          split at checked
          · split at checked
            · obtain ⟨variadic, keyword⟩ := ih counted checked
              simp [ofKind, kind, unseen] at variadic keyword ⊢
              exact ⟨variadic, by omega⟩
            · cases checked
          · cases checked

theorem single_of_declare {signature : Signature} {labels : Option (List Text)}
    {changes : List (Text × List ParameterOption)}
    (declared : declare signature labels changes = .ok parameters) : parameters.Single := by
  have counted := (declare_eq_ok declared).2.1
  unfold declare at declared
  extract_lets count labels at declared
  split at declared
  · cases declared
  · obtain ⟨_, _, declared⟩ := bind_eq_ok_iff.mp declared
    extract_lets collected at declared
    obtain ⟨_, _, declared⟩ := bind_eq_ok_iff.mp declared
    obtain ⟨_, checked, declared⟩ := bind_eq_ok_iff.mp declared
    obtain ⟨_, _, declared⟩ := bind_eq_ok_iff.mp declared
    cases declared
    exact ⟨(checkKinds_single counted checked).1, (checkKinds_single counted checked).2⟩

/-- For all parameters that a function can declare: a call is bound exactly when surplus arguments
are collected, no name repeats a position, unknown names are collected and every place that stays
empty has a default. Then each argument is where its position or name says, and the bindings hold
every argument once. -/
theorem arguments_bound_exactly {signature : Signature} {labels : Option (List Text)}
    {changes : List (Text × List ParameterOption)} {parameters : Parameters}
    (declared : declare signature labels changes = .ok parameters) (listId dictId : ObjectId)
    (arguments : List Value) (named : Bindings) (different : (named.map Prod.fst).Nodup) :
    ((∃ bound, parameters.bind listId dictId arguments named = .ok bound) ↔
      parameters.Bindable arguments named) ∧
    ∀ bound, parameters.bind listId dictId arguments named = .ok bound →
      parameters.Placed listId dictId arguments named bound := by
  have apart := (declare_eq_ok declared).1
  refine ⟨exists_bind_iff apart different listId dictId, fun bound succeeded => ?_⟩
  exact placed_of_bind apart (single_of_declare declared) different succeeded

def collecting : Parameters :=
  (declare ⟨[.wordInt, .anySlice, .namedValues], false, [.anySlice], false⟩
    (some ["first", "rest", "named"]) [("first", [.default (.ofWord 7)]), ("rest", [.variadic]),
      ("named", [.keyword])]).toOption.get (by decide +kernel)

/-- A name that is spelled like a collecting parameter is collected; one that repeats a position is
refused. -/
theorem arguments_bound_exactly_collecting :
    declare ⟨[.wordInt, .anySlice, .namedValues], false, [.anySlice], false⟩
      (some ["first", "rest", "named"]) [("first", [.default (.ofWord 7)]), ("rest", [.variadic]),
        ("named", [.keyword])] = .ok collecting ∧
    (∃ bound, collecting.bind 1 2 [.ofWord 5, .ofWord 6] [("rest", .ofWord 8)] = .ok bound ∧
      collecting.Placed 1 2 [.ofWord 5, .ofWord 6] [("rest", .ofWord 8)] bound) ∧
    ¬∃ bound, collecting.bind 1 2 [.ofWord 5] [("first", .ofWord 8)] = .ok bound := by
  have declared : declare _ _ _ = .ok collecting := eq_ok_get_toOption (by decide +kernel)
  have succeeds : (collecting.bind 1 2 [.ofWord 5, .ofWord 6]
      [("rest", .ofWord 8)]).toOption.isSome = true := by decide +kernel
  have bound := eq_ok_get_toOption succeeds
  have reached : ("first" : Text) ∈ (collecting.positional.take 1).map Parameter.name := by
    decide +kernel
  refine ⟨declared, ⟨_, bound, (arguments_bound_exactly declared 1 2 _ _ ?_).2 _ bound⟩, ?_⟩
  · exact List.nodup_singleton _
  · intro succeeded
    have bindable := (arguments_bound_exactly declared 1 2 [.ofWord 5] [("first", .ofWord 8)]
      (List.nodup_singleton _)).1.mp succeeded
    obtain ⟨parameter, inside, label⟩ := List.mem_map.mp reached
    exact bindable.once parameter inside (label ▸ List.mem_singleton_self _)

end Parameters

end Covenant
