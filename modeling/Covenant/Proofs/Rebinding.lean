import Covenant.Proofs.Arguments

/-!
# Calls by name

Binding by position and name goes by the kinds of the parameters, binding by name alone by the names
that are absent. Where every argument has the name of a parameter that takes it, both give the same
bindings or miss the same arguments.
-/

set_option autoImplicit false

namespace Covenant

open List

theorem Bindings.lookup_sorted {named : Bindings} (different : (named.map Prod.fst).Nodup)
    (name : Text) : named.sorted.lookup name = named.lookup name := by
  have sortedDifferent := ((sorted_perm named).map Prod.fst).nodup_iff.mpr different
  apply Option.ext
  intro value
  simp only [lookup_eq_some_iff_mem sortedDifferent, lookup_eq_some_iff_mem different, mem_sorted]

namespace Parameters

def missing (parameters : Parameters) (named : Bindings) : List Text :=
  names ((parameters.unfilled [] named).filter fun parameter => parameter.default.isNone)

section

variable {parameters : Parameters} {named : Bindings}

theorem bindNamed_eq_assemble (known : ∀ name ∈ named.map Prod.fst, name ∈ parameters.names)
    (listId dictId : ObjectId) :
    parameters.bindNamed listId dictId named =
      parameters.assemble (supplyByName named listId dictId) := by
  have noneUnknown : named.sorted.find? (fun entry =>
      !parameters.any (fun parameter => parameter.name == entry.1)) = none := by
    simp only [List.find?_eq_none, any_name_eq, Bool.not_eq_true', decide_eq_false_iff_not, not_not]
    intro entry member
    exact known entry.1 (mem_map_of_mem (Bindings.mem_sorted.mp member))
  rw [bindNamed, noneUnknown]

theorem assemble_congr {one other : Parameter → Option Value}
    (same : ∀ parameter ∈ parameters, one parameter = other parameter) :
    parameters.assemble one = parameters.assemble other := by
  unfold assemble
  rw [filter_congr fun parameter member => by rw [same parameter member],
    filterMap_congr fun parameter member => by rw [same parameter member]]

theorem assemble_of_missing {value? : Parameter → Option Value} {absent : List Text}
    (names : names (parameters.filter fun parameter => (value? parameter).isNone) = absent)
    (some : absent ≠ []) :
    parameters.assemble value? =
      refuseBinding ["missing required arguments: ", Text.join ", " absent] := by
  have refused : requireAll absent =
      refuseBinding ["missing required arguments: ", Text.join ", " absent] := by
    cases absent with
    | nil => exact absurd rfl some
    | cons first rest => rfl
  unfold assemble
  rw [← Parameters.names, names, refused]
  rfl

theorem assemble_lookup (apart : parameters.names.Nodup) {bound : Bindings}
    (named : bound.map Prod.fst = parameters.names) :
    parameters.assemble (fun parameter => bound.lookup parameter.name) = .ok bound := by
  have different : (bound.map Prod.fst).Nodup := named ▸ apart
  have found (parameter : Parameter) (member : parameter ∈ parameters) :
      (bound.lookup parameter.name).isSome = true := by
    have listed : parameter.name ∈ bound.map Prod.fst := named ▸ mem_map_of_mem member
    obtain ⟨entry, inside, same⟩ := mem_map.mp listed
    rw [← same, Bindings.lookup_of_mem different inside]
    rfl
  obtain ⟨result, assembled⟩ := exists_assemble_iff.mpr found
  obtain ⟨_, made⟩ := andThen_eq_ok_iff.mp assembled
  have whole : (parameters.filterMap fun parameter =>
      (bound.lookup parameter.name).map (parameter.name, ·)) = bound := by
    have byLabel : (parameters.filterMap fun parameter =>
        (bound.lookup parameter.name).map (parameter.name, ·)) =
        parameters.names.filterMap fun name => (bound.lookup name).map (name, ·) := by
      rw [Parameters.names, filterMap_map]
      rfl
    have each (entry : Text × Value) (inside : entry ∈ bound) :
        (bound.lookup entry.1).map (entry.1, ·) = some entry := by
      rw [Bindings.lookup_of_mem different inside]
      rfl
    rw [byLabel, ← named, filterMap_map]
    exact (filterMap_congr each).trans filterMap_some
  rw [assembled, ← Except.ok.inj made, whole]

theorem name_not_mem_positional (apart : parameters.names.Nodup) {parameter : Parameter}
    (member : parameter ∈ parameters) (collects : parameter.kind ≠ .positional) :
    parameter.name ∉ parameters.positional.names := by
  intro listed
  obtain ⟨other, inside, same⟩ := mem_map.mp listed
  obtain ⟨declared, kind⟩ := mem_positional.mp inside
  have equal := inj_on_of_nodup_map apart declared member same
  exact collects (equal ▸ kind)

/-!
## Agreement
-/

theorem bindNamed_of_complete (apart : parameters.names.Nodup) {bound : Bindings}
    (complete : bound.map Prod.fst = parameters.names) (listId dictId : ObjectId) :
    parameters.bindNamed listId dictId bound = .ok bound := by
  have listed : ∀ name ∈ bound.map Prod.fst, name ∈ parameters.names := by
    intro name member
    exact complete ▸ member
  rw [bindNamed_eq_assemble listed, ← assemble_lookup apart complete]
  refine assemble_congr fun parameter member => ?_
  have named : parameter.name ∈ bound.map Prod.fst := complete ▸ mem_map_of_mem member
  cases found : bound.lookup parameter.name with
  | none => exact absurd named (Bindings.lookup_eq_none_iff_not_mem.mp found)
  | some value => rw [supplyByName, found, Option.some_or]

section

variable (apart : parameters.names.Nodup) (different : (named.map Prod.fst).Nodup)
  (own : ∀ name ∈ named.map Prod.fst, name ∈ parameters.positional.names)

include apart different own

omit different in
theorem lookup_of_collecting {parameter : Parameter} (member : parameter ∈ parameters)
    (collects : parameter.kind ≠ .positional) : named.lookup parameter.name = none := by
  apply Bindings.lookup_eq_none_iff_not_mem.mpr
  intro listed
  exact name_not_mem_positional apart member collects (own _ listed)

theorem supply_eq_supplyByName (listId dictId : ObjectId) {parameter : Parameter}
    (member : parameter ∈ parameters) :
    supply (parameters.given [] named)
        (.list .anySlice listId (List.drop parameters.positional.length []))
        (dictionary dictId (parameters.unknown named.sorted)) parameter =
      supplyByName named listId dictId parameter := by
  have sortedOwn (entry : Text × Value) (inside : entry ∈ named.sorted) :
      entry.1 ∈ parameters.positional.names :=
    own entry.1 (mem_map_of_mem (Bindings.mem_sorted.mp inside))
  have allGiven : parameters.given [] named = named.sorted := by
    rw [given, zip_nil_right, nil_append, recognised]
    exact filter_eq_self.mpr fun entry inside => by simpa using sortedOwn entry inside
  have noneUnknown : parameters.unknown named.sorted = [] :=
    filter_eq_nil_iff.mpr fun entry inside => by simpa using sortedOwn entry inside
  cases kind : parameter.kind with
  | positional =>
    simp only [supply, supplyByName, kind, allGiven, Bindings.lookup_sorted different]
  | variadic =>
    have absent := lookup_of_collecting apart own member (by simp [kind])
    simp only [supply, supplyByName, kind, absent, Option.none_or, drop_nil]
  | keyword =>
    have absent := lookup_of_collecting apart own member (by simp [kind])
    simp only [supply, supplyByName, kind, absent, Option.none_or, noneUnknown]

omit apart different in
theorem mem_names_of_own : ∀ name ∈ named.map Prod.fst, name ∈ parameters.names := by
  intro name member
  exact (filter_sublist.map Parameter.name).subset (own name member)

theorem bind_eq_bindNamed (listId dictId : ObjectId) :
    parameters.bind listId dictId [] named = parameters.bindNamed listId dictId named := by
  rw [bindNamed_eq_assemble (mem_names_of_own own), bind_eq_assemble different]
  · exact assemble_congr fun parameter member =>
      supply_eq_supplyByName apart different own listId dictId member
  · intro more
    cases more
  · intro parameter member
    cases member
  · rintro ⟨name, member, strange⟩
    exact absurd (own name member) strange

end

theorem names_missing (listId dictId : ObjectId) :
    names (parameters.filter fun parameter =>
      (supplyByName named listId dictId parameter).isNone) = parameters.missing named := by
  rw [missing, unfilled, length_nil, drop_zero, positional, filter_filter,
    filter_filter]
  refine congrArg names (filter_congr fun parameter _ => ?_)
  cases found : named.lookup parameter.name with
  | none =>
    have absent := Bindings.lookup_eq_none_iff_not_mem.mp found
    cases kind : parameter.kind <;> simp [supplyByName, found, kind, absent]
  | some value =>
    have present : parameter.name ∈ named.map Prod.fst := by
      by_contra absent
      rw [Bindings.lookup_eq_none_iff_not_mem.mpr absent] at found
      cases found
    simp [supplyByName, found, present]

theorem bindNamed_outcome (known : ∀ name ∈ named.map Prod.fst, name ∈ parameters.names)
    (listId dictId : ObjectId) :
    (parameters.missing named = [] →
      ∃ bound, parameters.bindNamed listId dictId named = .ok bound) ∧
    (parameters.missing named ≠ [] →
      parameters.bindNamed listId dictId named =
        refuseBinding ["missing required arguments: ",
          Text.join ", " (parameters.missing named)]) := by
  rw [bindNamed_eq_assemble known]
  constructor
  · intro complete
    refine exists_assemble_iff.mpr fun parameter member => ?_
    have noneMissing := @names_missing parameters named listId dictId
    rw [complete, names, map_eq_nil_iff, filter_eq_nil_iff] at noneMissing
    simpa [Option.isSome_iff_ne_none] using noneMissing parameter member
  · exact assemble_of_missing (names_missing listId dictId)

end

/-- Bindings of a call stay as they are when they are bound again by name. Arguments under names of
parameters that take them are bound alike with and without places, or miss the same parameters, so
that both kinds of calls do the same. -/
theorem binders_agree {signature : Signature} {labels : Option (List Text)}
    {changes : List (Text × List ParameterOption)} {parameters : Parameters}
    (declared : declare signature labels changes = .ok parameters) :
    (∀ listId dictId arguments named bound,
      parameters.bind listId dictId arguments named = .ok bound →
      ∀ otherList otherDict, parameters.bindNamed otherList otherDict bound = .ok bound) ∧
    ∀ named : Bindings, (named.map Prod.fst).Nodup →
      (∀ name ∈ named.map Prod.fst, name ∈ parameters.positional.names) →
      (∀ listId dictId,
        (parameters.missing named = [] →
          ∃ bound, parameters.bind listId dictId [] named = .ok bound ∧
            parameters.bindNamed listId dictId named = .ok bound) ∧
        (parameters.missing named ≠ [] →
          parameters.bind listId dictId [] named =
            refuseBinding ["missing required arguments: ",
              Text.join ", " (parameters.missing named)] ∧
          parameters.bindNamed listId dictId named =
            refuseBinding ["missing required arguments: ",
              Text.join ", " (parameters.missing named)])) ∧
      ∀ contract : Contract, contract.parameters = parameters →
        ∀ world snapshot memory,
          contract.call world snapshot [] named memory =
            contract.callBound world snapshot named memory := by
  have apart := (declare_eq_ok declared).1
  refine ⟨fun listId dictId arguments named bound succeeded => ?_, fun named different own => ?_⟩
  · exact bindNamed_of_complete apart (names_of_bind succeeded)
  have alike (listId dictId : ObjectId) := bind_eq_bindNamed apart different own listId dictId
  refine ⟨fun listId dictId => ?_, ?_⟩
  · obtain ⟨succeeds, refused⟩ := bindNamed_outcome (mem_names_of_own own) listId dictId
    rw [alike]
    exact ⟨fun complete => (succeeds complete).imp fun bound made => ⟨made, made⟩,
      fun some => ⟨refused some, refused some⟩⟩
  · rintro contract rfl world snapshot memory
    simp only [Contract.call, Contract.callBound, alike]

def requiring : Parameters :=
  (declare ⟨[.wordInt, .wordInt, .anySlice, .namedValues], false, [], false⟩
    (some ["first", "second", "rest", "named"]) [("second", [.default (.ofWord 7)]),
      ("rest", [.variadic]), ("named", [.keyword])]).toOption.get (by decide +kernel)

/-- A call that fills every parameter, and calls by name with and without the required argument. -/
theorem binders_agree_requiring :
    declare ⟨[.wordInt, .wordInt, .anySlice, .namedValues], false, [], false⟩
      (some ["first", "second", "rest", "named"]) [("second", [.default (.ofWord 7)]),
        ("rest", [.variadic]), ("named", [.keyword])] = .ok requiring ∧
    (∃ bound, requiring.bind 1 2 [.ofWord 5, .ofWord 6, .ofWord 8] [("rest", .ofWord 9)] =
        .ok bound ∧
      requiring.bindNamed 3 4 bound = .ok bound) ∧
    (∃ bound, requiring.bind 1 2 [] [("first", .ofWord 5)] = .ok bound ∧
      requiring.bindNamed 1 2 [("first", .ofWord 5)] = .ok bound) ∧
    requiring.bind 1 2 [] [("second", .ofWord 5)] =
      .error (.binding "missing required arguments: first") ∧
    requiring.bindNamed 1 2 [("second", .ofWord 5)] =
      .error (.binding "missing required arguments: first") := by
  have declared : declare _ _ _ = .ok requiring := eq_ok_get_toOption (by decide +kernel)
  have succeeds : (requiring.bind 1 2 [.ofWord 5, .ofWord 6, .ofWord 8]
      [("rest", .ofWord 9)]).toOption.isSome = true := by decide +kernel
  have bound := eq_ok_get_toOption succeeds
  obtain ⟨again, byName⟩ := binders_agree declared
  have own : ∀ name ∈ (["first", "second"] : List Text), name ∈ requiring.positional.names := by
    decide +kernel
  have complete : requiring.missing [("first", .ofWord 5)] = [] := by decide +kernel
  have lacking : requiring.missing [("second", .ofWord 5)] = ["first"] := by decide +kernel
  have one := (byName [("first", .ofWord 5)] (List.nodup_singleton _)
    (by simpa using own "first" (by decide))).1 1 2
  have other := (byName [("second", .ofWord 5)] (List.nodup_singleton _)
    (by simpa using own "second" (by decide))).1 1 2
  have refused := other.2 (by rw [lacking]; exact List.cons_ne_nil _ _)
  rw [lacking] at refused
  exact ⟨declared, ⟨_, bound, again 1 2 _ _ _ bound 3 4⟩, one.1 complete, refused⟩

end Parameters

end Covenant
