import Covenant.Proofs.Keys
import Covenant.Proofs.Outcome

/-!
# Structural equality

Values that exist side by side share their objects: one identity stands for one object of one heap.
Among such values structural equality is symmetric and transitive, though a shared object equals
itself whatever it holds.
-/

set_option autoImplicit false

namespace Covenant

open List

/-!
## Values of one heap
-/

/-- Objects by their identities: those of every host type, and the types of conditions. -/
structure Heap where
  object : HostType → ObjectId → Value
  type : ObjectId → Value

mutual

/-- The objects of a value are those of a heap, and its dictionaries have each key once. -/
def Value.Lives (heap : Heap) : Value → Prop
  | .list type object items =>
    (object ≠ 0 → heap.object type object = .list type object items) ∧ Value.AllLive heap items
  | .dict type object entries =>
    (object ≠ 0 → heap.object type object = .dict type object entries) ∧
      (entries.map (·.1)).Pairwise Value.Apart ∧ Value.EntriesLive heap entries
  | .pointer type object target =>
    (object ≠ 0 → heap.object type object = .pointer type object target) ∧ target.Lives heap
  | .record _ fields => Value.AllLive heap fields
  | .predicate object inner =>
    (object ≠ 0 → heap.type object = .predicate object inner) ∧ inner.Lives heap
  | _ => True

def Value.AllLive (heap : Heap) : List Value → Prop
  | [] => True
  | value :: values => value.Lives heap ∧ Value.AllLive heap values

def Value.EntriesLive (heap : Heap) : List (Value × Value) → Prop
  | [] => True
  | (_, value) :: entries => value.Lives heap ∧ Value.EntriesLive heap entries

def Predicate.Lives (heap : Heap) : Predicate → Prop
  | .constant value => value.Lives heap
  | .unchecked (some inner) | .complement inner | .list inner | .array _ (some inner) =>
    inner.Lives heap
  | .allOf members | .anyOf members | .tuple members => Predicate.AllLive heap members
  | .dict key value => key.Lives heap ∧ value.Lives heap
  | .oneOf members => Value.AllLive heap members
  | .parameters entries _ => Predicate.EntriesLive heap entries
  | _ => True

def Predicate.AllLive (heap : Heap) : List Predicate → Prop
  | [] => True
  | predicate :: predicates => predicate.Lives heap ∧ Predicate.AllLive heap predicates

def Predicate.EntriesLive (heap : Heap) : List (Text × Predicate) → Prop
  | [] => True
  | (_, predicate) :: entries => predicate.Lives heap ∧ Predicate.EntriesLive heap entries

end

variable {heap : Heap}

theorem Value.allLive_iff {values : List Value} :
    Value.AllLive heap values ↔ ∀ value ∈ values, value.Lives heap := by
  induction values with
  | nil => simp [AllLive]
  | cons value values ih => simp [AllLive, ih]

theorem Value.entriesLive_iff {entries : List (Value × Value)} :
    Value.EntriesLive heap entries ↔ ∀ entry ∈ entries, entry.2.Lives heap := by
  induction entries with
  | nil => simp [EntriesLive]
  | cons entry entries ih => simp [EntriesLive, ih]

theorem Predicate.allLive_iff {predicates : List Predicate} :
    Predicate.AllLive heap predicates ↔ ∀ predicate ∈ predicates, predicate.Lives heap := by
  induction predicates with
  | nil => simp [AllLive]
  | cons predicate predicates ih => simp [AllLive, ih]

theorem Predicate.entriesLive_iff {entries : List (Text × Predicate)} :
    Predicate.EntriesLive heap entries ↔ ∀ entry ∈ entries, entry.2.Lives heap := by
  induction entries with
  | nil => simp [EntriesLive]
  | cons entry entries ih => simp [EntriesLive, ih]

/-!
## Structural equality
-/

abbrev Value.Equals (left right : Value) : Prop := left.structurallyEqual right = true

abbrev Predicate.Equals (left right : Predicate) : Prop := left.structurallyEqual right = true

theorem Value.allStructurallyEqual_iff {lefts rights : List Value} :
    Value.allStructurallyEqual lefts rights = true ↔ Forall₂ Value.Equals lefts rights := by
  induction lefts generalizing rights with
  | nil => cases rights <;> simp [allStructurallyEqual]
  | cons left lefts ih => cases rights <;> simp [allStructurallyEqual, ih]

theorem Predicate.allStructurallyEqual_iff {lefts rights : List Predicate} :
    Predicate.allStructurallyEqual lefts rights = true ↔
      Forall₂ Predicate.Equals lefts rights := by
  induction lefts generalizing rights with
  | nil => cases rights <;> simp [allStructurallyEqual]
  | cons left lefts ih => cases rights <;> simp [allStructurallyEqual, ih]

theorem Predicate.entriesStructurallyEqual_iff {lefts rights : List (Text × Predicate)} :
    Predicate.entriesStructurallyEqual lefts rights = true ↔
      Forall₂ (fun left right => left.1 = right.1 ∧ left.2.Equals right.2) lefts rights := by
  induction lefts generalizing rights with
  | nil => cases rights <;> simp [entriesStructurallyEqual]
  | cons left lefts ih => cases rights <;> simp [entriesStructurallyEqual, ih]

/-- Objects of one identity are the same object, so an equality that takes them for equal and looks
at the contents of others is fair if it is fair to the contents. -/
theorem fair_object {α : Type} {inside : α → Prop} {within : α → α → Prop} {object : ObjectId}
    {contents : α} (fair : Fair inside within contents) (make : ObjectId → α → Value)
    (look : ObjectId → Value) (lives : (make object contents).Lives heap)
    (living : ∀ object contents, (make object contents).Lives heap →
      (object ≠ 0 → look object = make object contents) ∧ inside contents)
    (keeps : ∀ object contents other rest, within contents rest →
      (make object contents).Equals (make other rest))
    (inverse : ∀ object contents value, (make object contents).Equals value →
      ∃ other rest, make other rest = value ∧
        (sameObject object other = true ∨ within contents rest)) :
    Fair (Value.Lives heap) Value.Equals (make object contents) := by
  have one {object other : ObjectId} {contents rest : α} (same : sameObject object other = true)
      (lives : (make object contents).Lives heap) (livesRest : (make other rest).Lives heap) :
      make other rest = make object contents := by
    obtain ⟨shared, rfl⟩ : object ≠ 0 ∧ object = other := by simpa [sameObject] using same
    exact ((living object rest livesRest).1 shared).symm.trans ((living _ _ lives).1 shared)
  intro value livesValue related
  obtain ⟨other, rest, rfl, same | same⟩ := inverse object contents value related
  · rw [one same lives livesValue] at related ⊢
    exact ⟨related, fun _ _ next => next⟩
  · obtain ⟨back, next⟩ := fair rest (living other rest livesValue).2 same
    refine ⟨keeps other rest object contents back, ?_⟩
    intro third livesThird second
    obtain ⟨last, inner, rfl, both | both⟩ := inverse other rest third second
    · rwa [one both livesValue livesThird]
    · exact keeps object contents last inner (next inner (living last inner livesThird).2 both)

/-!
### Dictionaries
-/

abbrev Entries := List (Value × Value)

def SameEntry (left right : Value × Value) : Prop :=
  left.1.Finds right.1 ∧ left.2.Equals right.2

theorem Value.Finds.trans {first second third : Value} (one : first.Finds second)
    (two : second.Finds third) : first.Finds third :=
  (first.fair_finds second trivial one).2 third trivial two

theorem Value.Finds.symm {left right : Value} (finds : left.Finds right) : right.Finds left :=
  (left.fair_finds right trivial finds).1

theorem Value.Apart.not_finds {earlier later : Value} (apart : earlier.Apart later) :
    ¬earlier.Finds later :=
  Bool.eq_false_iff.mp apart.symm

section

variable {key value : Value} {entries others : Entries} {entry : Value × Value}

theorem mem_of_lookupKey (found : lookupKey key entries = some value) :
    ∃ entry ∈ entries, key.Finds entry.1 ∧ entry.2 = value := by
  obtain ⟨entry, first, same⟩ := Option.map_eq_some_iff.mp found
  have finds := List.find?_some first
  exact ⟨entry, mem_of_find?_eq_some first, finds, same⟩

theorem lookupKey_of_mem (apart : (entries.map (·.1)).Pairwise Value.Apart)
    (member : entry ∈ entries) (finds : key.Finds entry.1) :
    lookupKey key entries = some entry.2 := by
  induction entries with
  | nil => cases member
  | cons head entries ih =>
    obtain ⟨first, others⟩ := pairwise_cons.mp apart
    cases member with
    | head => simp [lookupKey, finds]
    | tail _ later =>
      have passed : key.sameKey head.1 = false := by
        refine Bool.eq_false_iff.mpr fun found : key.Finds head.1 => ?_
        exact (first entry.1 (mem_map_of_mem later)).not_finds (found.symm.trans finds)
      simpa [lookupKey, passed] using ih others later

theorem entriesWithin_iff (apart : (others.map (·.1)).Pairwise Value.Apart) :
    Value.entriesWithin entries others = true ↔
      ∀ entry ∈ entries, ∃ other ∈ others, SameEntry entry other := by
  induction entries with
  | nil => simp [Value.entriesWithin]
  | cons entry entries ih =>
    simp only [Value.entriesWithin, Bool.and_eq_true, ih, forall_mem_cons]
    refine and_congr_left fun _ => ⟨?_, ?_⟩
    · intro ⟨_, same⟩
      cases found : lookupKey entry.1 others with
      | none => simp [found] at same
      | some value =>
        obtain ⟨other, member, finds, rfl⟩ := mem_of_lookupKey found
        exact ⟨other, member, finds, by simpa [found] using same⟩
    · intro ⟨other, member, finds, same⟩
      simp only [lookupKey_of_mem apart member finds]
      exact ⟨Value.Finds.trans finds (Value.Finds.symm finds), same⟩

/-- Every entry has a mate of its own, since the keys are apart. -/
theorem exists_arranged (apart : (entries.map (·.1)).Pairwise Value.Apart)
    (sized : entries.length = others.length)
    (within : ∀ entry ∈ entries, ∃ other ∈ others, SameEntry entry other) :
    ∃ arranged, Forall₂ SameEntry entries arranged ∧ arranged.Perm others := by
  induction entries generalizing others with
  | nil => exact ⟨[], .nil, by simp [length_eq_zero_iff.mp sized.symm]⟩
  | cons entry entries ih =>
    obtain ⟨first, apart⟩ := pairwise_cons.mp apart
    obtain ⟨⟨other, member, same⟩, within⟩ := forall_mem_cons.mp within
    obtain ⟨before, after, rfl⟩ := append_of_mem member
    have rest : ∀ later ∈ entries, ∃ other ∈ before ++ after, SameEntry later other := by
      intro later inside
      obtain ⟨found, member, alike⟩ := within later inside
      refine ⟨found, ?_, alike⟩
      have different : found ≠ other := fun shared =>
        (first later.1 (mem_map_of_mem inside)).not_finds
          (same.1.trans (shared ▸ alike.1.symm))
      simpa [different] using member
    obtain ⟨arranged, alike, perm⟩ := ih apart (by simp at sized ⊢; omega) rest
    exact ⟨other :: arranged, .cons same alike, (perm.cons other).trans perm_middle.symm⟩

theorem sameEntries_iff (apart : (entries.map (·.1)).Pairwise Value.Apart)
    (apartOthers : (others.map (·.1)).Pairwise Value.Apart) :
    entries.length = others.length ∧ Value.entriesWithin entries others = true ↔
      ∃ arranged, Forall₂ SameEntry entries arranged ∧ arranged.Perm others := by
  rw [entriesWithin_iff apartOthers]
  constructor
  · intro ⟨sized, within⟩
    exact exists_arranged apart sized within
  · intro ⟨arranged, alike, perm⟩
    refine ⟨alike.length_eq.trans perm.length_eq, ?_⟩
    intro entry member
    obtain ⟨other, inside, same⟩ := exists_mem_of_forall₂ alike member
    exact ⟨other, perm.mem_iff.mp inside, same⟩

/-- Equal dictionaries hold mates in some arrangement, and mates can be exchanged. -/
theorem fair_entries (apart : (entries.map (·.1)).Pairwise Value.Apart)
    (fair : ∀ entry ∈ entries, Fair (Value.Lives heap) Value.Equals entry.2) :
    Fair (fun entries => (entries.map (·.1)).Pairwise Value.Apart ∧ Value.EntriesLive heap entries)
      (fun entries others =>
        entries.length = others.length ∧ Value.entriesWithin entries others = true) entries := by
  have paired : ∀ entry ∈ entries,
      Fair (fun entry => True ∧ entry.2.Lives heap) SameEntry entry :=
    fun entry member => (Value.fair_finds entry.1).and (fair entry member)
  have living {entries : Entries} (live : Value.EntriesLive heap entries) :
      ∀ entry ∈ entries, True ∧ entry.2.Lives heap := by
    simpa [Value.entriesLive_iff] using live
  intro others ⟨apartOthers, liveOthers⟩ same
  obtain ⟨arranged, alike, perm⟩ := (sameEntries_iff apart apartOthers).mp same
  obtain ⟨back, next⟩ := Fair.forall₂ paired arranged
    (fun entry member => living liveOthers entry (perm.mem_iff.mp member)) alike
  refine ⟨(sameEntries_iff apartOthers apart).mpr (perm_comp_forall₂ perm.symm back), ?_⟩
  intro thirds ⟨apartThirds, liveThirds⟩ second
  obtain ⟨rearranged, alikeOthers, permThirds⟩ :=
    (sameEntries_iff apartOthers apartThirds).mp second
  obtain ⟨mates, alikeMates, permMates⟩ := perm_comp_forall₂ perm alikeOthers
  have shuffled := permMates.trans permThirds
  have live entry (member : entry ∈ mates) := living liveThirds entry (shuffled.mem_iff.mp member)
  exact (sameEntries_iff apart apartThirds).mpr ⟨mates, next mates live alikeMates, shuffled⟩

end

/-!
### All values
-/

attribute [local simp] Value.Equals Value.structurallyEqual Predicate.Equals
  Predicate.structurallyEqual

mutual

theorem Value.fair_equals (value : Value) (lives : value.Lives heap) :
    Fair (Value.Lives heap) Value.Equals value := by
  cases value with
  | float type number =>
    apply (Number.fair_beq number).lift (Value.float type) (fun _ _ => trivial) (by simp)
    intro number value same
    cases value <;> try cases same
    simp_all
  | list type object items =>
    have fair := Fair.forall₂ (Value.fair_equals_all items lives.2)
    apply fair_object fair (Value.list type) (heap.object type) lives
      (fun object items lives => lives.imp_right Value.allLive_iff.mp)
    · simp +contextual [Value.allStructurallyEqual_iff]
    · intro object items value same
      cases value <;> try cases same
      simpa [Value.allStructurallyEqual_iff] using same
  | dict type object entries =>
    have fair := fair_entries lives.2.1 (Value.fair_equals_entries entries lives.2.2)
    apply fair_object fair (Value.dict type) (heap.object type) lives
      (fun object entries lives => lives) (by simp +contextual)
    intro object entries value same
    cases value <;> try cases same
    simpa using same
  | pointer type object target =>
    have fair := Value.fair_equals target lives.2
    apply fair_object fair (Value.pointer type) (heap.object type) lives
      (fun object target lives => lives) (by simp +contextual)
    intro object target value same
    cases value <;> try cases same
    simpa using same
  | record type fields =>
    have fair := Fair.forall₂ (Value.fair_equals_all fields lives)
    apply fair.lift (Value.record type) (fun _ => Value.allLive_iff.mp)
      (by simp [Value.allStructurallyEqual_iff])
    intro fields value same
    cases value <;> try cases same
    simp_all
  | predicate object inner =>
    have fair := Predicate.fair_equals inner lives.2
    apply fair_object fair Value.predicate heap.type lives (fun object inner lives => lives)
      (by simp +contextual)
    intro object inner value same
    cases value <;> try cases same
    obtain shared | alike := Bool.or_eq_true_iff.mp same
    · exact ⟨_, _, rfl, .inl (Bool.and_eq_true_iff.mp shared).1⟩
    · exact ⟨_, _, rfl, .inr alike⟩
  | _ =>
    apply Fair.of_eq
    intro other same
    cases other <;> try cases same
    all_goals simp_all

theorem Value.fair_equals_all (values : List Value) (live : Value.AllLive heap values) :
    ∀ value ∈ values, Fair (Value.Lives heap) Value.Equals value := by
  cases values with
  | nil => exact nofun
  | cons value values =>
    exact forall_mem_cons.mpr
      ⟨Value.fair_equals value live.1, Value.fair_equals_all values live.2⟩

theorem Value.fair_equals_entries (entries : List (Value × Value))
    (live : Value.EntriesLive heap entries) :
    ∀ entry ∈ entries, Fair (Value.Lives heap) Value.Equals entry.2 := by
  cases entries with
  | nil => exact nofun
  | cons entry entries =>
    cases entry with
    | mk key value =>
      exact forall_mem_cons.mpr
        ⟨Value.fair_equals value live.1, Value.fair_equals_entries entries live.2⟩

theorem Predicate.fair_equals (predicate : Predicate) (lives : predicate.Lives heap) :
    Fair (Predicate.Lives heap) Predicate.Equals predicate := by
  cases predicate with
  | range low high interval =>
    have fair := (Number.fair_beq low).and (Number.fair_beq high)
    apply (fair.tagged interval).lift (fun part => Predicate.range part.2.1 part.2.2 part.1)
      (fun _ _ => ⟨trivial, trivial⟩) (by simp [and_comm])
    intro part other same
    cases other <;> try cases same
    exact ⟨(_, _, _), rfl⟩
  | constant value =>
    apply (Value.fair_equals value lives).lift Predicate.constant (fun _ lives => lives)
      fun _ _ => Iff.rfl
    intro value other same
    cases other <;> try cases same
    exact ⟨_, rfl⟩
  | complement inner | list inner =>
    refine (Predicate.fair_equals inner lives).lift _ (fun _ lives => lives)
      (fun _ _ => Iff.rfl) ?_
    intro inner other same
    cases other <;> try cases same
    exact ⟨_, rfl⟩
  | dict key value =>
    have fair := (Predicate.fair_equals key lives.1).and (Predicate.fair_equals value lives.2)
    apply fair.lift (fun part => Predicate.dict part.1 part.2) (fun _ lives => lives)
      fun _ _ => Bool.and_eq_true_iff
    intro part other same
    cases other <;> try cases same
    exact ⟨(_, _), rfl⟩
  | unchecked element | array _ element =>
    cases element with
    | none =>
      apply Fair.of_eq
      intro other same
      cases other with
      | unchecked element | array _ element => cases element <;> simp_all
      | _ => cases same
    | some inner =>
      apply Fair.lift (Predicate.fair_equals inner lives)
      · exact fun _ lives => lives
      · simp
      · intro inner other same
        cases other with
        | unchecked element | array _ element => cases element <;> simp_all
        | _ => cases same
  | allOf members | anyOf members | tuple members =>
    have fair := Fair.forall₂ (Predicate.fair_equals_all members lives)
    refine fair.lift _ (fun _ => Predicate.allLive_iff.mp)
      (fun _ _ => Predicate.allStructurallyEqual_iff) ?_
    intro members other same
    cases other <;> try cases same
    exact ⟨_, rfl⟩
  | oneOf members =>
    have fair := Fair.forall₂ (Value.fair_equals_all members lives)
    apply fair.lift Predicate.oneOf (fun _ => Value.allLive_iff.mp)
      fun _ _ => Value.allStructurallyEqual_iff
    intro members other same
    cases other <;> try cases same
    exact ⟨_, rfl⟩
  | parameters entries mandatory =>
    have fair := Fair.forall₂ (Predicate.fair_equals_entries entries lives)
    apply fair.lift (Predicate.parameters · mandatory) (fun _ => Predicate.entriesLive_iff.mp)
      (by simp [Predicate.entriesStructurallyEqual_iff])
    intro entries other same
    cases other <;> try cases same
    simp_all
  | _ =>
    apply Fair.of_eq
    intro other same
    cases other <;> try cases same
    all_goals simp_all

theorem Predicate.fair_equals_all (predicates : List Predicate)
    (live : Predicate.AllLive heap predicates) :
    ∀ predicate ∈ predicates, Fair (Predicate.Lives heap) Predicate.Equals predicate := by
  cases predicates with
  | nil => exact nofun
  | cons predicate predicates =>
    exact forall_mem_cons.mpr
      ⟨Predicate.fair_equals predicate live.1, Predicate.fair_equals_all predicates live.2⟩

theorem Predicate.fair_equals_entries (entries : List (Text × Predicate))
    (live : Predicate.EntriesLive heap entries) :
    ∀ entry ∈ entries, Fair (fun entry : Text × Predicate => entry.2.Lives heap)
      (fun left right => left.1 = right.1 ∧ left.2.Equals right.2) entry := by
  cases entries with
  | nil => exact nofun
  | cons entry entries =>
    cases entry with
    | mk name predicate =>
      exact forall_mem_cons.mpr ⟨(Predicate.fair_equals predicate live.1).tagged name,
        Predicate.fair_equals_entries entries live.2⟩

end

end Covenant
