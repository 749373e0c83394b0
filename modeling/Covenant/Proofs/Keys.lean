import Covenant.Value.Equality
import Mathlib

/-!
# Keys of dictionaries

Equality that is not reflexive, as not-a-number has it, is still symmetric and transitive: it is so
for what a constructor makes if it is for the parts. Inserting entries one after the other keeps all
of them exactly when their keys are apart.
-/

set_option autoImplicit false

namespace Covenant

open List

/-!
## Partial equivalences
-/

/-- Among the values that live, a relation is symmetric and transitive from one value on. -/
def Fair {α : Type} (lives : α → Prop) (alike : α → α → Prop) (value : α) : Prop :=
  ∀ other, lives other → alike value other →
    alike other value ∧ ∀ third, lives third → alike other third → alike value third

namespace Fair

variable {α β : Type} {lives : α → Prop} {alike : α → α → Prop}

theorem of_eq {value : α} (same : ∀ other, alike value other → other = value) :
    Fair lives alike value := by
  intro other _ related
  cases same other related
  exact ⟨related, fun _ _ next => next⟩

/-- A relation is fair to what a constructor makes if it looks through the constructor. -/
theorem lift {inside : β → Prop} {within : β → β → Prop} {part : β} (fair : Fair inside within part)
    (make : β → α) (living : ∀ part, lives (make part) → inside part)
    (look : ∀ part other, alike (make part) (make other) ↔ within part other)
    (inverse : ∀ part value, alike (make part) value → ∃ other, make other = value) :
    Fair lives alike (make part) := by
  intro value lives related
  obtain ⟨other, rfl⟩ := inverse part value related
  obtain ⟨back, next⟩ := fair other (living other lives) ((look _ _).mp related)
  refine ⟨(look _ _).mpr back, ?_⟩
  intro third lives related
  obtain ⟨third, rfl⟩ := inverse other third related
  exact (look _ _).mpr (next third (living third lives) ((look _ _).mp related))

theorem forall₂ {items : List α} (fair : ∀ item ∈ items, Fair lives alike item) :
    Fair (fun items => ∀ item ∈ items, lives item) (Forall₂ alike) items := by
  intro others living same
  induction same with
  | nil => exact ⟨.nil, fun _ _ same => same⟩
  | @cons item other items others first rest ih =>
    obtain ⟨fairItem, fairItems⟩ := forall_mem_cons.mp fair
    obtain ⟨livesOther, livesOthers⟩ := forall_mem_cons.mp living
    obtain ⟨back, next⟩ := fairItem other livesOther first
    obtain ⟨backs, nexts⟩ := ih fairItems livesOthers
    refine ⟨.cons back backs, ?_⟩
    intro thirds living same
    cases same with
    | cons second others =>
      obtain ⟨livesThird, livesThirds⟩ := forall_mem_cons.mp living
      exact .cons (next _ livesThird second) (nexts _ livesThirds others)

theorem on (view : β → α) (part : β) (fair : Fair lives alike (view part)) :
    Fair (fun part => lives (view part)) (fun part other => alike (view part) (view other)) part :=
  fun other living same =>
    (fair (view other) living same).imp_right fun next third => next (view third)

theorem and {inside : β → Prop} {within : β → β → Prop} {left : α} {right : β}
    (first : Fair lives alike left) (second : Fair inside within right) :
    Fair (fun pair : α × β => lives pair.1 ∧ inside pair.2)
      (fun pair other => alike pair.1 other.1 ∧ within pair.2 other.2) (left, right) := by
  intro other living same
  obtain ⟨firstBack, firstNext⟩ := first _ living.1 same.1
  obtain ⟨secondBack, secondNext⟩ := second _ living.2 same.2
  exact ⟨⟨firstBack, secondBack⟩, fun third living same =>
    ⟨firstNext _ living.1 same.1, secondNext _ living.2 same.2⟩⟩

theorem tagged {value : α} (tag : β) (fair : Fair lives alike value) :
    Fair (fun pair : β × α => lives pair.2)
      (fun pair other => pair.1 = other.1 ∧ alike pair.2 other.2) (tag, value) := by
  intro other living ⟨same, related⟩
  obtain ⟨back, next⟩ := fair other.2 living related
  exact ⟨⟨same.symm, back⟩, fun third living second =>
    ⟨same.trans second.1, next third.2 living second.2⟩⟩

end Fair

/-!
## Keys
-/

theorem Number.fair_beq (number : Float) :
    Fair (fun _ => True) (fun left right : Float => (left == right) = true) number := by
  simp only [Fair, Float.beq_iff_ne_nan_and_eq]
  grind

theorem fair_sameObject (object : ObjectId) :
    Fair (fun _ => True) (fun left right => sameObject left right = true) object := by
  simp only [Fair, sameObject]
  grind

theorem Value.sameKeys_iff {lefts rights : List Value} : Value.sameKeys lefts rights = true ↔
    Forall₂ (fun left right => left.sameKey right = true) lefts rights := by
  induction lefts generalizing rights with
  | nil => cases rights <;> simp [sameKeys]
  | cons left lefts ih => cases rights <;> simp [sameKeys, ih]

abbrev Value.Finds (left right : Value) : Prop := left.sameKey right = true

/-- Predicates find each other as parts of the objects that hold them. -/
abbrev Predicate.Finds (left right : ObjectId × Predicate) : Prop :=
  left.2.sameKey (sameObject left.1 right.1) right.2 = true

section

variable {object : ObjectId} {predicate : Predicate}

theorem Predicate.fair_finds_leaf
    (only : ∀ other shared, predicate.sameKey shared other = true → predicate = other)
    (unshared : ∀ other shared apart,
      predicate.sameKey shared other = predicate.sameKey apart other) :
    Fair (fun _ => True) Predicate.Finds (object, predicate) := by
  rintro ⟨object, other⟩ _ same
  obtain rfl := only other _ same
  exact ⟨(unshared _ _ _).trans same, fun third _ next => (unshared _ _ _).trans next⟩

theorem Predicate.fair_finds_made {α : Type} {inside : ObjectId × α → Prop}
    {within : ObjectId × α → ObjectId × α → Prop} {part : α}
    (fair : Fair inside within (object, part)) (make : α → Predicate) (living : ∀ part, inside part)
    (look : ∀ part other,
      Predicate.Finds (part.1, make part.2) (other.1, make other.2) ↔ within part other)
    (inverse : ∀ shared part other, (make part).sameKey shared other = true →
      ∃ part, make part = other) :
    Fair (fun _ => True) Predicate.Finds (object, make part) := by
  apply fair.lift (fun part => (part.1, make part.2)) (fun part _ => living part) look
  rintro part ⟨object, other⟩ same
  obtain ⟨inner, rfl⟩ := inverse _ _ _ same
  exact ⟨(object, inner), rfl⟩

end

attribute [local simp] Value.Finds Value.sameKey Predicate.Finds Predicate.sameKey

mutual

theorem Value.fair_finds (value : Value) : Fair (fun _ => True) Value.Finds value := by
  cases value with
  | float type number =>
    apply (Number.fair_beq number).lift (Value.float type) (fun _ _ => trivial) (by simp)
    intro number value same
    -- No key of another constructor is found: the comparison computes to `false`.
    cases value <;> try cases same
    simp_all
  | list type object items =>
    have fair := (Fair.forall₂ (Value.fair_finds_all items)).on Prod.snd (object, items)
    apply fair.lift (fun part => Value.list type part.1 part.2) (fun _ _ _ _ => trivial)
      (by simp [Value.sameKeys_iff])
    intro part value same
    cases value <;> try cases same
    simp_all
  | record type fields =>
    have fair := Fair.forall₂ (Value.fair_finds_all fields)
    apply fair.lift (Value.record type) (fun _ _ _ _ => trivial) (by simp [Value.sameKeys_iff])
    intro fields value same
    cases value <;> try cases same
    simp_all
  | pointer type object target =>
    have fair := (fair_sameObject object).on Prod.fst (object, target)
    apply fair.lift (fun part => Value.pointer type part.1 part.2) (fun _ _ => trivial) (by simp)
    intro part value same
    cases value <;> try cases same
    simp_all
  | predicate object inner =>
    have fair := Predicate.fair_finds inner object
    apply fair.lift (fun part => Value.predicate part.1 part.2) (fun _ _ => trivial) (by simp)
    intro part value same
    cases value <;> try cases same
    exact ⟨(_, _), rfl⟩
  | _ =>
    apply Fair.of_eq
    intro other same
    cases other <;> try cases same
    all_goals simp_all

theorem Value.fair_finds_all (values : List Value) :
    ∀ value ∈ values, Fair (fun _ => True) Value.Finds value := by
  cases values with
  | nil => exact nofun
  | cons value values =>
    exact forall_mem_cons.mpr ⟨Value.fair_finds value, Value.fair_finds_all values⟩

theorem Predicate.fair_finds (predicate : Predicate) (object : ObjectId) :
    Fair (fun _ => True) Predicate.Finds (object, predicate) := by
  cases predicate with
  | constant value =>
    apply Predicate.fair_finds_made ((Value.fair_finds value).on Prod.snd (object, value))
      Predicate.constant (fun _ => trivial) fun _ _ => Iff.rfl
    intro shared part other same
    cases other <;> try cases same
    exact ⟨_, rfl⟩
  | range low high interval =>
    apply Predicate.fair_finds_made ((fair_sameObject object).on Prod.fst (_, low, high, interval))
      (fun part => .range part.1 part.2.1 part.2.2) (fun _ => trivial) fun _ _ => Iff.rfl
    intro shared part other same
    cases other <;> try cases same
    exact ⟨(_, _, _), rfl⟩
  | generic type =>
    apply Predicate.fair_finds_made ((fair_sameObject object).on Prod.fst (_, type))
      Predicate.generic (fun _ => trivial) fun _ _ => Iff.rfl
    intro shared part other same
    cases other <;> try cases same
    exact ⟨_, rfl⟩
  | complement inner | list inner =>
    refine Predicate.fair_finds_made (Predicate.fair_finds inner object) _ (fun _ => trivial)
      (fun _ _ => Iff.rfl) ?_
    intro shared inner other same
    cases other <;> try cases same
    exact ⟨_, rfl⟩
  | dict key value =>
    have fair := ((Predicate.fair_finds key object).and (Predicate.fair_finds value object)).on
      (fun part => ((part.1, part.2.1), part.1, part.2.2)) (object, key, value)
    apply Predicate.fair_finds_made fair (fun part => Predicate.dict part.1 part.2)
      (fun _ => ⟨trivial, trivial⟩) fun _ _ => Bool.and_eq_true_iff
    intro shared part other same
    cases other <;> try cases same
    exact ⟨(_, _), rfl⟩
  | unchecked element | array _ element =>
    cases element with
    | none =>
      apply Predicate.fair_finds_leaf
      · intro other shared same
        cases other with
        | unchecked element | array _ element => cases element <;> simp_all
        | _ => cases same
      · intro other shared apart
        cases other with
        | unchecked element | array _ element => cases element <;> rfl
        | _ => rfl
    | some inner =>
      apply Predicate.fair_finds_made (Predicate.fair_finds inner object)
      · exact fun _ => trivial
      · simp
      · intro shared inner other same
        cases other with
        | unchecked element | array _ element => cases element <;> simp_all
        | _ => cases same
  | _ =>
    apply Predicate.fair_finds_leaf
    · intro other shared same
      cases other <;> try cases same
      all_goals simp_all
    · intro other shared apart
      cases other <;> rfl

end

theorem Value.sameKey_comm (left right : Value) : left.sameKey right = right.sameKey left := by
  rw [Bool.eq_iff_iff]
  exact ⟨fun finds => (left.fair_finds right trivial finds).1,
    fun finds => (right.fair_finds left trivial finds).1⟩

/-- Two keys that can stand in one dictionary. -/
def Value.Apart (earlier later : Value) : Prop := later.sameKey earlier = false

theorem Value.Apart.symm {earlier later : Value} (apart : earlier.Apart later) :
    later.Apart earlier := by
  unfold Apart at apart ⊢
  rwa [sameKey_comm]

/-!
## Entries put into a dictionary
-/

/-- The entries after others were inserted in their order. -/
def gather (done added : List (Value × Value)) : List (Value × Value) :=
  added.foldl (fun done entry => insertKey entry.1 entry.2 done) done

section

variable {key value : Value} {entries : List (Value × Value)}

theorem insertKey_of_apart (apart : ∀ entry ∈ entries, entry.1.Apart key) :
    insertKey key value entries = entries ++ [(key, value)] := by
  induction entries with
  | nil => rfl
  | cons entry entries ih =>
    obtain ⟨first, others⟩ := forall_mem_cons.mp apart
    rw [insertKey, first, if_neg Bool.false_ne_true, ih others, cons_append]

theorem length_insertKey_of_sameKey {entry : Value × Value} (member : entry ∈ entries)
    (same : ¬entry.1.Apart key) : (insertKey key value entries).length = entries.length := by
  induction entries with
  | nil => cases member
  | cons head entries ih =>
    rw [insertKey]
    split
    · rfl
    · next different =>
      cases member with
      | head => exact absurd (Bool.eq_false_of_not_eq_true different) same
      | tail _ later => rw [length_cons, length_cons, ih later]

theorem length_insertKey_le : (insertKey key value entries).length ≤ entries.length + 1 := by
  by_cases apart : ∀ entry ∈ entries, entry.1.Apart key
  · rw [insertKey_of_apart apart, length_append, length_singleton]
  · push Not at apart
    obtain ⟨entry, member, same⟩ := apart
    rw [length_insertKey_of_sameKey member same]
    exact Nat.le_succ _

end

theorem length_gather_le (done added : List (Value × Value)) :
    (gather done added).length ≤ done.length + added.length := by
  induction added generalizing done with
  | nil => exact Nat.le_refl _
  | cons entry added ih =>
    have first := @length_insertKey_le entry.1 entry.2 done
    have others := ih (insertKey entry.1 entry.2 done)
    change (gather (insertKey entry.1 entry.2 done) added).length ≤
      done.length + (added.length + 1)
    omega

theorem gather_of_apart {done added : List (Value × Value)}
    (apart : ((done ++ added).map (·.1)).Pairwise Value.Apart) :
    gather done added = done ++ added := by
  induction added generalizing done with
  | nil => exact (append_nil done).symm
  | cons entry added ih =>
    have fresh : ∀ before ∈ done, before.1.Apart entry.1 := by
      intro before member
      rw [map_append, pairwise_append] at apart
      exact apart.2.2 before.1 (mem_map_of_mem member) entry.1 mem_cons_self
    change gather (insertKey entry.1 entry.2 done) added = done ++ entry :: added
    rw [insertKey_of_apart fresh, ih, append_assoc, singleton_append]
    rwa [append_assoc, singleton_append]

theorem gather_nil_of_apart {added : List (Value × Value)}
    (apart : (added.map (·.1)).Pairwise Value.Apart) : gather [] added = added :=
  @gather_of_apart [] added apart

theorem apart_of_length_gather {done added : List (Value × Value)}
    (before : (done.map (·.1)).Pairwise Value.Apart)
    (counted : (gather done added).length = done.length + added.length) :
    ((done ++ added).map (·.1)).Pairwise Value.Apart := by
  induction added generalizing done with
  | nil => rwa [append_nil]
  | cons entry added ih =>
    change (gather (insertKey entry.1 entry.2 done) added).length =
      done.length + (added.length + 1) at counted
    have others := length_gather_le (insertKey entry.1 entry.2 done) added
    have fresh : ∀ before ∈ done, before.1.Apart entry.1 := by
      by_contra same
      push Not at same
      obtain ⟨other, member, same⟩ := same
      have replaced := @length_insertKey_of_sameKey entry.1 entry.2 done other member same
      omega
    rw [insertKey_of_apart fresh] at counted
    have appended := @ih (done ++ [entry]) ?_ ?_
    · rwa [append_assoc, singleton_append] at appended
    · rw [map_append, pairwise_append]
      refine ⟨before, pairwise_singleton _ _, ?_⟩
      intro earlier member later last
      obtain ⟨other, inside, rfl⟩ := mem_map.mp member
      cases mem_singleton.mp last
      exact fresh other inside
    · rw [counted, length_append, length_singleton]
      omega

end Covenant
