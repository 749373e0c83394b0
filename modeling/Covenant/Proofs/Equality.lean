import Covenant.Condition.Operators
import Covenant.Proofs.StructuralEquality
import Covenant.Sample

/-!
# Equality of conditions

Conditions sort values into numbers, texts, sequences and others before they compare them, in the
same way on both sides, so their equality is symmetric and transitive as well. Membership in a
sequence cannot tell equal values apart.
-/

set_option autoImplicit false

namespace Covenant.Condition

abbrev Same (left right : Value) : Prop := equal left right = true

/-- What equality looks at. -/
inductive Kind where
  | number (value : Float)
  | text (value : Text)
  | items (values : List Value)
  | other (value : Value)

namespace Kind

/-- Kinds are alike if they are of one sort and hold equal things. -/
def Alike : Kind → Kind → Prop
  | .number left, .number right => (left == right) = true
  | .text left, .text right => left = right
  | .items lefts, .items rights => List.Forall₂ Same lefts rights
  | .other left, .other right => left.Equals right
  | _, _ => False

def Lives (heap : Heap) : Kind → Prop
  | .items values => ∀ value ∈ values, value.Lives heap
  | .other value => value.Lives heap
  | _ => True

end Kind

def kind (value : Value) : Kind :=
  match toNum? value, value.plainText?, sequence? value with
  | some number, _, _ => .number number.toFloat
  | none, some text, _ => .text text
  | none, none, some items => .items items
  | none, none, none => .other value

/-!
## Kinds of values
-/

section

variable {value left right item : Value} {items others : List Value}

theorem arrayParts?_eq_some {shape data : Value} (found : value.arrayParts? = some (shape, data)) :
    value = .record .numericArray [shape, data] := by
  fun_cases Value.arrayParts? value <;> simp_all [Value.arrayParts?]

theorem items?_getD (data : Value) :
    (∃ type object, data = .list type object (data.items?.getD [])) ∨
      data.items?.getD [] = [] ∧ ∀ type object items, data ≠ .list type object items := by
  cases data with
  | list type object items => exact .inl ⟨type, object, rfl⟩
  | absent type =>
    refine .inr ⟨?_, nofun⟩
    cases shape : type.underlying <;> simp [Value.items?, shape]
  | _ => exact .inr ⟨rfl, nofun⟩

/-- The items of a sequence stand in it, alone or under a shape, or there are none. -/
theorem sequence?_cases (found : sequence? value = some items) :
    (∃ type object, value = .list type object items) ∨
      (∃ shape type object, value = .record .numericArray [shape, .list type object items]) ∨
        items = [] ∧ ((∃ type, value = .absent type) ∨ ∃ shape data,
          value = .record .numericArray [shape, data] ∧
            ∀ type object items, data ≠ .list type object items) := by
  cases parts : value.arrayParts? with
  | some pair =>
    have held : pair.2.items?.getD [] = items := by simpa [sequence?, parts] using found
    obtain rfl := arrayParts?_eq_some parts
    obtain ⟨type, object, same⟩ | ⟨empty, bare⟩ := items?_getD pair.2
    · exact .inr (.inl ⟨pair.1, type, object, by rw [← held, ← same]⟩)
    · exact .inr (.inr ⟨held ▸ empty, .inr ⟨pair.1, pair.2, rfl, bare⟩⟩)
  | none =>
    have inner : value.items? = some items := by simpa [sequence?, parts] using found
    fun_cases Value.items? value <;> simp_all [Value.items?]

theorem kind_cases (value : Value) :
    (∃ number, toNum? value = some number ∧ value.plainText? = none ∧ sequence? value = none ∧
      value.isNil = false ∧ kind value = .number number.toFloat) ∨
    (∃ text, toNum? value = none ∧ value.plainText? = some text ∧ sequence? value = none ∧
      value.isNil = false ∧ kind value = .text text) ∨
    (∃ items, toNum? value = none ∧ value.plainText? = none ∧ sequence? value = some items ∧
      value.isNil = false ∧ kind value = .items items) ∨
    (toNum? value = none ∧ value.plainText? = none ∧ sequence? value = none ∧
      kind value = .other value) := by
  cases counted : toNum? value with
  | some number =>
    have scalar : value.plainText? = none ∧ sequence? value = none ∧ value.isNil = false := by
      cases value <;> first | exact ⟨rfl, rfl, rfl⟩ | exact nomatch counted
    exact .inl ⟨number, by simp [kind, counted, scalar]⟩
  | none =>
    cases read : value.plainText? with
    | some text =>
      have scalar : sequence? value = none ∧ value.isNil = false := by
        cases value <;> first | exact ⟨rfl, rfl⟩ | exact nomatch read
      exact .inr (.inl ⟨text, by simp [kind, counted, read, scalar]⟩)
    | none =>
      cases found : sequence? value with
      | some items =>
        have proper : value.isNil = false := by
          cases value <;> first | rfl | exact nomatch found
        exact .inr (.inr (.inl ⟨items, by simp [kind, counted, read, found, proper]⟩))
      | none => exact .inr (.inr (.inr (by simp [kind, counted, read, found])))

/-!
## Equality by kinds
-/

theorem equalItems_iff : equalItems items others = true ↔ List.Forall₂ Same items others := by
  induction items generalizing others with
  | nil => cases others <;> simp [equalItems]
  | cons item items ih => cases others <;> simp [equalItems, ih]

theorem equal_of_sequence (found : sequence? left = some items) :
    equal left right = (sequence? right).any (equalItems items) := by
  have empty (none : items = [])
      (falls : equal left right = (!right.isNil && (sequence? right).any (·.isEmpty))) :
      equal left right = (sequence? right).any (equalItems items) := by
    obtain ⟨_, views⟩ | ⟨_, views⟩ | ⟨others, views⟩ | views := kind_cases right
    all_goals simp [falls, views, none]
    cases others <;> rfl
  obtain ⟨type, object, rfl⟩ | ⟨shape, type, object, rfl⟩ |
    ⟨rfl, ⟨type, rfl⟩ | ⟨shape, data, rfl, bare⟩⟩ := sequence?_cases found
  · cases others : sequence? right <;> simp [equal, others]
  · cases others : sequence? right <;> simp [equal, others]
  · refine empty rfl ?_
    cases others : sequence? right <;> simp [equal, toNum?, Value.plainText?, found, others]
  · refine empty rfl ?_
    cases data with
    | list type object items => exact absurd rfl (bare type object items)
    | _ => cases others : sequence? right <;> simp [equal, toNum?, Value.plainText?, found, others]

theorem contractEqual_of_uncounted (counted : toNum? left = none) :
    left.contractEqual right = (right.asFloat?.isNone && left.structurallyEqual right) := by
  have uncounted : left.asFloat? = none := by
    cases left <;> first | rfl | exact nomatch counted
  rw [Value.contractEqual, uncounted]
  cases right.asFloat? <;> rfl

theorem contractEqual_iff (counted : toNum? left = none) (read : left.plainText? = none) :
    left.contractEqual right = true ↔
      toNum? right = none ∧ right.plainText? = none ∧ left.Equals right := by
  rw [contractEqual_of_uncounted counted]
  cases right with
  | bool type truth =>
    have typed (same : left.Equals (.bool type truth)) : toNum? (.bool type truth) = none := by
      cases left <;> simp_all [Value.Equals, Value.structurallyEqual]
    simpa [Value.asFloat?, Value.plainText?] using typed
  | text type text =>
    have typed (same : left.Equals (.text type text)) :
        (Value.text type text).plainText? = none := by
      cases left <;> simp_all [Value.Equals, Value.structurallyEqual]
    simpa [Value.asFloat?, toNum?] using typed
  | _ => simp [Value.asFloat?, toNum?, Value.plainText?]

theorem equal_of_other (counted : toNum? left = none) (read : left.plainText? = none)
    (found : sequence? left = none) :
    equal left right = ((sequence? right).isNone && left.contractEqual right) := by
  have unlike : left.structurallyEqual .nil = left.isNil := by
    cases left <;> simp [Value.structurallyEqual, Value.isNil]
  rw [equal.eq_def]
  split
  · rw [contractEqual_of_uncounted rfl]
    cases right <;> simp [Value.isNil, Value.asFloat?, Value.structurallyEqual, found]
  · cases found
  · next type _ _ _ _ =>
    have other : type ≠ .numericArray := by
      intro same
      simp [sequence?, Value.arrayParts?, same] at found
    simp [other]
  · cases others : sequence? right with
    | some items => simp [counted, read, found]
    | none =>
      cases right with
      | nil => simp [contractEqual_of_uncounted counted, unlike, Value.isNil]
      | _ => simp [counted, read, found, Value.isNil]

theorem equal_of_number {number : Num} (counted : toNum? left = some number) :
    Same left right ↔ (Kind.number number.toFloat).Alike (kind right) := by
  cases left with
  | bool | int | float =>
    obtain ⟨_, views⟩ | ⟨_, views⟩ | ⟨_, views⟩ | views := kind_cases right
    all_goals simp [Same, equal, counted, views, Kind.Alike]
  | _ => exact nomatch counted

theorem equal_of_text {text : Text} (read : left.plainText? = some text) :
    Same left right ↔ (Kind.text text).Alike (kind right) := by
  cases left with
  | text =>
    obtain ⟨_, views⟩ | ⟨_, views⟩ | ⟨_, views⟩ | views := kind_cases right
    all_goals simp [Same, equal, toNum?, read, views, Kind.Alike]
    exact eq_comm
  | _ => exact nomatch read

theorem same_iff_alike : Same left right ↔ (kind left).Alike (kind right) := by
  obtain ⟨number, counted, _, _, _, same⟩ | ⟨text, _, read, _, _, same⟩ |
    ⟨items, _, _, found, _, same⟩ | ⟨counted, read, found, same⟩ := kind_cases left
  · simpa only [same] using equal_of_number counted
  · simpa only [same] using equal_of_text read
  · obtain ⟨_, views⟩ | ⟨_, views⟩ | ⟨_, views⟩ | views := kind_cases right
    all_goals simp [Same, same, equal_of_sequence found, views, Kind.Alike, equalItems_iff]
  · obtain ⟨_, views⟩ | ⟨_, views⟩ | ⟨_, views⟩ | views := kind_cases right
    all_goals simp [Same, same, equal_of_other counted read found, contractEqual_iff counted read,
      views, Kind.Alike]

/-!
## Symmetry and transitivity
-/

variable {heap : Heap}

theorem lives_of_sequence (lives : value.Lives heap) (found : sequence? value = some items) :
    ∀ item ∈ items, item.Lives heap := by
  obtain ⟨type, object, rfl⟩ | ⟨shape, type, object, rfl⟩ | ⟨rfl, _⟩ := sequence?_cases found
  · exact Value.allLive_iff.mp lives.2
  · exact Value.allLive_iff.mp lives.2.1.2
  · exact nofun

theorem kind_lives (lives : value.Lives heap) : (kind value).Lives heap := by
  obtain ⟨_, views⟩ | ⟨_, views⟩ | ⟨_, _, _, found, _, same⟩ | views := kind_cases value
  · simp [views, Kind.Lives]
  · simp [views, Kind.Lives]
  · simpa [same, Kind.Lives] using lives_of_sequence lives found
  · simpa [views, Kind.Lives] using lives

theorem sizeOf_lt_of_sequence (found : sequence? value = some items) (member : item ∈ items) :
    sizeOf item < sizeOf value := by
  have inner := List.sizeOf_lt_of_mem member
  obtain ⟨type, object, rfl⟩ | ⟨shape, type, object, rfl⟩ | ⟨rfl, _⟩ := sequence?_cases found
  · simp only [Value.list.sizeOf_spec]
    omega
  · simp only [Value.record.sizeOf_spec, Value.list.sizeOf_spec, List.cons.sizeOf_spec]
    omega
  · cases member

theorem fair_same (value : Value) (lives : value.Lives heap) :
    Fair (Value.Lives heap) Same value := by
  have alike : Fair (Kind.Lives heap) Kind.Alike (kind value) := by
    obtain ⟨number, views⟩ | ⟨text, views⟩ | ⟨items, _, _, found, _, same⟩ | views :=
      kind_cases value
    · simp only [views]
      apply (Number.fair_beq _).lift Kind.number (fun _ _ => trivial) fun _ _ => Iff.rfl
      intro number other
      cases other <;> simp [Kind.Alike]
    · simp only [views]
      apply Fair.of_eq
      intro other
      cases other <;> simp +contextual [Kind.Alike]
    · -- The items of a sequence are smaller than it.
      have fair (item : Value) (member : item ∈ items) :=
        have := sizeOf_lt_of_sequence found member
        fair_same item (lives_of_sequence lives found item member)
      simp only [same]
      apply (Fair.forall₂ fair).lift Kind.items (fun _ living => living) fun _ _ => Iff.rfl
      intro items other
      cases other <;> simp [Kind.Alike]
    · simp only [views]
      apply (Value.fair_equals value lives).lift Kind.other (fun _ living => living)
        fun _ _ => Iff.rfl
      intro value other
      cases other <;> simp [Kind.Alike]
  intro other livesOther same
  obtain ⟨back, next⟩ := alike (kind other) (kind_lives livesOther) (same_iff_alike.mp same)
  refine ⟨same_iff_alike.mpr back, ?_⟩
  intro third livesThird second
  exact same_iff_alike.mpr (next (kind third) (kind_lives livesThird) (same_iff_alike.mp second))
termination_by sizeOf value

theorem equal_comm (livesLeft : left.Lives heap) (livesRight : right.Lives heap) :
    equal left right = equal right left := by
  rw [Bool.eq_iff_iff]
  exact ⟨fun same => (fair_same left livesLeft right livesRight same).1,
    fun same => (fair_same right livesRight left livesLeft same).1⟩

theorem equal_congr (livesLeft : left.Lives heap) (livesRight : right.Lives heap)
    (lives : value.Lives heap) (same : Same left right) : equal left value = equal right value := by
  obtain ⟨back, next⟩ := fair_same left livesLeft right livesRight same
  rw [Bool.eq_iff_iff]
  exact ⟨(fair_same right livesRight left livesLeft back).2 value lives, next value lives⟩

theorem contains_of_sequence (world : World) (found : sequence? value = some items) :
    contains world value item = .ok (items.any (equal · item)) := by
  have other : value.entries? = none := by
    obtain ⟨type, object, rfl⟩ | ⟨shape, type, object, rfl⟩ |
      ⟨rfl, ⟨type, rfl⟩ | ⟨shape, data, rfl, _⟩⟩ := sequence?_cases found
    · rfl
    · rfl
    · cases shape : type.underlying <;>
        simp_all [sequence?, Value.arrayParts?, Value.items?, Value.entries?]
    · rfl
  cases value with
  | list | absent | record => simp only [contains, other, found]
  | _ => exact nomatch found

theorem any_equal_congr (live : ∀ item ∈ items, item.Lives heap)
    (liveOthers : ∀ item ∈ others, item.Lives heap) (lives : value.Lives heap)
    (same : List.Forall₂ Same items others) :
    items.any (equal · value) = others.any (equal · value) := by
  induction same with
  | nil => rfl
  | cons same _ ih =>
    obtain ⟨livesItem, live⟩ := List.forall_mem_cons.mp live
    obtain ⟨livesOther, liveOthers⟩ := List.forall_mem_cons.mp liveOthers
    simp only [List.any_cons, equal_congr livesItem livesOther lives same, ih live liveOthers]

end

/-- Equality of conditions is symmetric and transitive among values that exist side by side, though
not-a-number does not equal itself. So a sequence has an item if it has an equal one, and equal
sequences have the same items. -/
theorem equal_partial_equivalence (world : World) {heap : Heap} {x y z : Value}
    (livesX : x.Lives heap) (livesY : y.Lives heap) (livesZ : z.Lives heap) :
    (compareValues world .equal x y = .ok true → compareValues world .equal y x = .ok true) ∧
      (compareValues world .equal x y = .ok true → compareValues world .equal y z = .ok true →
        compareValues world .equal x z = .ok true) ∧
      (compareValues world .equal x y = .ok true → ∀ items, sequence? z = some items →
        compareValues world .within x z = compareValues world .within y z) ∧
      (compareValues world .equal x y = .ok true → ∀ items, sequence? x = some items →
        compareValues world .within z x = compareValues world .within z y) := by
  have equals (left right : Value) :
      compareValues world .equal left right = .ok true ↔ Same left right := by
    simp [compareValues]
  have within (item container : Value) :
      compareValues world .within item container = contains world container item := rfl
  simp only [equals, within]
  refine ⟨?_, ?_, ?_, ?_⟩
  · intro same
    exact (fair_same x livesX y livesY same).1
  · intro same second
    exact (fair_same x livesX y livesY same).2 z livesZ second
  · intro same items found
    have shared : items.any (equal · x) = items.any (equal · y) := by
      rw [Bool.eq_iff_iff, List.any_eq_true, List.any_eq_true]
      refine exists_congr fun item => and_congr_right fun member => ?_
      have lives := lives_of_sequence livesZ found item member
      rw [equal_comm lives livesX, equal_congr livesX livesY lives same, equal_comm livesY lives]
    rw [contains_of_sequence world found, contains_of_sequence world found, shared]
  · intro same items found
    obtain ⟨others, foundOthers, alike⟩ :
        ∃ others, sequence? y = some others ∧ List.Forall₂ Same items others := by
      simpa [Same, equal_of_sequence found, Option.any_eq_true, equalItems_iff] using same
    rw [contains_of_sequence world found, contains_of_sequence world foundOthers,
      any_equal_congr (lives_of_sequence livesX found) (lives_of_sequence livesY foundOthers) livesZ
        alike]

/-- A dictionary with not-a-number. -/
def ledger : Value := .dict (.map .any .any) 7 [(.ofText "rate", .ofFloat Number.notANumber)]

def ledgers (object : ObjectId) (number : Value) : Value :=
  .list (.slice .any) object [ledger, number]

def ledgerHeap : Heap where
  object _ object :=
    if object = 1 then ledgers 1 (.ofInt 1)
    else if object = 2 then ledgers 2 (.ofFloat 1.0)
    else if object = 3 then ledgers 3 (.ofBool true)
    else ledger
  type _ := .nil

/-- Lists that share a dictionary are equal, though a copy of it would not equal itself. -/
theorem shared_ledgers_equal :
    (ledgers 1 (.ofInt 1)).Lives ledgerHeap ∧ (ledgers 2 (.ofFloat 1.0)).Lives ledgerHeap ∧
      (ledgers 3 (.ofBool true)).Lives ledgerHeap ∧
      compareValues ⟨Sample.host, []⟩ .equal (ledgers 1 (.ofInt 1)) (ledgers 2 (.ofFloat 1.0)) =
        .ok true ∧
      compareValues ⟨Sample.host, []⟩ .equal (ledgers 1 (.ofInt 1)) (ledgers 3 (.ofBool true)) =
        .ok true := by
  have lives (object : ObjectId) (number : Value) (plain : number.Lives ledgerHeap)
      (known : ledgerHeap.object (.slice .any) object = ledgers object number) :
      (ledgers object number).Lives ledgerHeap :=
    ⟨fun _ => known, ⟨fun _ => rfl, List.pairwise_singleton _ _, trivial, trivial⟩, plain, trivial⟩
  have first := lives 1 (.ofInt 1) trivial rfl
  have second := lives 2 (.ofFloat 1.0) trivial rfl
  have third := lives 3 (.ofBool true) trivial rfl
  have law := equal_partial_equivalence ⟨Sample.host, []⟩ first second third
  exact ⟨first, second, third, rfl, law.2.1 rfl rfl⟩

end Covenant.Condition
