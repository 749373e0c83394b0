import Covenant.Proofs.Acceptance
import Covenant.Sample
import Mathlib.Algebra.Group.Nat.Even
import Mathlib.Logic.Relation

/-!
# Wider and narrower types

One type is within another when the other accepts all that it accepts. Every constructor of types
respects this order in each of its places, except that negation turns it round.
-/

set_option autoImplicit false

namespace Covenant.Predicate

open List

variable {narrow wide : Predicate}

/-- Every value that the one type accepts, the other accepts too. -/
def Within (world : World) (narrow wide : Predicate) : Prop :=
  ∀ value, narrow.accepts world value = true → wide.accepts world value = true

variable {world : World} {value : Value}

theorem accepts_iff {predicate : Predicate} :
    predicate.accepts world value = true ↔ predicate.test world value = .ok () :=
  isOk_iff

/-!
## What constructors ask of their parts
-/

variable {members elements : List Predicate} {element : Predicate}

theorem test_allOf_eq_ok_iff :
    (allOf members).test world value = .ok () ↔
      ∀ member ∈ members, member.test world value = .ok () := by
  rw [test, ← isOk_iff, isOk_testAll, all_eq_true]
  exact forall₂_congr fun _ _ => isOk_iff

theorem test_anyOf_eq_ok_iff :
    (anyOf members).test world value = .ok () ↔
      ∃ member ∈ members, member.test world value = .ok () := by
  have some : testSome world members value = true ↔
      ∃ member ∈ members, member.test world value = .ok () := by
    rw [testSome_eq_any, any_eq_true]
    exact exists_congr fun _ => and_congr_right fun _ => isOk_iff
  rw [test, ← some]
  cases testSome world members value <;> simp

theorem test_complement_eq_ok_iff {member : Predicate} :
    (complement member).test world value = .ok () ↔ ¬member.test world value = .ok () := by
  rw [← isOk_iff, ← isOk_iff, isOk_test_complement, Bool.not_eq_true', Bool.not_eq_true]

theorem test_list_eq_ok_iff :
    (list element).test world value = .ok () ↔
      ∃ items, value.items? = some items ∧ ∀ item ∈ items, element.test world item = .ok () := by
  rw [test]
  cases value.items? with
  | none => simp
  | some items => simpa using forM_eq_ok_iff

theorem testTuple_eq_ok_iff {items : List Value} (counted : items.length = elements.length) :
    testTuple world elements items = .ok () ↔
      List.Forall₂ (fun element item => element.test world item = .ok ()) elements items := by
  induction elements generalizing items with
  | nil =>
    cases length_eq_zero_iff.mp counted
    exact ⟨fun _ => .nil, fun _ => rfl⟩
  | cons element elements ih =>
    cases items with
    | nil => cases counted
    | cons item items =>
      rw [testTuple, andThen_eq_ok_iff, ih (Nat.succ.inj counted), forall₂_cons]

theorem test_tuple_eq_ok_iff :
    (tuple elements).test world value = .ok () ↔
      ∃ items, value.items? = some items ∧
        List.Forall₂ (fun element item => element.test world item = .ok ()) elements items := by
  rw [test]
  cases value.items? with
  | none => simp
  | some items =>
    simp only [Option.some.injEq, exists_eq_left']
    split
    · next counted => exact testTuple_eq_ok_iff counted
    · next uncounted =>
      constructor
      · intro passed
        cases passed
      · intro related
        exact absurd related.length_eq.symm uncounted

theorem test_dict_eq_ok_iff {key : Predicate} :
    (dict key element).test world value = .ok () ↔
      ∃ entries, value.entries? = some entries ∧ ∀ entry ∈ entries,
        key.test world entry.1 = .ok () ∧ element.test world entry.2 = .ok () := by
  rw [test]
  cases value.entries? with
  | none => simp
  | some entries =>
    simp only [Option.some.injEq, exists_eq_left', forM_eq_ok_iff]
    exact forall₂_congr fun _ _ => andThen_eq_ok_iff

theorem test_parameters_eq_ok_iff {declared : List (Text × Predicate)} {allMandatory : Bool} :
    (parameters declared allMandatory).test world value = .ok () ↔
      hasTextKeys value = true ∧
      (∀ entry ∈ value.entries?.getD [], ∃ name, entry.1.plainText? = some name ∧
        testNamed world declared name entry.2 = some (.ok ())) ∧
      (allMandatory = true → ∀ name ∈ declared.map Prod.fst,
        name ∈ (value.entries?.getD []).filterMap (·.1.plainText?)) := by
  rw [test]
  cases hasTextKeys value with
  | false => simp
  | true =>
    simp only [if_true, andThen_eq_ok_iff, forM_eq_ok_iff, true_and]
    refine and_congr (forall₂_congr fun entry _ => ?_) ?_
    · cases entry.1.plainText? with
      | none => simp
      | some name =>
        simp only [Option.some.injEq, exists_eq_left']
        cases testNamed world declared name entry.2 with
        | none => simp
        | some outcome => simp
    · cases allMandatory with
      | false => simp
      | true =>
        simp only [Bool.true_and, Bool.not_eq_true', isEmpty_eq_false_iff, forall_const]
        rw [← not_iff_not]
        simp

/-!
## Wider parts
-/

section Parts

variable {narrow wide : Predicate} {narrows wides : List Predicate}

theorem Within.refl (predicate : Predicate) : predicate.Within world predicate :=
  fun _ accepted => accepted

theorem Within.test (within : narrow.Within world wide)
    (passed : narrow.test world value = .ok ()) : wide.test world value = .ok () :=
  accepts_iff.mp (within value (accepts_iff.mpr passed))

theorem within_of_test
    (wider : ∀ value, narrow.test world value = .ok () → wide.test world value = .ok ()) :
    narrow.Within world wide := by
  intro value accepted
  apply accepts_iff.mpr
  apply wider
  exact accepts_iff.mp accepted

theorem Within.list (within : narrow.Within world wide) :
    (Predicate.list narrow).Within world (.list wide) := by
  apply within_of_test
  intro value passed
  obtain ⟨items, found, each⟩ := test_list_eq_ok_iff.mp passed
  exact test_list_eq_ok_iff.mpr ⟨items, found, fun item member => within.test (each item member)⟩

theorem Within.complement (within : narrow.Within world wide) :
    (Predicate.complement wide).Within world (.complement narrow) := by
  apply within_of_test
  intro value refused
  rw [test_complement_eq_ok_iff] at refused ⊢
  exact fun passed => refused (within.test passed)

theorem Within.dict {narrowKey wideKey : Predicate} (key : narrowKey.Within world wideKey)
    (element : narrow.Within world wide) :
    (Predicate.dict narrowKey narrow).Within world (.dict wideKey wide) := by
  apply within_of_test
  intro value passed
  obtain ⟨entries, found, each⟩ := test_dict_eq_ok_iff.mp passed
  refine test_dict_eq_ok_iff.mpr ⟨entries, found, fun entry member => ?_⟩
  exact ⟨key.test (each entry member).1, element.test (each entry member).2⟩

theorem Within.array (within : narrow.Within world wide) (dimensions : Nat) :
    (Predicate.array dimensions (some narrow)).Within world (.array dimensions (some wide)) := by
  apply within_of_test
  intro value passed
  -- Whichever way an array was tested, each of its numbers passed as a double.
  obtain ⟨shape, data, found, fits, deep, each⟩ := test_array_eq_ok_iff.mp passed
  refine test_array_eq_ok_iff.mpr ⟨shape, data, found, fits, deep, ?_⟩
  rintro _ ⟨⟩ number member
  exact within.test (each narrow rfl number member)

theorem allOf_within (within : List.Forall₂ (Within world) narrows wides) :
    (allOf narrows).Within world (allOf wides) := by
  apply within_of_test
  intro value passed
  rw [test_allOf_eq_ok_iff] at passed ⊢
  intro wide member
  obtain ⟨narrow, inside, narrower⟩ := exists_mem_of_forall₂ within.flip member
  exact Within.test narrower (passed narrow inside)

theorem anyOf_within (within : List.Forall₂ (Within world) narrows wides) :
    (anyOf narrows).Within world (anyOf wides) := by
  apply within_of_test
  intro value passed
  rw [test_anyOf_eq_ok_iff] at passed ⊢
  obtain ⟨narrow, member, accepted⟩ := passed
  obtain ⟨wide, inside, wider⟩ := exists_mem_of_forall₂ within member
  exact ⟨wide, inside, wider.test accepted⟩

theorem tuple_within (within : List.Forall₂ (Within world) narrows wides) :
    (tuple narrows).Within world (tuple wides) := by
  apply within_of_test
  intro value passed
  obtain ⟨items, found, each⟩ := test_tuple_eq_ok_iff.mp passed
  refine test_tuple_eq_ok_iff.mpr ⟨items, found, ?_⟩
  clear passed found
  -- The two lists of elements and the items go in step.
  induction within generalizing items with
  | nil => exact each
  | cons wider _ ih =>
    cases each with
    | cons accepted later => exact .cons (wider.test accepted) (ih _ later)

/-- Two declarations give the same names in the same order, each to a wider type in the second. -/
abbrev Declares (world : World) : List (Text × Predicate) → List (Text × Predicate) → Prop :=
  List.Forall₂ fun narrow wide => narrow.1 = wide.1 ∧ narrow.2.Within world wide.2

theorem Declares.names {narrows wides : List (Text × Predicate)}
    (declares : Declares world narrows wides) : narrows.map Prod.fst = wides.map Prod.fst := by
  induction declares with
  | nil => rfl
  | cons same _ ih => rw [map_cons, map_cons, same.1, ih]

theorem Declares.testNamed {narrows wides : List (Text × Predicate)}
    (declares : Declares world narrows wides) {name : Text}
    (passed : Predicate.testNamed world narrows name value = some (.ok ())) :
    Predicate.testNamed world wides name value = some (.ok ()) := by
  induction declares with
  | nil => exact passed
  | @cons narrow wide _ _ same _ ih =>
    rw [Predicate.testNamed] at passed ⊢
    rw [← same.1]
    split at passed
    · next found =>
      rw [if_pos found]
      exact congrArg some (same.2.test (Option.some.inj passed))
    · next missed =>
      rw [if_neg missed]
      exact ih passed

theorem parameters_within {narrows wides : List (Text × Predicate)}
    (declares : Declares world narrows wides) (allMandatory : Bool) :
    (parameters narrows allMandatory).Within world (parameters wides allMandatory) := by
  apply within_of_test
  intro value passed
  obtain ⟨keyed, each, complete⟩ := test_parameters_eq_ok_iff.mp passed
  refine test_parameters_eq_ok_iff.mpr ⟨keyed, fun entry member => ?_, declares.names ▸ complete⟩
  obtain ⟨name, named, accepted⟩ := each entry member
  exact ⟨name, named, declares.testNamed accepted⟩

theorem forall₂_replace {α : Type} {relation : α → α → Prop} (self : ∀ item, relation item item)
    {old new : α} (related : relation old new) (before after : List α) :
    List.Forall₂ relation (before ++ old :: after) (before ++ new :: after) := by
  have rest (items : List α) : List.Forall₂ relation items items :=
    forall₂_same.mpr fun item _ => self item
  exact rel_append (rest before) (.cons related (rest after))

end Parts

/-!
## Places within types
-/

/-- A constructor with one of its places left open. -/
inductive Frame where
  | list
  | tuple (before after : List Predicate)
  | allOf (before after : List Predicate)
  | anyOf (before after : List Predicate)
  | complement
  | dictKey (element : Predicate)
  | dictElement (key : Predicate)
  | parameters (before : List (Text × Predicate)) (name : Text)
      (after : List (Text × Predicate)) (allMandatory : Bool)
  | array (dimensions : Nat)
  | unchecked

namespace Frame

def fill : Frame → Predicate → Predicate
  | .list, inner => .list inner
  | .tuple before after, inner => .tuple (before ++ inner :: after)
  | .allOf before after, inner => .allOf (before ++ inner :: after)
  | .anyOf before after, inner => .anyOf (before ++ inner :: after)
  | .complement, inner => .complement inner
  | .dictKey element, inner => .dict inner element
  | .dictElement key, inner => .dict key inner
  | .parameters before name after allMandatory, inner =>
    .parameters (before ++ (name, inner) :: after) allMandatory
  | .array dimensions, inner => .array dimensions (some inner)
  | .unchecked, inner => .unchecked (some inner)

def negates : Frame → Bool
  | .complement => true
  | _ => false

theorem fill_within (within : narrow.Within world wide) (frame : Frame)
    (kept : frame.negates = false) : (frame.fill narrow).Within world (frame.fill wide) := by
  have replaced := forall₂_replace (fun item => Within.refl item) within
  cases frame with
  | list => exact within.list
  | tuple before after => exact tuple_within (replaced before after)
  | allOf before after => exact allOf_within (replaced before after)
  | anyOf before after => exact anyOf_within (replaced before after)
  | complement => cases kept
  | dictKey element => exact within.dict (.refl element)
  | dictElement key => exact (Within.refl key).dict within
  | parameters before name after allMandatory =>
    apply parameters_within
    exact forall₂_replace (fun _ => ⟨rfl, .refl _⟩) ⟨rfl, within⟩ before after
  | array dimensions => exact within.array dimensions
  | unchecked => exact fun _ _ => rfl

theorem fill_within_of_negates (within : narrow.Within world wide) (frame : Frame)
    (negated : frame.negates = true) :
    (frame.fill wide).Within world (frame.fill narrow) := by
  cases frame with
  | complement => exact within.complement
  | _ => cases negated

theorem exists_fill_of_mem_parts {part whole : Predicate} (member : part ∈ whole.parts) :
    ∃ frame : Frame, whole = frame.fill part := by
  revert member
  fun_cases parts whole with
  | case1 inner => exact fun member => ⟨.unchecked, by cases mem_singleton.mp member; rfl⟩
  | case2 dimensions inner =>
    exact fun member => ⟨.array dimensions, by cases mem_singleton.mp member; rfl⟩
  | case3 inner => exact fun member => ⟨.complement, by cases mem_singleton.mp member; rfl⟩
  | case4 inner => exact fun member => ⟨.list, by cases mem_singleton.mp member; rfl⟩
  | case5 key value =>
    intro member
    rcases mem_pair.mp member with rfl | rfl
    · exact ⟨.dictKey value, rfl⟩
    · exact ⟨.dictElement key, rfl⟩
  | case6 members =>
    intro member
    obtain ⟨before, after, rfl⟩ := append_of_mem member
    exact ⟨.allOf before after, rfl⟩
  | case7 members =>
    intro member
    obtain ⟨before, after, rfl⟩ := append_of_mem member
    exact ⟨.anyOf before after, rfl⟩
  | case8 members =>
    intro member
    obtain ⟨before, after, rfl⟩ := append_of_mem member
    exact ⟨.tuple before after, rfl⟩
  | case9 declared allMandatory =>
    intro member
    obtain ⟨⟨name, _⟩, inside, rfl⟩ := mem_map.mp member
    obtain ⟨before, after, rfl⟩ := append_of_mem inside
    exact ⟨.parameters before name after allMandatory, rfl⟩
  | case10 => exact fun member => absurd member not_mem_nil

end Frame

/-- Constructors around an open place, the outermost one first. -/
abbrev Context := List Frame

namespace Context

def fill (context : Context) (inner : Predicate) : Predicate := context.foldr Frame.fill inner

def negations (context : Context) : Nat := context.countP Frame.negates

/-- Each negation on the way out turns the order round once more. -/
theorem fill_within (within : narrow.Within world wide) (context : Context) :
    (Even context.negations → (context.fill narrow).Within world (context.fill wide)) ∧
      (¬Even context.negations → (context.fill wide).Within world (context.fill narrow)) := by
  induction context with
  | nil => exact ⟨fun _ => within, fun odd => absurd (by decide) odd⟩
  | cons frame context ih =>
    obtain ⟨kept, turned⟩ := ih
    cases negated : frame.negates with
    | false =>
      have same : negations (frame :: context) = negations context :=
        countP_cons_of_neg (by rw [negated]; exact Bool.false_ne_true)
      rw [same]
      exact ⟨fun even => Frame.fill_within (kept even) frame negated,
        fun odd => Frame.fill_within (turned odd) frame negated⟩
    | true =>
      have more : negations (frame :: context) = negations context + 1 :=
        countP_cons_of_pos negated
      rw [more, Nat.even_add_one, not_not]
      exact ⟨fun odd => Frame.fill_within_of_negates (turned odd) frame negated,
        fun even => Frame.fill_within_of_negates (kept even) frame negated⟩

theorem exists_fill_of_nested {part whole : Predicate}
    (nested : Relation.ReflTransGen (fun outer inner => inner ∈ parts outer) whole part) :
    ∃ context : Context, whole = context.fill part := by
  induction nested using Relation.ReflTransGen.head_induction_on with
  | refl => exact ⟨[], rfl⟩
  | head member _ ih =>
    obtain ⟨context, rfl⟩ := ih
    obtain ⟨frame, filled⟩ := Frame.exists_fill_of_mem_parts member
    exact ⟨frame :: context, filled⟩

end Context

/-- Constructors keep the order of types in every place, and negation turns it round. In a nested
type the number of negations above a place decides, and every part of a type has such a place. -/
theorem constructors_respect_width {world : World} {narrow wide : Predicate}
    (within : narrow.Within world wide) :
    (list narrow).Within world (list wide) ∧
    (∀ before after, (tuple (before ++ narrow :: after)).Within world
      (tuple (before ++ wide :: after))) ∧
    (∀ before after, (allOf (before ++ narrow :: after)).Within world
      (allOf (before ++ wide :: after))) ∧
    (∀ before after, (anyOf (before ++ narrow :: after)).Within world
      (anyOf (before ++ wide :: after))) ∧
    (∀ element, (dict narrow element).Within world (dict wide element)) ∧
    (∀ key, (dict key narrow).Within world (dict key wide)) ∧
    (∀ before name after allMandatory,
      (parameters (before ++ (name, narrow) :: after) allMandatory).Within world
        (parameters (before ++ (name, wide) :: after) allMandatory)) ∧
    (∀ dimensions, (array dimensions (some narrow)).Within world
      (array dimensions (some wide))) ∧
    (complement wide).Within world (complement narrow) ∧
    (∀ context : Context,
      (Even context.negations → (context.fill narrow).Within world (context.fill wide)) ∧
      (¬Even context.negations → (context.fill wide).Within world (context.fill narrow))) ∧
    ∀ whole, Relation.ReflTransGen (fun outer inner => inner ∈ parts outer) whole narrow →
      ∃ context : Context, whole = context.fill narrow := by
  refine ⟨within.list, fun before after => ?_, fun before after => ?_, fun before after => ?_,
    fun element => ?_, fun key => ?_, fun before name after allMandatory => ?_, within.array,
    within.complement, Context.fill_within within, fun whole => Context.exists_fill_of_nested⟩
  · exact Frame.fill_within within (.tuple before after) rfl
  · exact Frame.fill_within within (.allOf before after) rfl
  · exact Frame.fill_within within (.anyOf before after) rfl
  · exact Frame.fill_within within (.dictKey element) rfl
  · exact Frame.fill_within within (.dictElement key) rfl
  · exact Frame.fill_within within (.parameters before name after allMandatory) rfl

/-- Arrays of natural numbers are tested in one pass and arrays of a union item by item. -/
theorem constructors_respect_width_arrays :
    (number .natural1).Within ⟨Sample.host, []⟩ (anyOf [.boolean, .number .natural1]) ∧
      (complement (array 1 (some (anyOf [.boolean, .number .natural1])))).Within ⟨Sample.host, []⟩
        (complement (array 1 (some (number .natural1)))) := by
  have within : (number .natural1).Within ⟨Sample.host, []⟩
      (anyOf [.boolean, .number .natural1]) := by
    apply within_of_test
    intro value passed
    exact test_anyOf_eq_ok_iff.mpr ⟨_, List.mem_cons_of_mem _ List.mem_cons_self, passed⟩
  obtain ⟨_, _, _, _, _, _, _, _, _, contexts, _⟩ := constructors_respect_width within
  exact ⟨within, (contexts [.complement, .array 1]).2 (by decide)⟩

end Covenant.Predicate
