import Covenant.Proofs.Ordering
import Covenant.Proofs.Taxonomy

/-!
# Sorted lists

Sorting inserts one item after the other, from the right. Its result is in order if the items are
ordered two by two and transitively, and the first items stay as they are among themselves.
-/

set_option autoImplicit false

namespace Covenant.Condition

open List

/-!
## Sorting by insertion
-/

section

variable {precedes : Value → Value → Bool} {below : Value → Value → Prop} {value : Value}
  {before items : List Value}

/-- The greatest value stands first among those before, so a value above it is above all of them. -/
theorem insertSorted_pairwise (sorted : before.Pairwise fun later earlier => below earlier later)
    (chosen : ∀ other ∈ before,
      if precedes value other then below value other else below other value)
    (trans : ∀ first second, [first, second].Subperm before → below first second →
      below second value → below first value) :
    (insertSorted precedes value before).Pairwise fun later earlier => below earlier later := by
  induction before with
  | nil => exact pairwise_singleton _ _
  | cons last before ih =>
    obtain ⟨greatest, sorted⟩ := pairwise_cons.mp sorted
    obtain ⟨own, chosen⟩ := forall_mem_cons.mp chosen
    rw [insertSorted]
    split at own
    · next precedes =>
      rw [if_pos precedes]
      refine .cons ?_ (ih sorted chosen fun first second inside =>
        trans first second (inside.trans (sublist_cons_self last before).subperm))
      intro other member
      obtain rfl | member := mem_cons.mp ((insertSorted_perm _ _ _).mem_iff.mp member)
      · exact own
      · exact greatest other member
    · next passes =>
      rw [if_neg passes]
      refine .cons (forall_mem_cons.mpr ⟨own, ?_⟩) (.cons greatest sorted)
      intro other member
      have inside := ((singleton_sublist.mpr member).cons_cons last).subperm
      exact trans other last ((List.Perm.swap last other []).subperm.trans inside)
        (greatest other member) own

theorem sublist_insertSorted : before.Sublist (insertSorted precedes value before) := by
  induction before with
  | nil => exact nil_sublist _
  | cons last before ih =>
    rw [insertSorted]
    split
    · exact ih.cons_cons last
    · exact sublist_cons_self _ _

theorem sortBy_pairwise
    (chosen : ∀ first second, [first, second].Subperm items →
      if precedes first second then below first second else below second first)
    (trans : ∀ first second third, [first, second, third].Subperm items → below first second →
      below second third → below first third) :
    (sortBy precedes items).Pairwise below := by
  have inserted (values before : List Value) (parts : (before ++ values).Subperm items)
      (sorted : before.Pairwise fun later earlier => below earlier later) :
      (values.foldl (fun before value => insertSorted precedes value before) before).Pairwise
        fun later earlier => below earlier later := by
    induction values generalizing before with
    | nil => exact sorted
    | cons value values ih =>
      have all : (value :: before ++ values).Subperm items :=
        perm_middle.symm.subperm.trans parts
      apply ih
      · exact ((insertSorted_perm precedes value before).append_right values).subperm.trans all
      apply insertSorted_pairwise sorted
      · intro other member
        have inside := singleton_sublist.mpr (mem_append_left values member)
        exact chosen value other ((inside.cons_cons value).subperm.trans all)
      · intro first second inside
        apply trans
        have pair := inside.trans (sublist_append_left before values).subperm
        exact (@perm_append_comm _ [first, second] [value]).subperm.trans
          (((subperm_cons value).mpr pair).trans all)
  exact pairwise_reverse.mpr (inserted items [] (List.Subperm.refl _) .nil)

/-- Values that were sorted keep their order when further ones are inserted. -/
theorem sortBy_sublist (later : List Value) :
    (sortBy precedes items).Sublist (sortBy precedes (items ++ later)) := by
  unfold sortBy
  rw [foldl_append, reverse_sublist]
  generalize items.foldl _ [] = before
  induction later generalizing before with
  | nil => exact .refl _
  | cons value later ih => exact sublist_insertSorted.trans (ih _)

end

/-!
## Sorted lists
-/

/-- The comparison `left <= right` holds. -/
def AtMost (world : World) (left right : Value) : Prop :=
  compareValues world .lessEqual left right = .ok true

/-- One of any two of the items is at most the other, and that is transitive. -/
structure Orderly (world : World) (items : List Value) : Prop where
  total : ∀ first second, [first, second].Subperm items →
    AtMost world first second ∨ AtMost world second first
  trans : ∀ first second third, [first, second, third].Subperm items →
    AtMost world first second → AtMost world second third → AtMost world first third

section

variable {world : World} {left right value : Value} {items : List Value} {heap : Heap}

theorem atMost_iff : AtMost world left right ↔
    ∃ ordering, order left right = .known ordering ∧ ordering ≠ .gt := by
  cases found : order left right <;>
    simp [AtMost, compareValues, found, orderFailure, typeFail, fail]

theorem comparable_iff : (∃ truth, compareValues world .lessEqual left right = .ok truth) ↔
    (order left right).isMismatched = false := by
  cases found : order left right <;>
    simp [compareValues, found, orderFailure, typeFail, fail, Order.isMismatched]

theorem checkOrdered_eq_ok_iff : checkOrdered items = .ok () ↔
    items.IsChain fun left right => (order left right).isMismatched = false := by
  fun_induction checkOrdered items with
  | case1 left right rest first second mismatched =>
    simp [orderFailure, typeFail, fail, mismatched, Order.isMismatched]
  | case2 left right rest other ih =>
    have matched : (order left right).isMismatched = false := by
      cases found : order left right with
      | mismatched first second => exact absurd found (other first second)
      | _ => rfl
    simp [ih, matched]
  | case3 items short =>
    obtain _ | ⟨only, _ | ⟨second, rest⟩⟩ := items
    · simp
    · simp
    · exact absurd rfl (short only second rest)

theorem sorted_eq_ok_iff {out : Value} (iterated : iterate value = .ok items) :
    callBuiltin .sorted [value] = .ok out ↔
      (items.IsChain fun left right => (order left right).isMismatched = false) ∧
        out = .ofList (sortLoosely items) := by
  have reads : callBuiltin .sorted [value] =
      (iterate value >>= fun items => checkOrdered items >>= fun _ =>
        .ok (.ofList (sortLoosely items))) := rfl
  rw [reads, iterated, ← checkOrdered_eq_ok_iff]
  cases checked : checkOrdered items <;> simp [bind, Except.bind, checked, eq_comm]

theorem Orderly.perm {arranged : List Value} (orderly : Orderly world items)
    (perm : arranged.Perm items) : Orderly world arranged where
  total first second inside := orderly.total first second (inside.trans perm.subperm)
  trans first second third inside := orderly.trans first second third (inside.trans perm.subperm)

theorem orderly_of_rank {α : Type} [Ord α] [Std.TransOrd α] (rank : Value → α)
    (ranked : ∀ left ∈ items, ∀ right ∈ items,
      order left right = .known (compare (rank left) (rank right))) : Orderly world items := by
  have most {left right : Value} (member : left ∈ items) (other : right ∈ items) :
      AtMost world left right ↔ compare (rank left) (rank right) ≠ .gt := by
    simp [atMost_iff, ranked left member right other]
  constructor
  · intro first second inside
    have member : first ∈ items := inside.subset (by simp)
    have other : second ∈ items := inside.subset (by simp)
    rw [most member other, most other member, Std.OrientedOrd.eq_swap]
    cases compare (rank second) (rank first) <;> simp
  · intro first second third inside below above
    have member : first ∈ items := inside.subset (by simp)
    have between : second ∈ items := inside.subset (by simp)
    have other : third ∈ items := inside.subset (by simp)
    rw [most member between] at below
    rw [most between other] at above
    rw [most member other]
    exact Std.TransCmp.le_trans below above

theorem Ranked.orderly {holds : Value → Prop} (ranked : Ranked holds)
    (held : ∀ item ∈ items, holds item) : Orderly world items := by
  obtain ⟨α, _, _, rank, ranked⟩ := ranked
  apply orderly_of_rank rank
  intro left member right other
  exact (ranked left right (held left member) (held right other)).1

theorem orderly_of_integers
    (integers : ∀ item ∈ items, ∃ number, toNum? item = some (.int number)) :
    Orderly world items := by
  apply orderly_of_rank fun value => (toInt? value).getD 0
  intro left member right other
  obtain ⟨number, counted⟩ := integers left member
  obtain ⟨second, countedOther⟩ := integers right other
  simp [order_of_scalar (.inl (kind_of_number counted).1), orderScalars, counted, countedOther,
    orderNums, toInt?]

variable (live : ∀ item ∈ items, item.Lives heap)
include live

theorem order_swap_of_subperm (inside : [left, right].Subperm items) :
    order right left = (order left right).swap :=
  order_swap left right (live left (inside.subset (by simp))) (live right (inside.subset (by simp)))

theorem Orderly.sorted (orderly : Orderly world items) :
    (sortLoosely items).Pairwise (AtMost world) := by
  apply sortBy_pairwise _ orderly.trans
  intro first second inside
  have swaps := order_swap_of_subperm live inside
  have total := orderly.total first second inside
  cases found : order first second with
  | known ordering =>
    cases ordering <;> simp_all [precedesLoosely, atMost_iff, Order.swap]
  | _ => simp_all [atMost_iff, Order.swap]

theorem Orderly.matched (orderly : Orderly world items) :
    items.IsChain fun left right => (order left right).isMismatched = false := by
  apply List.Pairwise.isChain
  rw [pairwise_iff_forall_sublist]
  intro first second inside
  have swaps := order_swap_of_subperm live inside.subperm
  obtain most | most := orderly.total first second inside.subperm
  · obtain ⟨ordering, known, _⟩ := atMost_iff.mp most
    rw [known]
    rfl
  · obtain ⟨ordering, known, _⟩ := atMost_iff.mp most
    cases found : order first second <;> simp_all [Order.swap, Order.isMismatched]

/-- The first few items that are sorted stay as they are among themselves. -/
theorem orderly_of_sorted (sorted : ∀ arranged : List Value, arranged.Perm items →
    (sortLoosely arranged).Pairwise (AtMost world)) : Orderly world items := by
  have few {chosen : List Value} (inside : chosen.Subperm items) :
      (sortLoosely chosen).Pairwise (AtMost world) := by
    obtain ⟨most, perm, sublist⟩ := inside
    obtain ⟨rest, parts⟩ := sublist.exists_perm_append
    exact (sorted _ ((perm.symm.append_right rest).trans parts.symm)).sublist (sortBy_sublist rest)
  constructor
  · intro first second inside
    have pair := few inside
    cases before : precedesLoosely second first <;>
      simp_all [sortLoosely, sortBy, insertSorted]
  · intro first second third inside below above
    have kept {left right : Value} (pair : [left, right].Subperm items)
        (most : AtMost world left right) : precedesLoosely right left = false := by
      obtain ⟨ordering, known, below⟩ := atMost_iff.mp most
      simpa [precedesLoosely, order_swap_of_subperm live pair, known, Order.swap] using below
    have triple := few inside
    have ahead := kept
      ((sublist_append_left [first, second] [third]).subperm.trans inside) below
    have behind := kept
      ((sublist_cons_self first [second, third]).subperm.trans inside) above
    simp_all [sortLoosely, sortBy, insertSorted]

end

/-- Sorting looks at neighbours only, so it may succeed where two of the items cannot be compared.
It brings every arrangement of the items into order exactly if one of any two is at most the other
and this is transitive. So it does with texts only, with integers only, with numbers that are not
NaN and no integers beyond 2^53, and with sequences of items that are alike in one of these ways. -/
theorem sorted_in_order_iff_orderly (world : World) {heap : Heap} {value : Value}
    {items : List Value} (iterated : iterate value = .ok items)
    (live : ∀ item ∈ items, item.Lives heap) :
    ((∃ out, callBuiltin .sorted [value] = .ok out) ↔
        items.IsChain fun left right =>
          ∃ truth, compareValues world .lessEqual left right = .ok truth) ∧
      (∀ out, callBuiltin .sorted [value] = .ok out →
        ∃ outs, out = .ofList outs ∧ outs.Perm items) ∧
      ((∀ other arranged, iterate other = .ok arranged → arranged.Perm items →
          ∃ outs, callBuiltin .sorted [other] = .ok (.ofList outs) ∧ outs.Perm items ∧
            outs.Pairwise (AtMost world)) ↔
        Orderly world items) ∧
      (∀ shape : Shape, (∀ item ∈ items, shape.Fits item) → Orderly world items) ∧
      ((∀ item ∈ items, ∃ number, toNum? item = some (.int number)) → Orderly world items) := by
  refine ⟨?_, ?_, ⟨?_, ?_⟩, fun shape held => shape.ranked.orderly held, orderly_of_integers⟩
  · simp only [comparable_iff, sorted_eq_ok_iff iterated, exists_and_left, exists_eq, and_true]
  · intro out sorted
    obtain ⟨_, rfl⟩ := (sorted_eq_ok_iff iterated).mp sorted
    exact ⟨_, rfl, sortBy_perm _ items⟩
  · intro sorts
    apply orderly_of_sorted live
    intro arranged perm
    obtain ⟨outs, succeeds, _, pairwise⟩ := sorts (.ofList arranged) arranged rfl perm
    obtain ⟨_, same⟩ := (sorted_eq_ok_iff rfl).mp succeeds
    cases same
    exact pairwise
  · intro orderly other arranged iteratedOther perm
    have liveArranged : ∀ item ∈ arranged, item.Lives heap := fun item member =>
      live item (perm.subset member)
    have again := orderly.perm perm
    have succeeds := (sorted_eq_ok_iff iteratedOther).mpr ⟨again.matched liveArranged, rfl⟩
    exact ⟨sortLoosely arranged, succeeds, (sortBy_perm _ arranged).trans perm,
      again.sorted liveArranged⟩

/-- Readings of different lengths, with integers among the fractions. -/
def readings : List Value :=
  [.ofList [.ofInt 2, .ofFloat 0.5], .ofList [.ofFloat 2.0], .ofList []]

def emptyHeap : Heap := ⟨fun _ _ => .nil, fun _ => .nil⟩

theorem readings_in_order :
    iterate (.ofList readings) = .ok readings ∧
      (∀ item ∈ readings, item.Lives emptyHeap) ∧ Orderly ⟨Sample.host, []⟩ readings ∧
      ∃ outs, callBuiltin .sorted [.ofList readings] = .ok (.ofList outs) ∧ outs.Perm readings ∧
        outs.Pairwise (AtMost ⟨Sample.host, []⟩) := by
  have live : ∀ item ∈ readings, item.Lives emptyHeap := by
    simp [readings, Value.ofList, Value.Lives, Value.AllLive, Value.ofInt, Value.ofFloat]
  have whole : Shape.number.Fits (.ofInt 2) :=
    ⟨.int 2, rfl, (by decide : Int.natAbs 2 ≤ 2 ^ 53)⟩
  have half : Shape.number.Fits (.ofFloat 0.5) := ⟨.float 0.5, rfl, by intro; contradiction⟩
  have two : Shape.number.Fits (.ofFloat 2.0) := ⟨.float 2.0, rfl, by intro; contradiction⟩
  have fits : ∀ item ∈ readings, (Shape.sequence .number).Fits item := by
    intro item member
    simp only [readings, List.mem_cons, List.not_mem_nil, or_false] at member
    obtain rfl | rfl | rfl := member
    · exact ⟨_, rfl, by simp [whole, half]⟩
    · exact ⟨_, rfl, by simp [two]⟩
    · exact ⟨_, rfl, by simp⟩
  have read : iterate (.ofList readings) = .ok readings := rfl
  obtain ⟨_, _, sorts, shapes, _⟩ := sorted_in_order_iff_orderly ⟨Sample.host, []⟩ read live
  have orderly := shapes (.sequence .number) fits
  exact ⟨read, live, orderly, sorts.mpr orderly (.ofList readings) readings read (.refl _)⟩

/-- The empty list can be compared with each of the others, but these not with each other. -/
theorem sorted_without_order :
    callBuiltin .sorted
        [.ofList [.ofList [.ofInt 1], .ofList [], .ofList [.ofText "a"]]] =
      .ok (.ofList [.ofList [], .ofList [.ofInt 1], .ofList [.ofText "a"]]) ∧
    compareValues ⟨Sample.host, []⟩ .lessEqual (.ofList [.ofInt 1]) (.ofList [.ofText "a"]) =
      typeFail ["cannot order int64 and string"] :=
  ⟨rfl, rfl⟩

end Covenant.Condition
