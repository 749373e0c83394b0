import Covenant.Failure
import Mathlib.Data.List.Nodup

/-!
# Names in order

Bindings with different names are sorted in one way only, and the first of them with some property,
in sorted order, is the one with the least name.
-/

set_option autoImplicit false

namespace Covenant

open List

namespace Text

theorem le_trans {first second third : Text} (firstSecond : le first second = true)
    (secondThird : le second third = true) : le first third = true :=
  Std.TransCmp.isLE_trans firstSecond secondThird

theorem le_total (left right : Text) : (le left right || le right left) = true := by
  have swapped : compare right left = (compare left right).swap := Std.OrientedCmp.eq_swap
  rw [le, le, swapped]
  cases compare left right <;> rfl

theorem le_antisymm {left right : Text} (leftRight : le left right = true)
    (rightLeft : le right left = true) : left = right :=
  Std.LawfulEqCmp.eq_of_compare (Std.OrientedCmp.isLE_antisymm leftRight rightLeft)

end Text

namespace Bindings

variable {bound : Bindings}

variable {α : Type} {entry : Text × Value} {label : Text}

theorem pairwise_mergeSort (entries : List (Text × α)) :
    (entries.mergeSort (fun left right => Text.le left.1 right.1)).Pairwise
      (fun left right => Text.le left.1 right.1 = true) := by
  refine List.pairwise_mergeSort ?_ ?_ entries
  · intro first second third firstSecond secondThird
    exact Text.le_trans firstSecond secondThird
  · intro left right
    exact Text.le_total left.1 right.1

theorem sorted_pairwise (bound : Bindings) :
    bound.sorted.Pairwise (fun left right => Text.le left.1 right.1 = true) :=
  pairwise_mergeSort bound

theorem sorted_perm (bound : Bindings) : bound.sorted.Perm bound := mergeSort_perm bound _

theorem mem_sorted : entry ∈ bound.sorted ↔ entry ∈ bound :=
  mem_mergeSort

theorem lookup_of_mem {entries : List (Text × α)} {value : α}
    (different : (entries.map Prod.fst).Nodup) (member : (label, value) ∈ entries) :
    entries.lookup label = some value := by
  induction entries with
  | nil => cases member
  | cons entry entries ih =>
    obtain ⟨name, other⟩ := entry
    rw [map_cons, nodup_cons] at different
    rcases mem_cons.mp member with same | later
    · cases same
      simp
    · have distinct : (label == name) = false := by
        rw [beq_eq_false_iff_ne]
        rintro rfl
        exact different.1 (mem_map.mpr ⟨_, later, rfl⟩)
      rw [lookup_cons, distinct]
      exact ih different.2 later

theorem mem_of_lookup {κ : Type} [BEq κ] [LawfulBEq κ] {entries : List (κ × α)} {key : κ} {value : α}
    (found : entries.lookup key = some value) : (key, value) ∈ entries := by
  rw [lookup_eq_some_iff] at found
  obtain ⟨before, after, split, _⟩ := found
  rw [split]
  simp

theorem lookup_eq_none_iff_not_mem {entries : List (Text × α)} :
    entries.lookup label = none ↔ label ∉ entries.map Prod.fst := by
  simp only [lookup_eq_none_iff, bne_iff_ne, mem_map, not_exists, not_and]
  exact forall₂_congr fun entry _ => ne_comm

theorem lookup_eq_some_iff_mem {entries : List (Text × α)}
    (different : (entries.map Prod.fst).Nodup) {value : α} :
    entries.lookup label = some value ↔ (label, value) ∈ entries :=
  ⟨mem_of_lookup, lookup_of_mem different⟩

/-- Among bindings with different names, the first with a property in sorted order is the one
with the least name. -/
theorem first_in_sorted_iff (different : (bound.map Prod.fst).Nodup)
    (property : Text × Value → Prop) :
    (∃ done rest, bound.sorted = done ++ entry :: rest ∧ (∀ other ∈ done, ¬ property other) ∧
      property entry) ↔
    entry ∈ bound ∧ property entry ∧
      ∀ other ∈ bound, property other → Text.le entry.1 other.1 = true := by
  have sortedPairs := sorted_pairwise bound
  have sortedDifferent : (bound.sorted.map Prod.fst).Nodup :=
    ((sorted_perm bound).map Prod.fst).nodup_iff.mpr different
  constructor
  · rintro ⟨done, rest, split, passed, holds⟩
    have member : entry ∈ bound := by
      rw [← mem_sorted, split]
      simp
    refine ⟨member, holds, fun other otherMember otherHolds => ?_⟩
    rw [← mem_sorted, split] at otherMember
    rw [split, pairwise_append, pairwise_cons] at sortedPairs
    rcases mem_append.mp otherMember with before | later
    · exact absurd otherHolds (passed other before)
    · rcases mem_cons.mp later with same | after
      · rw [same]
        simpa using Text.le_total entry.1 entry.1
      · exact sortedPairs.2.1.1 other after
  · rintro ⟨member, holds, least⟩
    obtain ⟨done, rest, split⟩ := append_of_mem (mem_sorted.mpr member)
    refine ⟨done, rest, split, fun other before otherHolds => ?_, holds⟩
    have otherMember : other ∈ bound := by
      rw [← mem_sorted, split]
      exact mem_append_left _ before
    rw [split, pairwise_append] at sortedPairs
    have sameName : other.1 = entry.1 :=
      Text.le_antisymm (sortedPairs.2.2 other before entry mem_cons_self)
        (least other otherMember otherHolds)
    rw [split, map_append, nodup_append] at sortedDifferent
    exact sortedDifferent.2.2 other.1 (mem_map.mpr ⟨other, before, rfl⟩) entry.1
      (by simp) sameName

theorem find?_sorted_eq_some_iff (different : (bound.map Prod.fst).Nodup)
    {test : Text × Value → Bool} :
    bound.sorted.find? test = some entry ↔
      entry ∈ bound ∧ test entry = true ∧
        ∀ other ∈ bound, test other = true → Text.le entry.1 other.1 = true := by
  rw [List.find?_eq_some_iff_append, ← first_in_sorted_iff different (fun other => test other)]
  constructor
  · rintro ⟨holds, done, rest, split, passed⟩
    exact ⟨done, rest, split, fun other before => by simpa using passed other before, holds⟩
  · rintro ⟨done, rest, split, passed, holds⟩
    exact ⟨holds, done, rest, split, fun other before => by simpa using passed other before⟩

end Bindings

end Covenant
