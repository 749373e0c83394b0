import Covenant.Proofs.Comparison
import Covenant.Proofs.Sorting

/-!
# Iteration over dictionaries

The keys of a dictionary are visited in a sorted order, so that the order of its entries does not
show. Keys without an order among them are compared as they print, and the two ways of comparing
need not agree: then the order of the entries shows.
-/

set_option autoImplicit false

namespace Covenant.Condition

open List

/-- Different keys come one before the other, and this is transitive. -/
structure Settled (keys : List Value) : Prop where
  decided : ∀ first second, [first, second].Subperm keys → first ≠ second →
    precedesLoosely second first = !precedesLoosely first second
  trans : ∀ first second third, [first, second, third].Subperm keys →
    precedesLoosely first second = true → precedesLoosely second third = true →
      precedesLoosely first third = true

section

variable {keys shuffled : List Value}

theorem Settled.sorted (settled : Settled keys) : (sortLoosely keys).Pairwise fun left right =>
    left = right ∨ precedesLoosely left right = true := by
  apply sortBy_pairwise
  · intro first second inside
    by_cases same : first = second
    · simp [same]
    · have other := settled.decided first second inside same
      split <;> simp_all
  · intro first second third inside below above
    obtain rfl | below := below
    · exact above
    obtain rfl | above := above
    · exact .inr below
    · exact .inr (settled.trans first second third inside below above)

theorem Settled.perm (settled : Settled keys) (perm : shuffled.Perm keys) : Settled shuffled where
  decided first second inside := settled.decided first second (inside.trans perm.subperm)
  trans first second third inside := settled.trans first second third (inside.trans perm.subperm)

theorem Settled.sortLoosely_eq (settled : Settled keys) (perm : shuffled.Perm keys) :
    sortLoosely shuffled = sortLoosely keys := by
  have kept {keys : List Value} : (sortLoosely keys).Perm keys := sortBy_perm _ keys
  apply List.Perm.eq_of_pairwise _ (settled.perm perm).sorted settled.sorted
    (kept.trans (perm.trans kept.symm))
  intro first second member other below above
  by_contra different
  have inside : [first, second].Subperm keys :=
    List.Nodup.subperm (by simp [different])
      (by simp [perm.mem_iff.mp (kept.mem_iff.mp member), kept.mem_iff.mp other])
  have decided := settled.decided first second inside different
  simp_all [Ne.symm different]

/-- Some of the keys, put first in two orders, must be sorted into one. -/
theorem settled_of_sortLoosely_eq (different : keys.Nodup) (same : ∀ shuffled : List Value,
    shuffled.Perm keys → sortLoosely shuffled = sortLoosely keys) : Settled keys := by
  have first {chosen : List Value} (inside : chosen.Subperm keys) :
      (sortLoosely chosen).Sublist (sortLoosely keys) := by
    obtain ⟨most, perm, sublist⟩ := inside
    obtain ⟨rest, parts⟩ := sublist.exists_perm_append
    rw [← same _ ((perm.symm.append_right rest).trans parts.symm)]
    exact sortBy_sublist rest
  have agree {chosen others : List Value} (inside : chosen.Subperm keys)
      (perm : others.Perm chosen) : sortLoosely chosen = sortLoosely others := by
    have nodup : (sortLoosely keys).Nodup := (sortBy_perm _ keys).nodup_iff.mpr different
    apply (nodup.perm_iff_eq_of_sublist (first inside) (first (perm.subperm.trans inside))).mp
    exact (sortBy_perm _ chosen).trans (perm.symm.trans (sortBy_perm _ others).symm)
  have decided (left right : Value) (inside : [left, right].Subperm keys) (apart : left ≠ right) :
      precedesLoosely right left = !precedesLoosely left right := by
    have swapped := agree inside (List.Perm.swap left right [])
    cases before : precedesLoosely left right <;> cases after : precedesLoosely right left <;>
      simp_all [sortLoosely, sortBy, insertSorted]
  refine ⟨decided, ?_⟩
  intro left middle right inside below above
  have nodup : [left, middle, right].Nodup := by
    obtain ⟨arranged, perm, sublist⟩ := inside
    exact perm.nodup_iff.mp (different.sublist sublist)
  have turned := agree inside (@perm_append_comm _ [middle, right] [left])
  have one := decided left middle
    ((sublist_append_left [left, middle] [right]).subperm.trans inside)
  have two := decided middle right
    ((sublist_cons_self left [middle, right]).subperm.trans inside)
  by_contra passed
  simp_all [sortLoosely, sortBy, insertSorted]

theorem settled_of_rank {α : Type} [Ord α] [Std.TransOrd α] (rank : Value → α)
    (ranked : ∀ left ∈ keys, ∀ right ∈ keys,
      order left right = .known (compare (rank left) (rank right)))
    (apart : ∀ left ∈ keys, ∀ right ∈ keys,
      compare (rank left) (rank right) = .eq → left = right) : Settled keys := by
  have before {left right : Value} (member : left ∈ keys) (other : right ∈ keys) :
      precedesLoosely left right = (compare (rank left) (rank right) == .lt) := by
    rw [precedesLoosely, ranked left member right other]
  constructor
  · intro first second inside different
    have member : first ∈ keys := inside.subset (by simp)
    have other : second ∈ keys := inside.subset (by simp)
    rw [before other member, before member other, Std.OrientedOrd.eq_swap]
    cases compared : compare (rank first) (rank second) with
    | eq => exact absurd (apart first member second other compared) different
    | _ => rfl
  · intro first second third inside
    have member : first ∈ keys := inside.subset (by simp)
    have between : second ∈ keys := inside.subset (by simp)
    have other : third ∈ keys := inside.subset (by simp)
    simp only [before member between, before between other, before member other, beq_iff_eq]
    exact Std.TransCmp.lt_trans

theorem Ranked.settled {holds : Value → Prop} (ranked : Ranked holds)
    (held : ∀ key ∈ keys, holds key)
    (apart : ∀ left ∈ keys, ∀ right ∈ keys, Same left right → left = right) : Settled keys := by
  obtain ⟨α, _, _, rank, ranked⟩ := ranked
  refine settled_of_rank rank (fun left member right other => ?_) fun left member right other => ?_
  · exact (ranked left right (held left member) (held right other)).1
  · rw [← (ranked left right (held left member) (held right other)).2]
    exact apart left member right other

theorem settled_of_integers {type : HostType}
    (integers : ∀ key ∈ keys, ∃ number, key = .int type number ∧ fits number = true) :
    Settled keys := by
  have same {left right : Value} (member : left ∈ keys) (other : right ∈ keys) :
      order left right = .known (compare ((toInt? left).getD 0) ((toInt? right).getD 0)) ∧
        (compare ((toInt? left).getD 0) ((toInt? right).getD 0) = .eq → left = right) := by
    obtain ⟨number, rfl, inside⟩ := integers left member
    obtain ⟨second, rfl, insideOther⟩ := integers right other
    simp [order_int inside insideOther, toInt?, toNum?, inside, insideOther]
  exact settled_of_rank _ (fun _ member _ other => (same member other).1)
    fun _ member _ other => (same member other).2

end

/-!
## What looks at the keys
-/

section

variable {value other : Value} (same : iterate value = iterate other)
include same

theorem callBuiltin_congr {builtin : Builtin}
    (iterates : builtin ∈ [Builtin.sum, .min, .max, .sorted, .all, .any]) :
    callBuiltin builtin [value] = callBuiltin builtin [other] := by
  simp only [mem_cons, not_mem_nil, or_false] at iterates
  obtain rfl | rfl | rfl | rfl | rfl | rfl := iterates <;>
    simp only [callBuiltin, unaryBuiltin, sumFrom, extreme, sorted, same]

theorem eval_comprehension_congr {world : World} {scope : Scope} {memory after : Memory}
    {first second : Expr}
    (finds : (first.eval world scope >>= Evaluation.look).run memory = (.ok value, after))
    (findsOther : (second.eval world scope >>= Evaluation.look).run memory = (.ok other, after))
    (element : Expr) (targets : List Text) (conditions : List Expr) :
    ((Expr.comprehension element targets first conditions).eval world scope).run memory =
      ((Expr.comprehension element targets second conditions).eval world scope).run memory := by
  rw [Expr.eval, Expr.eval, ← bind_assoc (first.eval world scope) Evaluation.look,
    ← bind_assoc (second.eval world scope) Evaluation.look, Stateful.run_bind_of_ok finds,
    Stateful.run_bind_of_ok findsOther, same]

end

def keysOf (entries : List (Value × Value)) : List Value := entries.map (·.1)

theorem exists_arranged_entries {entries : List (Value × Value)} {keys : List Value}
    (perm : keys.Perm (keysOf entries)) :
    ∃ shuffled, keysOf shuffled = keys ∧ shuffled.Perm entries := by
  have paired : List.Forall₂ (fun key (entry : Value × Value) => key = entry.1)
      (keysOf entries) entries := forall₂_map_right_iff.mp (by simp [keysOf])
  obtain ⟨shuffled, own, arranged⟩ := perm_comp_forall₂ perm paired
  rw [← forall₂_map_right_iff, forall₂_eq_eq_eq] at own
  exact ⟨shuffled, own.symm, arranged⟩

/-- Iterating a dictionary gives the same keys for every order of its entries exactly if different
keys are settled; then whatever looks at the keys alone has one result. Integers of one type are
settled, and so are keys of one shape, such as texts, of which no two are equal. -/
theorem iteration_independent_iff_settled (type : HostType) (object : ObjectId)
    (entries : List (Value × Value)) :
    ((keysOf entries).Nodup →
      ((∀ shuffled, shuffled.Perm entries →
          iterate (.dict type object shuffled) = iterate (.dict type object entries)) ↔
        Settled (keysOf entries))) ∧
      (Settled (keysOf entries) → ∀ shuffled, shuffled.Perm entries →
        iterate (.dict type object shuffled) = iterate (.dict type object entries) ∧
        (∀ builtin ∈ [Builtin.sum, .min, .max, .sorted, .all, .any],
          callBuiltin builtin [.dict type object shuffled] =
            callBuiltin builtin [.dict type object entries]) ∧
        ∀ world scope memory after (first second : Expr),
          (first.eval world scope >>= Evaluation.look).run memory =
              (.ok (.dict type object shuffled), after) →
            (second.eval world scope >>= Evaluation.look).run memory =
              (.ok (.dict type object entries), after) →
            ∀ element targets conditions,
              ((Expr.comprehension element targets first conditions).eval world scope).run memory =
                ((Expr.comprehension element targets second conditions).eval world scope).run
                  memory) ∧
      (∀ keyType, (∀ key ∈ keysOf entries,
        ∃ number, key = .int keyType number ∧ fits number = true) → Settled (keysOf entries)) ∧
      ∀ shape : Shape, (∀ key ∈ keysOf entries, shape.Fits key) →
        (∀ left ∈ keysOf entries, ∀ right ∈ keysOf entries,
          equal left right = true → left = right) → Settled (keysOf entries) := by
  have visits (entries : List (Value × Value)) :
      iterate (.dict type object entries) = .ok (sortLoosely (keysOf entries)) := rfl
  have alike (settled : Settled (keysOf entries)) (shuffled : List (Value × Value))
      (perm : shuffled.Perm entries) :
      iterate (.dict type object shuffled) = iterate (.dict type object entries) := by
    have perm : (keysOf shuffled).Perm (keysOf entries) := perm.map _
    rw [visits, visits, settled.sortLoosely_eq perm]
  refine ⟨fun different => ⟨fun same => ?_, alike⟩, ?_, fun keyType => settled_of_integers,
    fun shape held apart => shape.ranked.settled held apart⟩
  · apply settled_of_sortLoosely_eq different
    intro keys perm
    obtain ⟨shuffled, rfl, arranged⟩ := exists_arranged_entries perm
    exact Except.ok.inj (same shuffled arranged)
  · intro settled shuffled perm
    have same := alike settled shuffled perm
    refine ⟨same, fun builtin iterates => callBuiltin_congr same iterates, ?_⟩
    intro world scope memory after first second finds findsOther element targets conditions
    exact eval_comprehension_congr same finds findsOther element targets conditions

/-- 9 comes before 10 as a number, "10" before "5" and "5" before "9" as they print. -/
def laps : List (Value × Value) :=
  [(.ofWord 9, .nil), (.ofWord 10, .nil), (.ofText "5", .nil)]

theorem iteration_shows_order :
    (laps.rotate 1).Perm laps ∧ (keysOf laps).Pairwise Value.Apart ∧
      iterate (.dict (.map .any .any) 1 laps) = .ok [.ofWord 9, .ofWord 10, .ofText "5"] ∧
      iterate (.dict (.map .any .any) 1 (laps.rotate 1)) =
        .ok [.ofWord 10, .ofText "5", .ofWord 9] :=
  ⟨List.rotate_perm laps 1, by simp [keysOf, laps, Value.Apart]; decide, rfl, rfl⟩

end Covenant.Condition
