import Covenant.Proofs.Session
import Covenant.Sample

/-!
# Declarations take effect as a whole

Wherever its faults stand, a declaration with a fault changes nothing, and one without takes effect
in all of its parts.
-/

set_option autoImplicit false

namespace Covenant

namespace Workspace

open Stateful

/-- A declaration takes effect in all of its parts, or it fails and nothing at all has changed.
This holds for further clauses of a function under contract, whatever it declares already and
remembers, and for a function that is put under contract, with its registry. -/
theorem declarations_all_or_nothing (workspace : Workspace) (id : Text) (clauses : List Clause) :
    (∀ source number contract, workspace.functions.lookup source = some number →
      workspace.contractAt? number = some contract →
      (∃ changed, contract.Declares clauses changed ∧
        (rewrap id source clauses).run workspace =
          (.ok changed, workspace.withChanged id number changed)) ∨
      (∃ failure, (¬∃ changed, contract.Declares clauses changed) ∧
        (rewrap id source clauses).run workspace = (.error failure, workspace))) ∧
    ∀ function,
      (∃ made, Contract.Wraps workspace.host function clauses made ∧
        (wrap id function clauses).run workspace = (.ok made, workspace.withAdded id made)) ∨
      (∃ failure, (¬∃ made, Contract.Wraps workspace.host function clauses made) ∧
        (wrap id function clauses).run workspace = (.error failure, workspace)) := by
  constructor
  · intro source number contract named known
    rw [rewrap_run named known]
    simp only [← Contract.extend_eq_ok_iff]
    cases contract.extend clauses with
    | ok changed => exact .inl ⟨changed, rfl, rfl⟩
    | error failure =>
      refine .inr ⟨failure, ?_, rfl⟩
      intro ⟨changed, extended⟩
      cases extended
  · intro function
    rw [wrap_run]
    simp only [← Contract.wrap_eq_ok_iff]
    cases Contract.wrap workspace.host function clauses with
    | ok made => exact .inl ⟨made, rfl, rfl⟩
    | error failure =>
      refine .inr ⟨failure, ?_, rfl⟩
      intro ⟨made, wrapped⟩
      cases wrapped

def doublingOnly : Workspace :=
  { initial Sample.host with
    contracts := [.undeclared Sample.host (.function Sample.intFunction (.host "Double"))
      ⟨[.wordInt], false, [.wordInt], false⟩ [⟨"n", .positional, none⟩] none]
    functions := [("double", 0)] }

def doublingClauses (label : Text) : List Clause :=
  [.returns (.hostType .wordInt), .requires "n > 0", .config "max_cache" (.ofWord 5),
    .immutable [label]]

theorem declarations_all_or_nothing_doubling :
    doublingOnly.functions.lookup (Text.ofString "double") = some 0 ∧
      (∃ failure, (rewrap "twice" "double" (doublingClauses "m")).run doublingOnly =
        (.error failure, doublingOnly)) ∧
      ∃ changed, (rewrap "twice" "double" (doublingClauses "n")).run doublingOnly =
        (.ok changed, doublingOnly.withChanged "twice" 0 changed) ∧
        changed.mutableNames = ["n"] := by
  refine ⟨rfl, ?_, ?_⟩
  · obtain ⟨changed, ⟨declaration, collected, _, _, takes⟩, _⟩ | ⟨failure, _, ran⟩ :=
      (declarations_all_or_nothing doublingOnly "twice" (doublingClauses "m")).1 "double" 0 _ rfl
        rfl
    · have given : declaration.mutableNames = ["m"] := collected.mutableNames
      have known := takes.known "m" (by rw [given]; decide)
      exact absurd known (by decide)
    · exact ⟨failure, ran⟩
  · obtain ⟨changed, ⟨declaration, collected, _, _, takes⟩, ran⟩ | ⟨failure, _, ran⟩ :=
      (declarations_all_or_nothing doublingOnly "twice" (doublingClauses "n")).1 "double" 0 _ rfl
        rfl
    · refine ⟨changed, ran, ?_⟩
      have given : declaration.mutableNames = ["n"] := collected.mutableNames
      rw [takes.mutableNames, given]
      decide
    · have accepted :
          ((rewrap "twice" "double" (doublingClauses "n")).run doublingOnly).1.isOk = true := by
        decide +kernel
      rw [ran] at accepted
      cases accepted

end Workspace

end Covenant
