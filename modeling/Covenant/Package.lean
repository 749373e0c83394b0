import Covenant.Result

/-!
# Packages

Packages import each other. A package that does not reach the package of contracts has nothing to
verify. Results belong to a package by the first part of their function's name.
-/

set_option autoImplicit false

namespace Covenant

abbrev ImportGraph := List (Text × List Text)

namespace ImportGraph

def contractPackage : Text := "github.com/unbound-force/paranoid/pkg/contract"

def importsOf (graph : ImportGraph) (package : Text) : List Text :=
  (graph.lookup package).getD []

def unvisited (graph : ImportGraph) (visited : List Text) : ImportGraph :=
  graph.filter (fun entry => !visited.contains entry.1)

theorem length_unvisited_cons_le (graph : ImportGraph) (visited : List Text) (package : Text) :
    (graph.unvisited (package :: visited)).length ≤ (graph.unvisited visited).length := by
  induction graph with
  | nil => simp [unvisited]
  | cons entry rest ih =>
    simp only [unvisited, List.filter_cons, List.contains_cons] at ih ⊢
    cases visited.contains entry.1 <;> cases entry.1 == package <;> grind

theorem importsOf_eq_nil_or_length_unvisited_lt (graph : ImportGraph) (visited : List Text)
    (package : Text) (fresh : visited.contains package = false) :
    graph.importsOf package = []
      ∨ (graph.unvisited (package :: visited)).length < (graph.unvisited visited).length := by
  induction graph with
  | nil => simp [importsOf]
  | cons entry rest ih =>
    obtain ⟨name, imports⟩ := entry
    by_cases same : name = package
    · subst same
      right
      have smaller := length_unvisited_cons_le rest visited name
      simp only [unvisited, List.filter_cons, List.contains_cons, fresh, beq_self_eq_true,
        Bool.or_false, Bool.not_true, Bool.not_false, Bool.false_eq_true, if_false, if_true,
        List.length_cons] at smaller ⊢
      omega
    · have different : (package == name) = false := by
        simpa using fun equal : package = name => same equal.symm
      have different' : (name == package) = false := by simpa using same
      rcases ih with none | fewer
      · left
        simpa [importsOf, List.lookup_cons, different] using none
      · right
        simp only [unvisited, List.filter_cons, List.contains_cons, different'] at fewer ⊢
        cases visited.contains name <;> simp_all

/-- Whether pending packages lead to a goal, by a search in depth. -/
def search (graph : ImportGraph) (goal : Text) (visited : List Text) :
    List Text → Bool
  | [] => false
  | package :: pending =>
    if package == goal then true
    else if visited.contains package then graph.search goal visited pending
    else graph.search goal (package :: visited) (graph.importsOf package ++ pending)
termination_by pending => ((graph.unvisited visited).length, pending.length)
decreasing_by
  · exact Prod.Lex.right _ (Nat.lt_succ_self _)
  · rename_i unseen
    rcases graph.importsOf_eq_nil_or_length_unvisited_lt visited package (by simpa using unseen) with
      none | fewer
    · rw [none]
      rcases Nat.lt_or_eq_of_le (graph.length_unvisited_cons_le visited package) with less | equal
      · exact Prod.Lex.left _ _ less
      · rw [equal]
        exact Prod.Lex.right _ (by simp)
    · exact Prod.Lex.left _ _ fewer

def reachesContracts (graph : ImportGraph) (package : Text) : Bool :=
  graph.search contractPackage [] [package]

end ImportGraph

def TestResult.attribute (package path : Text) (result : TestResult) : TestResult :=
  if Text.startsWith result.target.function (package ++ ".") then
    { result with target := { result.target with package := path } }
  else result

end Covenant
