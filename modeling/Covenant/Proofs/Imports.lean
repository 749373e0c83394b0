import Covenant.Package
import Mathlib.Logic.Relation

/-!
# Reachable packages

A search that ends without success leaves a set of packages that is closed under imports and lacks
the goal: whatever a visited package imports was visited as well or was still pending.
-/

set_option autoImplicit false

namespace Covenant.ImportGraph

open List

variable {graph : ImportGraph} {goal package : Text} {visited pending : List Text}

def Imports (graph : ImportGraph) (package imported : Text) : Prop :=
  imported ∈ graph.importsOf package

/-- A package leads to another through any number of imports. -/
abbrev Reaches (graph : ImportGraph) : Text → Text → Prop :=
  Relation.ReflTransGen graph.Imports

/-- The packages met so far lack the goal, and all their imports are met or pending. -/
def Explored (graph : ImportGraph) (goal : Text) (visited pending : List Text) : Prop :=
  ∀ package ∈ visited, package ≠ goal ∧
    ∀ imported ∈ graph.importsOf package, imported ∈ visited ∨ imported ∈ pending

namespace Explored

theorem nil (pending : List Text) : Explored graph goal [] pending := nofun

theorem skip (explored : Explored graph goal visited (package :: pending))
    (met : package ∈ visited) : Explored graph goal visited pending := by
  intro other member
  obtain ⟨apart, found⟩ := explored other member
  refine ⟨apart, fun imported direct => ?_⟩
  rcases found imported direct with known | waiting
  · exact .inl known
  · rcases mem_cons.mp waiting with rfl | later
    · exact .inl met
    · exact .inr later

theorem visit (explored : Explored graph goal visited (package :: pending))
    (apart : package ≠ goal) :
    Explored graph goal (package :: visited) (graph.importsOf package ++ pending) := by
  intro other member
  rcases mem_cons.mp member with rfl | earlier
  · exact ⟨apart, fun imported direct => .inr (mem_append_left _ direct)⟩
  · obtain ⟨apart, found⟩ := explored other earlier
    refine ⟨apart, fun imported direct => ?_⟩
    rcases found imported direct with known | waiting
    · exact .inl (mem_cons_of_mem _ known)
    · rcases mem_cons.mp waiting with rfl | later
      · exact .inl mem_cons_self
      · exact .inr (mem_append_right _ later)

/-- With nothing pending, no way out of the packages met is left. -/
theorem not_reaches (explored : Explored graph goal visited []) (member : package ∈ visited) :
    ¬ graph.Reaches package goal := by
  intro path
  have inside {other : Text} (path : graph.Reaches package other) : other ∈ visited := by
    induction path with
    | refl => exact member
    | tail _ direct ih =>
      exact ((explored _ ih).2 _ direct).resolve_right not_mem_nil
  exact (explored goal (inside path)).1 rfl

end Explored

theorem exists_reaches_of_search (found : graph.search goal visited pending = true) :
    ∃ package ∈ pending, graph.Reaches package goal := by
  fun_induction search graph goal visited pending with
  | case1 => cases found
  | case2 visited package pending same =>
    exact ⟨package, mem_cons_self, by rw [eq_of_beq same]⟩
  | case3 visited package pending _ _ ih =>
    obtain ⟨other, member, path⟩ := ih found
    exact ⟨other, mem_cons_of_mem _ member, path⟩
  | case4 visited package pending _ _ ih =>
    obtain ⟨other, member, path⟩ := ih found
    rcases mem_append.mp member with direct | later
    · exact ⟨package, mem_cons_self, .head direct path⟩
    · exact ⟨other, mem_cons_of_mem _ later, path⟩

theorem not_reaches_of_search (failed : graph.search goal visited pending = false)
    (explored : Explored graph goal visited pending) :
    ∀ package, package ∈ visited ∨ package ∈ pending → ¬ graph.Reaches package goal := by
  fun_induction search graph goal visited pending with
  | case1 visited =>
    rintro package (member | member)
    · exact explored.not_reaches member
    · cases member
  | case2 => cases failed
  | case3 visited package pending _ met ih =>
    have met : package ∈ visited := contains_iff_mem.mp met
    rintro other (known | waiting)
    · exact ih failed (explored.skip met) other (.inl known)
    · rcases mem_cons.mp waiting with rfl | later
      · exact ih failed (explored.skip met) other (.inl met)
      · exact ih failed (explored.skip met) other (.inr later)
  | case4 visited package pending apart _ ih =>
    have ends := ih failed (explored.visit (by simpa using apart))
    rintro other (known | waiting)
    · exact ends other (.inl (mem_cons_of_mem _ known))
    · rcases mem_cons.mp waiting with rfl | later
      · exact ends other (.inl mem_cons_self)
      · exact ends other (.inr (mem_append_right _ later))

theorem reaches_congr {arranged : ImportGraph}
    (same : ∀ package, (arranged.importsOf package).Perm (graph.importsOf package)) :
    arranged.Reaches = graph.Reaches := by
  have direct : arranged.Imports = graph.Imports :=
    funext fun package => funext fun _ => propext (same package).mem_iff
  rw [Reaches, direct]

/-- The search finds the package of contracts exactly if imports lead to it, in whatever order the
imports of each package are taken. -/
theorem search_decides_reachability (graph arranged : ImportGraph)
    (same : ∀ package, (arranged.importsOf package).Perm (graph.importsOf package))
    (package : Text) :
    arranged.reachesContracts package = true ↔ graph.Reaches package contractPackage := by
  rw [← reaches_congr same, reachesContracts]
  constructor
  · intro found
    obtain ⟨other, member, path⟩ := exists_reaches_of_search found
    rwa [mem_singleton.mp member] at path
  · intro path
    cases found : arranged.search contractPackage [] [package] with
    | true => rfl
    | false =>
      exact absurd path
        (not_reaches_of_search found (Explored.nil _) package (.inr mem_cons_self))

/-- Two packages that import each other; one of them imports the contracts. -/
def entangled : ImportGraph := [("a", ["b", "a"]), ("b", ["a", contractPackage])]

theorem search_decides_reachability_entangled :
    (∀ package, (importsOf [("a", ["a", "b"]), ("b", [contractPackage, "a"])] package).Perm
      (entangled.importsOf package)) ∧
    reachesContracts [("a", ["a", "b"]), ("b", [contractPackage, "a"])] "a" = true := by
  have same (package : Text) :
      (importsOf [("a", ["a", "b"]), ("b", [contractPackage, "a"])] package).Perm
        (entangled.importsOf package) := by
    rw [importsOf, importsOf, entangled, lookup_cons, lookup_cons, lookup_cons, lookup_cons]
    cases package == "a" with
    | true => exact .swap ..
    | false =>
      cases package == "b" with
      | true => exact .swap ..
      | false => exact .nil
  have direct : entangled.Imports "a" "b" := mem_cons_self
  have path : entangled.Reaches "a" contractPackage :=
    .head direct (.single (mem_cons_of_mem _ mem_cons_self))
  exact ⟨same, (search_decides_reachability entangled _ same "a").mpr path⟩

end Covenant.ImportGraph
