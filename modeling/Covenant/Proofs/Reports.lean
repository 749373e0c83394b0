import Covenant.Proofs.Integers
import Covenant.Report
import Mathlib

/-!
# Reports

A report shows failures first, then the functions that were not tested, then the rest, and orders
each group by name. Results that agree in both keep the order of the run; where no two results
agree, the order of the run leaves no trace.
-/

set_option autoImplicit false

namespace Covenant

open List

namespace TestResult

variable {left right : TestResult} {results arranged : List TestResult}

instance : Std.TransCmp order := inferInstanceAs (Std.TransCmp (compareLex _ _))

theorem order_eq_iff :
    order left right = .eq ↔
      left.verdict.rank = right.verdict.rank ∧ left.target.function = right.target.function := by
  rw [order, compareLex, Ordering.then_eq_eq, compareOn, compareOn, compare_eq_iff_eq,
    Std.LawfulEqOrd.compare_eq_iff_eq]

theorem isLE_order_iff :
    (order left right).isLE = true ↔
      left.verdict.rank < right.verdict.rank ∨
        left.verdict.rank = right.verdict.rank ∧
          Text.le left.target.function right.target.function = true := by
  rw [order, compareLex, Ordering.isLE_then_iff_or, compareOn, compareOn, compare_lt_iff_lt,
    compare_eq_iff_eq, Text.le]

theorem order_trans (first second third : TestResult) (earlier : (order first second).isLE)
    (later : (order second third).isLE) : (order first third).isLE :=
  Std.TransCmp.isLE_trans earlier later

theorem order_total (left right : TestResult) :
    ((order left right).isLE || (order right left).isLE) = true := by
  have swapped : order right left = (order left right).swap := Std.OrientedCmp.eq_swap
  rw [swapped]
  cases order left right <;> rfl

theorem sort_perm (results : List TestResult) : (sort results).Perm results :=
  mergeSort_perm results _

theorem sort_pairwise (results : List TestResult) :
    (sort results).Pairwise fun left right => (order left right).isLE :=
  pairwise_mergeSort order_trans order_total results

/-- Results that agree in rank and name are in order as they stand, so sorting does not move them
past each other. -/
theorem filter_sort (results : List TestResult) (rank : Nat) (name : Text) :
    (sort results).filter (fun result =>
        result.verdict.rank = rank ∧ result.target.function = name) =
      results.filter (fun result =>
        result.verdict.rank = rank ∧ result.target.function = name) := by
  generalize chosen : (fun result : TestResult =>
    decide (result.verdict.rank = rank ∧ result.target.function = name)) = belongs
  have ordered : (results.filter belongs).Pairwise fun left right => (order left right).isLE := by
    refine pairwise_of_forall_mem_list fun left leftIn right rightIn => ?_
    have leftAgrees := (mem_filter.mp leftIn).2
    have rightAgrees := (mem_filter.mp rightIn).2
    rw [← chosen, decide_eq_true_iff] at leftAgrees rightAgrees
    have agree := order_eq_iff.mpr ⟨leftAgrees.1.trans rightAgrees.1.symm,
      leftAgrees.2.trans rightAgrees.2.symm⟩
    rw [agree]
    rfl
  have kept : results.filter belongs <+ sort results :=
    sublist_mergeSort order_trans order_total ordered filter_sublist
  have inside := kept.filter belongs
  rw [filter_filter] at inside
  simp only [Bool.and_self] at inside
  exact (inside.eq_of_length ((sort_perm results).filter _).length_eq.symm).symm

theorem sort_eq_of_perm (perm : arranged.Perm results)
    (apart : results.Pairwise fun left right => order left right ≠ .eq) :
    sort arranged = sort results := by
  refine Perm.eq_of_pairwise ?_ (sort_pairwise arranged) (sort_pairwise results)
    ((sort_perm arranged).trans (perm.trans (sort_perm results).symm))
  intro left right leftIn rightIn forward backward
  have leftIn := perm.mem_iff.mp ((sort_perm arranged).mem_iff.mp leftIn)
  have rightIn := (sort_perm results).mem_iff.mp rightIn
  have : Std.Symm fun left right => order left right ≠ .eq :=
    ⟨fun _ _ differ agree => differ (Std.OrientedCmp.eq_symm agree)⟩
  by_contra different
  exact apart.forall leftIn rightIn different (Std.OrientedCmp.isLE_antisymm forward backward)

end TestResult

namespace Summary

theorem foldl_add (results : List TestResult) (functions : Int) :
    results.foldl add { empty with functions := functions } =
      { functions := functions
        passed := results.countP fun result => result.verdict = .passed
        untested := results.countP fun result => result.verdict = .untested
        failed := results.countP fun result => result.verdict = .failed
        executed := IntKind.int.wrap (results.map (·.executed)).sum
        untestedNames := (results.filter fun result => result.verdict = .untested).map
          (·.target.function) } := by
  -- Results are counted at the end, so the induction adds the last one.
  induction results using reverseRecOn with
  | nil => rfl
  | append_singleton results last ih =>
    have wrapped (sum : Int) :
        IntKind.int.wrap (IntKind.int.wrap sum + last.executed) =
          IntKind.int.wrap (sum + last.executed) := Int.bmod_add_bmod
    rw [foldl_append, ih, foldl_cons, foldl_nil, add]
    cases verdict : last.verdict <;> simp [verdict, wrapped]

end Summary

namespace Report

variable {results arranged : List TestResult}

/-- Only the names of the untested functions tell in which order results were counted. -/
theorem summary_of_perm (perm : arranged.Perm results) :
    Summary.ofResults arranged =
      { Summary.ofResults results with
        untestedNames := (arranged.filter fun result => result.verdict = .untested).map
          (·.target.function) } := by
  rw [Summary.ofResults, Summary.ofResults, Summary.foldl_add, Summary.foldl_add,
    perm.length_eq, perm.countP_eq, perm.countP_eq, perm.countP_eq, (perm.map _).sum_eq]

/-- A report has the results by rank and name, in the order of the run where these agree, and the
numbers of its summary count them. Executed cases are added as all numbers of the host are, in 64
bits. Where no two results agree in rank and name, the order of the run leaves no trace. -/
theorem build_summarizes_in_order (results : List TestResult) (metadata : Metadata) :
    let report := build results metadata
    let sum := (results.map (·.executed)).sum
    (report.results.Perm results ∧
      report.results.Pairwise (fun left right =>
        left.verdict.rank < right.verdict.rank ∨
          left.verdict.rank = right.verdict.rank ∧
            Text.le left.target.function right.target.function = true) ∧
      ∀ (rank : Nat) (name : Text),
        report.results.filter (fun result =>
            result.verdict.rank = rank ∧ result.target.function = name) =
          results.filter (fun result =>
            result.verdict.rank = rank ∧ result.target.function = name)) ∧
    (report.summary.functions = results.length ∧
      report.summary.passed = results.countP (fun result => result.verdict = .passed) ∧
      report.summary.untested = results.countP (fun result => result.verdict = .untested) ∧
      report.summary.failed = results.countP (fun result => result.verdict = .failed) ∧
      report.summary.untestedNames =
        (report.results.filter (fun result => result.verdict = .untested)).map
          (·.target.function)) ∧
    (report.summary.executed = IntKind.int.wrap sum ∧
      (IntKind.int.holds sum = true → report.summary.executed = sum)) ∧
    (Summary.ofResults report.results).exitStatus = (Summary.ofResults results).exitStatus ∧
    ∀ (arranged : List TestResult) (circumstances : Metadata), arranged.Perm results →
      results.Pairwise (fun left right =>
        ¬(left.verdict.rank = right.verdict.rank ∧
          left.target.function = right.target.function)) →
      (build arranged circumstances).results = report.results ∧
        (build arranged circumstances).summary = report.summary := by
  have perm := TestResult.sort_perm results
  have summary : (build results metadata).summary = _ := summary_of_perm perm
  rw [Summary.ofResults, Summary.foldl_add] at summary
  have executed := congrArg Summary.executed summary
  refine ⟨⟨perm, ?_, TestResult.filter_sort results⟩, ?_, ⟨executed, ?_⟩, ?_, ?_⟩
  · exact (TestResult.sort_pairwise results).imp TestResult.isLE_order_iff.mp
  · exact ⟨congrArg Summary.functions summary, congrArg Summary.passed summary,
      congrArg Summary.untested summary, congrArg Summary.failed summary,
      congrArg Summary.untestedNames summary⟩
  · exact fun held => executed.trans (IntKind.wrap_of_holds held)
  · have status := congrArg Summary.exitStatus (summary_of_perm perm)
    exact status
  · intro arranged circumstances rearranged apart
    have sorted := TestResult.sort_eq_of_perm rearranged
      (apart.imp (mt TestResult.order_eq_iff.mp))
    exact ⟨sorted, congrArg Summary.ofResults sorted⟩

def counted (function : Text) (verdict : Verdict) (executed : Int) : TestResult :=
  ⟨[], ⟨[], function, []⟩, verdict, executed, executed, 0, 0, none, 0, [], 0⟩

def circumstances : Metadata := ⟨[], [], [], [], .zero, 0, none⟩

theorem build_summarizes_in_order_reversed :
    let results := [counted "f" .failed 2, counted "g" .untested 1, counted "a" .passed 3]
    (build results.reverse circumstances).results = (build results circumstances).results ∧
      (build results circumstances).summary.executed = 6 := by
  intro results
  obtain ⟨_, _, ⟨_, precise⟩, _, rearranged⟩ := build_summarizes_in_order results circumstances
  exact ⟨(rearranged _ circumstances (reverse_perm results) (by decide)).1, precise (by decide)⟩

end Report

end Covenant
