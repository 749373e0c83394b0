import Covenant.Proofs.Depth
import Covenant.Proofs.Desugaring
import Covenant.Proofs.TokenSpans

/-!
# Where syntax errors point

Faults of the grammar are found in the plain text, at one of its tokens, and faults of spelling in
the source. Only the fault of too many backticks points elsewhere: it is found after returns were
named and implications spelled out, at an offset of that text, and is reported for the source.
-/

set_option autoImplicit false

namespace Covenant.Condition

open List

variable {mode : Mode} {source text front : Text} {error : SyntaxError} {fault : Fault}
  {offset current length : Nat}

/-- What a fault with this cause stands between: a run of backticks or the word `return` begins. -/
def SyntaxCause.PointsAt (front rest : Text) : SyntaxCause → Prop
  | .otherCallInPrecondition => [backtick] <+: rest ∧ front.getLast? ≠ some backtick
  | .tooManyBackticks => replicate 3 backtick <+: rest ∧ front.getLast? ≠ some backtick
  | .returnInPrecondition => returnAt (front.getLast?.any isWordByte) rest = true
  | _ => True

def Fault.PointsInto (text : Text) (fault : Fault) : Prop :=
  ∃ front rest, text = front ++ rest ∧ front.length = fault.offset ∧
    fault.cause.PointsAt front rest

/-!
## Faults of spelling
-/

theorem exists_run_of_mem_backtickRuns (apart : front.getLast? ≠ some backtick)
    (member : (offset, length) ∈ backtickRuns (front.length + current) current text) :
    ∃ before rest, front ++ (replicate current backtick ++ text) =
      before ++ (replicate length backtick ++ rest) ∧ before.length = offset ∧
      before.getLast? ≠ some backtick := by
  induction text generalizing front current with
  | nil =>
    rw [backtickRuns] at member
    split at member
    · cases member
    · cases mem_singleton.mp member
      exact ⟨front, [], rfl, (Nat.add_sub_cancel ..).symm, apart⟩
  | cons byte rest ih =>
    rw [backtickRuns] at member
    split at member
    · next same =>
      have found := @ih front (current + 1) apart member
      rw [replicate_succ', append_assoc] at found
      exact same ▸ found
    · next other =>
      have later (member : (offset, length) ∈ backtickRuns (front.length + current + 1) 0 rest) := by
        have found := @ih (front ++ (replicate current backtick ++ [byte])) 0
          (by simpa [← append_assoc] using other) (by simpa [Nat.add_assoc] using member)
        simpa only [replicate_zero, nil_append, append_assoc, singleton_append] using found
      split at member
      · exact later member
      · rcases mem_cons.mp member with same | member
        · cases same
          exact ⟨front, byte :: rest, rfl, (Nat.add_sub_cancel ..).symm, apart⟩
        · exact later member

theorem exists_front_of_findReturn? (found : findReturn? (front.getLast?.any isWordByte) text =
    some offset) : ∃ before rest, front ++ text = before ++ rest ∧
      before.length = front.length + offset ∧
      returnAt (before.getLast?.any isWordByte) rest = true := by
  induction text generalizing front offset with
  | nil => cases found
  | cons byte rest ih =>
    rw [findReturn?] at found
    split at found
    · next here =>
      cases found
      exact ⟨front, byte :: rest, rfl, rfl, here⟩
    · obtain ⟨later, found, rfl⟩ := Option.map_eq_some_iff.mp found
      have stands := @ih (front ++ [byte]) later (by simpa using found)
      rw [append_assoc, length_append] at stands
      rwa [Nat.add_comm later, ← Nat.add_assoc]

theorem spellReturns_eq_error (failed : spellReturns mode source = .error fault) :
    fault.cause ≠ .tooManyBackticks ∧ fault.PointsInto source := by
  unfold spellReturns at failed
  split at failed
  · cases failed
  · split at failed
    · next offset found =>
      cases failed
      have member : backtick ∈ source := by
        by_contra absent
        rw [idxOf?_eq_none_iff.mpr absent] at found
        cases found
      obtain ⟨front, rest, rfl, clear⟩ := eq_append_cons_of_mem member
      have none : front.findIdx? (· == backtick) = none := idxOf?_eq_none_iff.mpr clear
      refine ⟨nofun, front, _, rfl, ?_, prefix_append [backtick] rest, ?_⟩
      · simpa [idxOf?, findIdx?_append, findIdx?_cons, none] using found
      · exact fun last => clear (mem_of_getLast? last)
    · split at failed
      · next offset found =>
        cases failed
        have stands := @exists_front_of_findReturn? source [] offset found
        rw [nil_append, length_nil, Nat.zero_add] at stands
        exact ⟨nofun, stands⟩
      · cases failed

theorem spellImplications_eq_error {cause : SyntaxCause}
    (failed : spellImplications text = .error cause) : cause = .severalImplications := by
  unfold spellImplications at failed
  dsimp only at failed
  repeat' split at failed
  all_goals
    cases failed
    try rfl

theorem desugar_eq_error (failed : desugar mode source = .error fault) :
    (fault.cause ≠ .tooManyBackticks ∧ fault.PointsInto source) ∨
      fault.cause = .tooManyBackticks ∧ ∃ named spelled, spellReturns mode source = .ok named ∧
        spellImplications named = .ok spelled ∧ fault.PointsInto spelled := by
  rcases bind_eq_error_iff.mp failed with failed | ⟨named, ofNamed, failed⟩
  · exact .inl (spellReturns_eq_error failed)
  rcases bind_eq_error_iff.mp failed with failed | ⟨spelled, ofSpelled, failed⟩
  · obtain ⟨cause, found, rfl⟩ := mapError_eq_error_iff.mp failed
    cases spellImplications_eq_error found
    exact .inl ⟨nofun, [], source, rfl, rfl, trivial⟩
  dsimp only at failed
  split at failed
  · next offset length found =>
    cases failed
    have long : 2 < length := by simpa using find?_some found
    obtain ⟨front, rest, split, first, apart⟩ :=
      @exists_run_of_mem_backtickRuns spelled [] offset 0 length nofun (mem_of_find?_eq_some found)
    refine .inr ⟨rfl, named, spelled, ofNamed, mapError_eq_ok_iff.mp ofSpelled, front, _, split,
      first, ?_, apart⟩
    rw [← Nat.add_sub_cancel' long, replicate_add, append_assoc]
    exact prefix_append _ _
  · cases failed

/-!
## Faults of the grammar
-/

theorem SyntaxCause.pointsAt_of_grammatical {cause : SyntaxCause} {front rest : Text}
    (grammatical : cause.grammatical = true) : cause.PointsAt front rest := by
  cases cause <;> trivial

theorem parse_eq_error (failed : parse text = .error error) :
    error.cause.grammatical = true ∧
      Fault.PointsInto error.source ⟨error.offset, error.cause⟩ := by
  have points {cause : SyntaxCause} {rest : List Token} (grammatical : cause.grammatical = true)
      (ends : rest <:+ scan text) : Fault.PointsInto text ⟨nextOffset rest, cause⟩ := by
    have inside : nextOffset rest ≤ text.length := by
      cases rest with
      | nil => exact Nat.zero_le _
      | cons token others =>
        have stand := ((scanned 0 text).stands rfl (Nat.zero_le _)).2
        exact (stand token (ends.subset mem_cons_self)).2.inside
    exact ⟨_, _, (take_append_drop _ text).symm, length_take_of_le inside,
      SyntaxCause.pointsAt_of_grammatical grammatical⟩
  have settles : SettledAt expression (depthBound (scan text)) (scan text) :=
    (steady _).read .expression (Nat.add_le_add_left (by decide : 11 ≤ 16) _)
  unfold parse at failed
  split at failed
  · cases failed
  · next fault refused =>
    cases failed
    rcases bind_eq_error_iff.mp refused with refused | ⟨⟨expr, rest⟩, read, refused⟩
    · obtain ⟨grammatical, rest, ends, offset⟩ := settles.points fault refused
      exact ⟨grammatical, offset ▸ points grammatical ends⟩
    · dsimp only at refused
      split at refused <;> cases refused
      exact ⟨rfl, points rfl (settles.ends expr rest read)⟩

/-- A failed condition points into the text that its error carries, at the backticks or the word
that it is about. Too many backticks are the exception: the offset is that of the run in the text
with returns named and implications spelled out, so it is right where the source has neither. -/
theorem syntax_errors_point_right (failed : compile mode source = .error error) :
    (error.cause ≠ .tooManyBackticks → Fault.PointsInto error.source ⟨error.offset, error.cause⟩) ∧
    (error.cause = .tooManyBackticks → error.source = source ∧
      ∃ named spelled, spellReturns mode source = .ok named ∧
        spellImplications named = .ok spelled ∧
        Fault.PointsInto spelled ⟨error.offset, error.cause⟩) ∧
    (findReturn? false source = none → Text.contains source arrow = false →
      Fault.PointsInto error.source ⟨error.offset, error.cause⟩) := by
  rcases bind_eq_error_iff.mp failed with failed | ⟨plain, _, failed⟩
  · obtain ⟨fault, found, rfl⟩ := mapError_eq_error_iff.mp failed
    rcases desugar_eq_error found with ⟨other, points⟩ |
      ⟨same, named, spelled, ofNamed, ofSpelled, points⟩
    · exact ⟨fun _ => points, fun same => absurd same other, fun _ _ => points⟩
    · refine ⟨fun other => absurd same other,
        fun _ => ⟨rfl, named, spelled, ofNamed, ofSpelled, points⟩, fun noReturn noArrow => ?_⟩
      rw [← Bool.not_eq_true, Text.contains_iff] at noArrow
      obtain ⟨rfl, _⟩ := spellReturns_eq_ok_iff.mp ofNamed
      rw [nameReturns_of_findReturn?_eq_none noReturn, spellImplications_of_noArrow noArrow]
        at ofSpelled
      cases ofSpelled
      exact points
  · rcases bind_eq_error_iff.mp failed with failed | ⟨_, _, impossible⟩
    · obtain ⟨grammatical, points⟩ := parse_eq_error failed
      refine ⟨fun _ => points, fun same => ?_, fun _ _ => points⟩
      rw [same] at grammatical
      cases grammatical
    · cases impossible

theorem syntax_errors_point_right_return :
    Fault.PointsInto (Text.ofString "x == return") ⟨5, .returnInPrecondition⟩ :=
  (syntax_errors_point_right (rfl : compile .precondition (Text.ofString "x == return") =
    .error ⟨"x == return", 5, .returnInPrecondition⟩)).1 nofun

/-- The offset of the three backticks lies behind the end of the source. -/
theorem backticks_after_return_point_outside :
    compile .postcondition (Text.ofString "return == x```") =
        .error ⟨"return == x```", 15, .tooManyBackticks⟩ ∧
      ¬ Fault.PointsInto "return == x```" ⟨15, .tooManyBackticks⟩ := by
  refine ⟨rfl, ?_⟩
  rintro ⟨front, rest, split, first, _⟩
  have outside : 15 ≤ (Text.ofString "return == x```").length := by
    rw [split, length_append, first]
    exact Nat.le_add_right _ _
  exact absurd outside (by decide)

end Covenant.Condition
