import Covenant.Complexity
import Covenant.Proofs.Decimals
import Covenant.Testing
import Mathlib.Data.List.Forall2

/-!
# Locations and complexities

The decimal text of a line has no colon, so the last colon of a location stands before its line,
whatever the name of the file holds. Results are therefore annotated by the positions at which
their functions were found.
-/

set_option autoImplicit false

namespace Covenant

open List

namespace Location

theorem colon_not_mem_ofInt (line : Int) : 58 ∉ Text.ofInt line := by
  have digits (number : Nat) : 58 ∉ Text.ofNat number := by
    intro member
    cases Text.isDigit_of_mem_ofNat member
  rw [Text.ofInt]
  split
  · simp [digits]
  · exact digits _

theorem atLastColon?_append {file line : Text} (noColon : 58 ∉ line) :
    atLastColon? (file ++ 58 :: line) = some (file, line) := by
  have each : ∀ byte ∈ line.reverse, (byte != 58) = true := by
    intro byte member
    rw [bne_iff_ne]
    rintro rfl
    exact noColon (mem_reverse.mp member)
  have last : ((file ++ 58 :: line).reverse.takeWhile (· != 58)).reverse = line := by
    rw [reverse_append, reverse_cons, append_assoc, takeWhile_append_of_pos each]
    simp
  have longer : (file ++ 58 :: line).length = file.length + line.length + 1 := by
    rw [length_append, length_cons]
    rfl
  have before : file.length + line.length + 1 - line.length - 1 = file.length := by omega
  have shorter : ¬(line.length == file.length + line.length + 1) = true := by
    rw [beq_iff_eq]
    omega
  rw [atLastColon?, last, longer, before, if_neg shorter, take_left]

theorem split_file_line (file : Text) {line : Int} (word : Number.IsWord line) :
    split (file ++ ":" ++ Text.ofInt line) = (⟨file, line⟩, none) := by
  have found : atLastColon? (file ++ ":" ++ Text.ofInt line) = some (file, Text.ofInt line) := by
    rw [append_assoc]
    exact atLastColon?_append (colon_not_mem_ofInt line)
  rw [split, found]
  dsimp only
  rw [Number.readInt_ofInt word]

theorem split_text {location : Location} (known : location.file ≠ [])
    (word : Number.IsWord location.line) : split location.text = (location, none) := by
  rw [text, if_neg (by simpa using known)]
  exact split_file_line location.file word

end Location

theorem Testing.location_resultOf (contract : Contract) (location : Location)
    (failure : Option Failure) (tally : Tally) :
    (resultOf contract location failure tally).target.location = location.text := by
  unfold resultOf
  dsimp only
  split <;> split <;> rfl

namespace Complexity.Index

variable {index : Index}

/-- What is found for a function at a location. The base name of the file counts only where the
position is unknown, and the name of the function only where both are. -/
inductive Finds (index : Index) (location : Location) (name : Text) : Option Int → Prop where
  | exactly {value : Int} : index.exact.lookup location = some value →
      Finds index location name (some value)
  | byBase {value : Int} : index.exact.lookup location = none →
      index.byBase.lookup (baseOf location) = some value → Finds index location name (some value)
  | byName : index.exact.lookup location = none → index.byBase.lookup (baseOf location) = none →
      Finds index location name (index.byName.lookup name)

theorem finds_find? (index : Index) (location : Location) (name : Text) :
    Finds index location name (index.find? location name) := by
  unfold find?
  cases exact : index.exact.lookup location with
  | some value => exact .exactly exact
  | none =>
    cases base : index.byBase.lookup (baseOf location) with
    | some value => exact .byBase exact base
    | none => exact .byName exact base

/-- The same result with the complexity that was found, if any. -/
def annotated (result : TestResult) (found : Option Int) : TestResult :=
  { result with complexity := found.getD result.complexity }

theorem annotateAll_eq (index : Index) (results : List TestResult) :
    ∃ found : List (Option Int),
      Forall₂ (fun result => Finds index (Location.split result.target.location).1
        result.target.function) results found ∧
      index.annotateAll results =
        (results.zipWith annotated found, found.countP Option.isSome) := by
  induction results with
  | nil => exact ⟨[], .nil, rfl⟩
  | cons result results ih =>
    obtain ⟨others, finds, rest⟩ := ih
    have first := finds_find? index (Location.split result.target.location).1
      result.target.function
    refine ⟨_ :: others, .cons first finds, ?_⟩
    rw [annotateAll, rest]
    cases index.find? (Location.split result.target.location).1 result.target.function with
    | none =>
      rw [countP_cons_of_neg (by decide)]
      rfl
    | some value =>
      rw [countP_cons_of_pos rfl]
      rfl

/-- A location is read back as it was written, and results are annotated by it: each by what is
found at its location, with nothing else changed, and those that were found are counted. -/
theorem annotations_follow_locations :
    (∀ (file : Text) (line : Int), Number.IsWord line →
      Location.split (file ++ ":" ++ Text.ofInt line) = (⟨file, line⟩, none)) ∧
    (∀ (contract : Contract) (location : Location) (failure : Option Failure)
      (tally : Testing.Tally), location.file ≠ [] → Number.IsWord location.line →
      Location.split (Testing.resultOf contract location failure tally).target.location =
        (location, none)) ∧
    ∀ (index : Index) (results : List TestResult), ∃ found : List (Option Int),
      Forall₂ (fun result => Finds index (Location.split result.target.location).1
        result.target.function) results found ∧
      index.annotateAll results =
        (results.zipWith annotated found, found.countP Option.isSome) := by
  refine ⟨fun file line word => Location.split_file_line file word, ?_, annotateAll_eq⟩
  intro contract location failure tally known word
  rw [Testing.location_resultOf]
  exact Location.split_text known word

/-- The name of a file may hold a colon, and a line may be negative. -/
theorem annotations_follow_locations_drive :
    Location.split ("C:/geom.go" ++ ":" ++ Text.ofInt (-7)) = (⟨"C:/geom.go", -7⟩, none) :=
  annotations_follow_locations.1 "C:/geom.go" (-7) (by decide)

end Complexity.Index

end Covenant
