import Covenant.Csv
import Covenant.Proofs.Outcome
import Covenant.Proofs.Splitting
import Mathlib.Data.List.TakeWhile

/-!
# What a record holds

Reading a record never makes text: its fields, each with the comma or the end behind it, take no
more room than the record. A text is therefore read as the one field that it is exactly when it is
plain.
-/

set_option autoImplicit false

namespace Covenant

open List

namespace Text

variable {stop : UInt8} {text : Text}

theorem not_mem_of_mem_split {piece : Text} (member : piece ∈ split [stop] text) :
    stop ∉ piece := by
  induction text using cut_induction (cons_ne_nil stop []) generalizing piece with
  | nil =>
    rw [mem_singleton.mp member]
    exact not_mem_nil
  | found rest ih =>
    rw [split_append (cons_ne_nil stop [])] at member
    rcases mem_cons.mp member with rfl | later
    · exact not_mem_nil
    · exact ih later
  | byte byte rest absent ih =>
    obtain ⟨first, others, same⟩ := split_ne_nil [stop] rest
    rw [split_cons absent same] at member
    rw [same] at ih
    rcases mem_cons.mp member with rfl | later
    · rw [mem_cons, not_or]
      refine ⟨fun equal => absent ?_, ih mem_cons_self⟩
      rw [equal]
      exact prefix_append [byte] rest
    · exact ih (mem_cons_of_mem _ later)

theorem length_join_singleton (pieces : List Text) :
    (join [stop] pieces).length = pieces.flatten.length + (pieces.length - 1) := by
  induction pieces with
  | nil => rfl
  | cons piece pieces ih =>
    cases pieces with
    | nil => simp [join]
    | cons next pieces =>
      have step : join [stop] (piece :: next :: pieces) =
          piece ++ [stop] ++ join [stop] (next :: pieces) := rfl
      rw [step, flatten_cons]
      simp only [length_append, ih, length_cons, length_nil]
      omega

end Text

namespace Csv

/-- The room that fields take, each with what ends it. -/
def room : List Text → Nat
  | [] => 0
  | field :: fields => field.length + 1 + room fields

theorem room_singleton (field : Text) : room [field] = field.length + 1 := rfl

theorem room_append (fields others : List Text) :
    room (fields ++ others) = room fields + room others := by
  induction fields with
  | nil => exact (Nat.zero_add _).symm
  | cons field fields ih =>
    rw [cons_append, room, room, ih]
    exact (Nat.add_assoc _ _ _).symm

/-!
## Lines
-/

def dropEnd (stop : UInt8) (line : Text) : Text :=
  if line.getLast? == some stop then line.dropLast else line

section

variable {stop : UInt8} {line : Text}

theorem length_dropEnd_le (stop : UInt8) (line : Text) :
    (dropEnd stop line).length ≤ line.length := by
  unfold dropEnd
  split
  · simp
  · exact Nat.le_refl _

theorem mem_of_mem_dropEnd {byte : UInt8} (member : byte ∈ dropEnd stop line) : byte ∈ line := by
  unfold dropEnd at member
  split at member
  · exact dropLast_subset line member
  · exact member

theorem dropEnd_eq_self_iff : dropEnd stop line = line ↔ line.getLast? ≠ some stop := by
  unfold dropEnd
  split
  · next ends =>
    have last : line.getLast? = some stop := by simpa using ends
    have positive : 0 < line.length := length_pos_of_mem (mem_of_getLast? last)
    have shorter : line.dropLast ≠ line := by
      intro same
      have lengths := congrArg List.length same
      rw [length_dropLast] at lengths
      omega
    exact iff_of_false shorter (fun ends => ends last)
  · next ends => simpa using ends

theorem dropEnd_of_absent (absent : stop ∉ line) : dropEnd stop line = line :=
  dropEnd_eq_self_iff.mpr (fun ends => absent (mem_of_getLast? ends))

theorem body_eq (line : Text) : body line = dropEnd 10 line := rfl

end

variable {source line text : Text} {stop : UInt8}

theorem linesOf_eq {ended : List Text} {last : Text}
    (parts : Text.split [10] source = ended ++ [last]) :
    linesOf source =
      ended.map (fun line => dropEnd 13 line ++ [10]) ++
        if last.isEmpty then [] else [dropEnd 13 last] := by
  have same : Text.split "\n" source = ended ++ [last] := parts
  unfold linesOf
  simp only [same, dropLast_concat, getLastD_concat]
  cases last <;> simp [dropEnd]

theorem exists_split (source : Text) :
    ∃ ended last, Text.split [10] source = ended ++ [last] := by
  obtain ⟨piece, pieces, same⟩ := Text.split_ne_nil [10] source
  rw [same]
  exact ⟨_, _, (dropLast_concat_getLast (cons_ne_nil piece pieces)).symm⟩

theorem length_linesOf_le (source : Text) : (linesOf source).flatten.length ≤ source.length := by
  obtain ⟨ended, last, parts⟩ := exists_split source
  have whole := congrArg List.length (Text.join_split (cons_ne_nil (10 : UInt8) []) source)
  rw [parts, Text.length_join_singleton] at whole
  have endedRoom : (ended.map (fun line => dropEnd 13 line ++ [10])).flatten.length ≤
      ended.flatten.length + ended.length := by
    clear parts whole
    induction ended with
    | nil => exact Nat.le_refl _
    | cons line ended ih =>
      have shorter := length_dropEnd_le 13 line
      simp only [map_cons, flatten_cons, length_append, length_cons,
        length_nil]
      omega
  have lastRoom : (if last.isEmpty then [] else [dropEnd 13 last]).flatten.length ≤
      last.length := by
    have shorter := length_dropEnd_le 13 last
    split
    · exact Nat.zero_le _
    · simpa using shorter
  rw [linesOf_eq parts, flatten_append, length_append]
  simp only [flatten_append, length_append, flatten_singleton, length_cons,
    length_nil] at whole
  omega

theorem not_mem_body_of_mem_linesOf (member : line ∈ linesOf source) : 10 ∉ body line := by
  obtain ⟨ended, last, parts⟩ := exists_split source
  have clean : ∀ part ∈ ended ++ [last], (10 : UInt8) ∉ dropEnd 13 part := by
    intro part among inside
    rw [← parts] at among
    exact Text.not_mem_of_mem_split among (mem_of_mem_dropEnd inside)
  rw [linesOf_eq parts, mem_append] at member
  rcases member with among | isLast
  · obtain ⟨part, inside, rfl⟩ := mem_map.mp among
    simpa [body] using clean part (mem_append_left _ inside)
  · split at isLast
    · cases isLast
    · rw [mem_singleton.mp isLast]
      exact fun inside => clean last (mem_append_right _ mem_cons_self)
        (mem_of_mem_dropEnd inside)

/-!
## Fields
-/

theorem takeWhile_ne_append {front : Text} (absent : stop ∉ front) (rest : Text) :
    (front ++ stop :: rest).takeWhile (· != stop) = front := by
  rw [takeWhile_append_of_pos]
  · simp
  · intro byte member
    simpa using fun same : byte = stop => absent (same ▸ member)

theorem takeWhile_ne_of_absent (absent : stop ∉ line) : line.takeWhile (· != stop) = line := by
  rw [takeWhile_eq_self_iff]
  intro byte member
  simpa using fun same : byte = stop => absent (same ▸ member)

section

variable {fuel : Nat} {others : List Text} {place : Place} {line : Text} {fields : List Text}

theorem readFields_cases (succeeded : readFields (fuel + 1) others place line = .ok fields) :
    (∃ rest later, line = 34 :: rest ∧ readQuoted fuel others later [] rest = .ok fields) ∨
    (∃ field rest later found, line = field ++ 44 :: rest ∧
      readFields fuel others later rest = .ok found ∧ fields = field :: found) ∨
    (44 ∉ line ∧ 34 ∉ body line ∧ fields = [body line]) := by
  unfold readFields at succeeded
  split at succeeded
  · exact .inl ⟨_, _, rfl, succeeded⟩
  · refine .inr ?_
    by_cases comma : 44 ∈ line
    · obtain ⟨field, rest, rfl, absent⟩ := eq_append_cons_of_mem comma
      have isLonger : field.length < (field ++ 44 :: rest).length := by simp
      simp only [takeWhile_ne_append absent, if_pos isLonger] at succeeded
      split at succeeded
      · cases succeeded
      · obtain ⟨found, read, same⟩ := map_eq_ok_iff.mp succeeded
        have after : (field ++ 44 :: rest).drop (field.length + 1) = rest := by simp
        rw [after] at read
        exact .inl ⟨field, rest, _, found, rfl, read, same.symm⟩
    · simp only [takeWhile_ne_of_absent comma, Nat.lt_irrefl, if_false] at succeeded
      split at succeeded
      · cases succeeded
      · next noQuote =>
        refine .inr ⟨comma, fun quote => ?_, (Except.ok.inj succeeded).symm⟩
        exact absurd (List.findIdx?_eq_none_iff.mp noQuote 34 quote) (by decide)

theorem readQuoted_cases {done : Text}
    (succeeded : readQuoted (fuel + 1) others place done line = .ok fields) :
    (∃ inside rest later, line = inside ++ 34 :: 34 :: rest ∧
      readQuoted fuel others later (done ++ inside ++ [34]) rest = .ok fields) ∨
    (∃ inside rest later found, line = inside ++ 34 :: 44 :: rest ∧
      readFields fuel others later rest = .ok found ∧ fields = (done ++ inside) :: found) ∨
    (∃ inside rest, line = inside ++ 34 :: rest ∧ fields = [done ++ inside]) ∨
    (∃ next rest later, others = next :: rest ∧
      readQuoted fuel rest later (done ++ line) next = .ok fields) := by
  unfold readQuoted at succeeded
  by_cases quote : 34 ∈ line
  · obtain ⟨inside, rest, rfl, absent⟩ := eq_append_cons_of_mem quote
    have isLonger : inside.length < (inside ++ 34 :: rest).length := by simp
    have after : (inside ++ 34 :: rest).drop (inside.length + 1) = rest := by simp
    simp only [takeWhile_ne_append absent, if_pos isLonger, after] at succeeded
    split at succeeded
    · exact .inl ⟨inside, _, _, rfl, succeeded⟩
    · obtain ⟨found, read, same⟩ := map_eq_ok_iff.mp succeeded
      exact .inr (.inl ⟨inside, _, _, found, rfl, read, same.symm⟩)
    · exact .inr (.inr (.inl ⟨inside, _, rfl, (Except.ok.inj succeeded).symm⟩))
    · exact .inr (.inr (.inl ⟨inside, _, rfl, (Except.ok.inj succeeded).symm⟩))
    · cases succeeded
  · simp only [takeWhile_ne_of_absent quote, Nat.lt_irrefl, if_false] at succeeded
    split at succeeded
    · cases succeeded
    · split at succeeded
      · cases succeeded
      · exact .inr (.inr (.inr ⟨_, _, _, rfl, succeeded⟩))

end

/-- What is read takes no more room than its source. The quote that ends a quoted field takes the
room of the comma behind it. -/
theorem room_le_of_read (fuel : Nat) :
    (∀ others place line fields, readFields fuel others place line = .ok fields →
      fields ≠ [] ∧ room fields ≤ line.length + others.flatten.length + 1) ∧
    ∀ others place done line fields, readQuoted fuel others place done line = .ok fields →
      fields ≠ [] ∧ room fields ≤ done.length + line.length + others.flatten.length := by
  induction fuel with
  | zero =>
    constructor
    · intro others place line fields succeeded
      cases succeeded
    · intro others place done line fields succeeded
      cases succeeded
  | succ fuel ih =>
    obtain ⟨ihFields, ihQuoted⟩ := ih
    constructor
    · intro others place line fields succeeded
      rcases readFields_cases succeeded with
        ⟨rest, later, rfl, read⟩ | ⟨field, rest, later, found, rfl, read, rfl⟩ | ⟨_, _, rfl⟩
      · obtain ⟨inhabited, fits⟩ := ihQuoted _ _ _ _ _ read
        refine ⟨inhabited, ?_⟩
        simp only [length_cons, length_nil] at fits ⊢
        omega
      · obtain ⟨_, fits⟩ := ihFields _ _ _ _ read
        refine ⟨cons_ne_nil _ _, ?_⟩
        simp only [room, length_append, length_cons] at fits ⊢
        omega
      · have shorter := length_dropEnd_le 10 line
        refine ⟨cons_ne_nil _ _, ?_⟩
        rw [room_singleton, body_eq]
        omega
    · intro others place done line fields succeeded
      rcases readQuoted_cases succeeded with
        ⟨inside, rest, later, rfl, read⟩ | ⟨inside, rest, later, found, rfl, read, rfl⟩ |
        ⟨inside, rest, rfl, rfl⟩ | ⟨next, rest, later, rfl, read⟩
      · obtain ⟨inhabited, fits⟩ := ihQuoted _ _ _ _ _ read
        refine ⟨inhabited, ?_⟩
        simp only [length_append, length_cons, length_nil] at fits ⊢
        omega
      · obtain ⟨_, fits⟩ := ihFields _ _ _ _ read
        refine ⟨cons_ne_nil _ _, ?_⟩
        simp only [room, length_append, length_cons] at fits ⊢
        omega
      · refine ⟨cons_ne_nil _ _, ?_⟩
        simp only [room_singleton, length_append, length_cons]
        omega
      · obtain ⟨inhabited, fits⟩ := ihQuoted _ _ _ _ _ read
        refine ⟨inhabited, ?_⟩
        simp only [length_append, flatten_cons] at fits ⊢
        omega

/-!
## Records
-/

structure Plain (text : Text) : Prop where
  inhabited : text ≠ []
  noComma : 44 ∉ text
  noQuote : 34 ∉ text
  noBreak : 10 ∉ text
  noReturn : text.getLast? ≠ some 13

theorem plain_iff :
    Plain text ↔
      text ≠ [] ∧ 44 ∉ text ∧ 34 ∉ text ∧ 10 ∉ text ∧ text.getLast? ≠ some 13 :=
  ⟨fun ⟨inhabited, noComma, noQuote, noBreak, noReturn⟩ =>
      ⟨inhabited, noComma, noQuote, noBreak, noReturn⟩,
    fun ⟨inhabited, noComma, noQuote, noBreak, noReturn⟩ =>
      ⟨inhabited, noComma, noQuote, noBreak, noReturn⟩⟩

instance (text : Text) : Decidable (Plain text) := decidable_of_iff _ plain_iff.symm

theorem exists_line_of_readRecord {fields : List Text}
    (succeeded : readRecord source = .ok fields) :
    ∃ line others fuel place, line ∈ linesOf source ∧
      (line :: others).flatten.length ≤ source.length ∧
      readFields (fuel + 1) others place line = .ok fields := by
  unfold readRecord at succeeded
  dsimp only at succeeded
  split at succeeded
  · cases succeeded
  · next line others left =>
    obtain ⟨empty, lines⟩ : line :: others <:+ linesOf source := left ▸ drop_suffix _ _
    have fits := length_linesOf_le source
    rw [← lines, flatten_append, length_append] at fits
    refine ⟨line, others, _, _, ?_, Nat.le_of_add_left_le fits, succeeded⟩
    rw [← lines]
    exact mem_append_right _ mem_cons_self

theorem room_le_of_readRecord {fields : List Text} (succeeded : readRecord source = .ok fields) :
    fields ≠ [] ∧ room fields ≤ source.length + 1 := by
  obtain ⟨line, others, fuel, place, _, fits, read⟩ := exists_line_of_readRecord succeeded
  obtain ⟨inhabited, roomFits⟩ := (room_le_of_read _).1 _ _ _ _ read
  refine ⟨inhabited, ?_⟩
  rw [flatten_cons, length_append] at fits
  omega

theorem linesOf_of_noBreak (inhabited : text ≠ []) (noBreak : 10 ∉ text) :
    linesOf text = [dropEnd 13 text] := by
  have absent : ¬ [10] <:+: text := fun isInfix => noBreak (isInfix.subset mem_cons_self)
  have parts : Text.split [10] text = [] ++ [text] := Text.split_of_absent absent
  rw [linesOf_eq parts, if_neg (by simpa using inhabited)]
  rfl

theorem readFields_of_plain (plain : Plain text) (fuel : Nat) (others : List Text) (place : Place) :
    readFields (fuel + 1) others place text = .ok [text] := by
  have noQuote : text.findIdx? (· == 34) = none := by
    rw [List.findIdx?_eq_none_iff]
    intro byte member
    simpa using fun same : byte = 34 => plain.noQuote (same ▸ member)
  unfold readFields
  split
  · exact absurd mem_cons_self plain.noQuote
  · simp only [takeWhile_ne_of_absent plain.noComma, Nat.lt_irrefl, if_false, body_eq,
      dropEnd_of_absent plain.noBreak, noQuote]

theorem readRecord_of_plain (plain : Plain text) : readRecord text = .ok [text] := by
  have lines : linesOf text = [text] := by
    rw [linesOf_of_noBreak plain.inhabited plain.noBreak, dropEnd_eq_self_iff.mpr plain.noReturn]
  have notEmpty : (text.isEmpty || text == [10]) = false := by
    rw [Bool.or_eq_false_iff, isEmpty_eq_false_iff, beq_eq_false_iff_ne]
    refine ⟨plain.inhabited, fun same => plain.noBreak ?_⟩
    rw [same]
    exact mem_cons_self
  unfold readRecord
  simp only [lines, takeWhile_cons, notEmpty, Bool.false_eq_true, if_false, length_nil,
    drop_zero]
  exact readFields_of_plain plain _ _ _

theorem readRecord_eq_self_iff : readRecord text = .ok [text] ↔ Plain text := by
  refine ⟨fun succeeded => ?_, readRecord_of_plain⟩
  obtain ⟨line, others, fuel, place, member, fits, read⟩ := exists_line_of_readRecord succeeded
  have clean := not_mem_body_of_mem_linesOf member
  rw [flatten_cons, length_append] at fits
  rcases readFields_cases read with
    ⟨rest, later, rfl, quoted⟩ | ⟨field, rest, later, found, rfl, more, same⟩ |
    ⟨noComma, noQuote, same⟩
  · -- Two quotes are gone, so the field is shorter than its text.
    have short := ((room_le_of_read fuel).2 _ _ _ _ _ quoted).2
    simp only [room_singleton, length_nil, length_cons] at short fits
    omega
  · rw [← (List.cons.inj same).2] at more
    exact absurd rfl ((room_le_of_read fuel).1 _ _ _ _ more).1
  · have whole : text = body line := (List.cons.inj same).1
    have noBreak : 10 ∉ text := whole ▸ clean
    have inhabited : text ≠ [] := by
      rintro rfl
      cases succeeded
    rw [linesOf_of_noBreak inhabited noBreak, mem_singleton] at member
    have sameLine : body line = line :=
      dropEnd_of_absent (member ▸ fun inside => noBreak (mem_of_mem_dropEnd inside))
    rw [sameLine] at whole noQuote
    subst whole
    exact ⟨inhabited, noComma, noQuote, noBreak, dropEnd_eq_self_iff.mp member.symm⟩

end Csv

end Covenant
