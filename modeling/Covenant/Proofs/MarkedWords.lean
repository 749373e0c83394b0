import Covenant.Proofs.Implication

/-!
# Words and their marks

Removing the sugar goes on separately on both sides of every byte that is neither a word byte nor a
backtick. So the longest runs of such bytes are spelled out one by one, and an implication only
moves them.
-/

set_option autoImplicit false

namespace Covenant.Condition

open List

/-!
## Runs of words and marks
-/

def isMarkedByte (byte : UInt8) : Bool := isWordByte byte || byte == backtick

/-- The longest runs of marked words, with an empty one between neighbouring other bytes. -/
def markedWords (text : Text) : List Text := text.splitOnP (fun byte => !isMarkedByte byte)

def marked (word : Text) (place : Nat) : Text := word ++ List.replicate place backtick

def spellWord (run : Text) : Text := spellBackticks (nameReturns false 0 run)

section

variable {stop : UInt8} {front rest text word : Text}

theorem isWordByte_of_isMarkedByte (other : isMarkedByte stop = false) :
    isWordByte stop = false ∧ stop ≠ backtick := by
  rw [isMarkedByte, Bool.or_eq_false_iff, beq_eq_false_iff_ne] at other
  exact other

theorem markedWords_append_cons (other : isMarkedByte stop = false) (front rest : Text) :
    markedWords (front ++ stop :: rest) = markedWords front ++ markedWords rest :=
  splitOnP_append_cons front rest (by rw [other]; rfl)

theorem markedWords_nil : markedWords [] = [[]] := rfl

theorem markedWords_of_forall (each : ∀ byte ∈ word, isMarkedByte byte = true) :
    markedWords word = [word] :=
  splitOnP_eq_singleton fun byte member => by rw [each byte member]; rfl

theorem marked_induction {motive : Text → Prop}
    (run : ∀ word, (∀ byte ∈ word, isMarkedByte byte = true) → motive word)
    (stop : ∀ front stop rest, isMarkedByte stop = false → motive front → motive rest →
      motive (front ++ stop :: rest))
    (text : Text) : motive text := by
  induction length : text.length using Nat.strongRecOn generalizing text with
  | ind size ih =>
    by_cases each : ∀ byte ∈ text, isMarkedByte byte = true
    · exact run text each
    · obtain ⟨byte, member, other⟩ := by simpa using each
      obtain ⟨front, rest, rfl⟩ := append_of_mem member
      rw [length_append, length_cons] at length
      exact stop front byte rest other (ih front.length (by omega) front rfl)
        (ih rest.length (by omega) rest rfl)

/-- A change that goes on separately on both sides of other bytes changes run by run. -/
theorem markedWords_map {change : Text → Text}
    (separate : ∀ stop front rest, isMarkedByte stop = false →
      change (front ++ stop :: rest) = change front ++ stop :: change rest)
    (keeps : ∀ byte text, isMarkedByte byte = false → byte ∈ change text → byte ∈ text)
    (text : Text) : markedWords (change text) = (markedWords text).map change := by
  induction text using marked_induction with
  | run word each =>
    have changed : ∀ byte ∈ change word, isMarkedByte byte = true := by
      intro byte member
      cases other : isMarkedByte byte with
      | true => rfl
      | false =>
        rw [each byte (keeps byte word other member)] at other
        cases other
    rw [markedWords_of_forall each, markedWords_of_forall changed]
    rfl
  | stop front stop rest other frontIh restIh =>
    rw [separate stop front rest other, markedWords_append_cons other,
      markedWords_append_cons other, frontIh, restIh, map_append]

theorem markedWords_nameReturns (text : Text) :
    markedWords (nameReturns false 0 text) = (markedWords text).map (nameReturns false 0) := by
  refine markedWords_map ?_ ?_ text
  · intro stop front rest other
    exact nameReturns_append_cons (isWordByte_of_isMarkedByte other).1 false front rest
  · intro byte text other
    exact (mem_nameReturns_iff (isWordByte_of_isMarkedByte other).1 false text).mp

theorem markedWords_spellBackticks (text : Text) :
    markedWords (spellBackticks text) = (markedWords text).map spellBackticks := by
  refine markedWords_map ?_ ?_ text
  · intro stop front rest other
    exact spellBackticks_append_cons (isWordByte_of_isMarkedByte other).2 front rest
  · intro byte text other
    obtain ⟨noWord, noBacktick⟩ := isWordByte_of_isMarkedByte other
    exact (mem_spellBackticks_iff noBacktick
      (not_mem_of_isWordByte (Text.forall_mem rfl) noWord)
      (not_mem_of_isWordByte (Text.forall_mem rfl) noWord) text).mp

/-- The runs that spelling out an implication may add. -/
def connectives : List Text := [[], "if", "else", "True", "and"]

theorem ne_nil_of_not_mem_connectives (other : word ∉ connectives) : word ≠ [] := by
  intro empty
  rw [empty] at other
  exact other mem_cons_self

theorem backtick_not_mem_of_mem_connectives (connective : word ∈ connectives) :
    backtick ∉ word :=
  (by decide : ∀ part ∈ connectives, backtick ∉ part) word connective

theorem mem_markedWords_signed {sign left right : Text} (inhabited : sign ≠ [])
    (signs : ∀ byte ∈ sign, isMarkedByte byte = false) (nonempty : word ≠ []) :
    word ∈ markedWords (left ++ (sign ++ right)) ↔
      word ∈ markedWords left ∨ word ∈ markedWords right := by
  have pass {others : Text} (signs : ∀ byte ∈ others, isMarkedByte byte = false) :
      word ∈ markedWords (others ++ right) ↔ word ∈ markedWords right := by
    induction others with
    | nil => rfl
    | cons first others ih =>
      rw [forall_mem_cons] at signs
      rw [cons_append, ← nil_append (first :: _), markedWords_append_cons signs.1,
        markedWords_nil, singleton_append, mem_cons, ih signs.2]
      exact or_iff_right nonempty
  cases sign with
  | nil => exact absurd rfl inhabited
  | cons first others =>
    rw [forall_mem_cons] at signs
    rw [cons_append, markedWords_append_cons signs.1, mem_append, pass signs.2]

theorem mem_markedWords_framed {first middle second ending : Text} (other : word ∉ connectives)
    (middleWords : markedWords middle ⊆ connectives)
    (endingWords : markedWords ending ⊆ connectives) :
    word ∈ markedWords (framed first middle second ending) ↔
      word ∈ markedWords first ∨ word ∈ markedWords second := by
  have nonempty := ne_nil_of_not_mem_connectives other
  have notMiddle : word ∉ markedWords middle := fun member => other (middleWords member)
  have notEnding : word ∉ markedWords ending := fun member => other (endingWords member)
  rw [framed, ← nil_append (40 :: _), markedWords_append_cons rfl,
    markedWords_append_cons rfl, markedWords_append_cons rfl, markedWords_append_cons rfl,
    markedWords_nil]
  simp only [mem_append, mem_singleton, nonempty, notMiddle, notEnding, false_or,
    or_false]

theorem mem_markedWords_implicationText {premise consequence : Text} (other : word ∉ connectives) :
    word ∈ markedWords (implicationText premise consequence) ↔
      word ∈ markedWords consequence ∨ word ∈ markedWords premise := by
  rw [implicationText_eq_framed]
  exact mem_markedWords_framed other (by decide) (by decide)

theorem mem_markedWords_spelled {spelled : Text} (spells : Spelled text spelled)
    (other : word ∉ connectives) : word ∈ markedWords spelled ↔ word ∈ markedWords text := by
  have nonempty := ne_nil_of_not_mem_connectives other
  cases spells with
  | same _ => exact Iff.rfl
  | implied _ =>
    rw [mem_markedWords_implicationText other,
      mem_markedWords_signed (by decide) (Text.forall_mem rfl) nonempty]
    exact or_comm
  | equivalent =>
    rw [conjunctionText_eq_framed, mem_markedWords_framed other (by decide) (by decide),
      mem_markedWords_implicationText other, mem_markedWords_implicationText other,
      mem_markedWords_signed (by decide) (Text.forall_mem rfl) nonempty]
    exact ⟨fun either => (or_self_iff.mp (either.imp_right Or.symm)).symm,
      fun either => .inr either⟩

end

variable {plain : Plain} {source word : Text}

theorem exists_markedWord_of_desugar (desugared : desugar .postcondition source = .ok plain)
    (member : word ∈ markedWords plain.text) (other : word ∉ connectives) :
    ∃ run ∈ markedWords source, word = spellWord run := by
  obtain ⟨named, spelled, returns, implications, _, rfl⟩ := desugar_eq_ok_iff.mp desugared
  obtain ⟨rfl, _⟩ := spellReturns_eq_ok_iff.mp returns
  rw [markedWords_spellBackticks] at member
  obtain ⟨inner, inside, rfl⟩ := mem_map.mp member
  have otherInner : inner ∉ connectives := by
    intro connective
    rw [spellBackticks_of_not_mem (backtick_not_mem_of_mem_connectives connective)] at other
    exact other connective
  rw [mem_markedWords_spelled (spellImplications_spelled implications) otherInner,
    markedWords_nameReturns] at inside
  obtain ⟨run, inSource, rfl⟩ := mem_map.mp inside
  exact ⟨run, inSource, rfl⟩

/-!
## Words with marks
-/

section

variable {word : Text} {place : Nat}

theorem nameReturns_backticks (word : Text) (place : Nat) :
    nameReturns false 0 (marked word place) = marked (nameReturns false 0 word) place := by
  have ticks (count : Nat) : nameReturns false 0 (List.replicate count backtick) =
      List.replicate count backtick := by
    induction count with
    | zero => rfl
    | succ count ih =>
      rw [replicate_succ, nameReturns_byte (returnAt_cons rfl)]
      exact congrArg (backtick :: ·) ih
  cases place with
  | zero => rw [marked, marked, replicate_zero, append_nil, append_nil]
  | succ count =>
    rw [marked, replicate_succ, nameReturns_append_cons rfl, ticks]
    rfl

theorem spellBackticks_append_of_not_mem (none : backtick ∉ word) (rest : Text) :
    spellBackticks (word ++ rest) = word ++ spellBackticks rest := by
  induction word with
  | nil => rfl
  | cons byte others ih =>
    rw [mem_cons, not_or] at none
    rw [cons_append, spellBackticks_cons (Ne.symm none.1), ih none.2, cons_append]

theorem runLengths_append_of_not_mem (none : backtick ∉ word) (rest : Text) :
    runLengths 0 (word ++ rest) = runLengths 0 rest := by
  induction word with
  | nil => rfl
  | cons byte others ih =>
    rw [mem_cons, not_or] at none
    rw [cons_append, runLengths, if_neg (Ne.symm none.1), if_pos rfl, ih none.2]

theorem runLengths_replicate (current place : Nat) :
    runLengths current (List.replicate place backtick) =
      if current + place = 0 then [] else [current + place] := by
  induction place generalizing current with
  | zero => rfl
  | succ count ih =>
    rw [replicate_succ, runLengths, if_pos rfl, ih, Nat.add_right_comm, Nat.add_assoc]

theorem backtick_not_mem_nameReturns (isWord : ∀ byte ∈ word, isWordByte byte = true) :
    backtick ∉ nameReturns false 0 word := by
  rw [mem_nameReturns_iff rfl]
  exact not_mem_of_isWordByte isWord rfl

theorem runLengths_marked (isWord : ∀ byte ∈ word, isWordByte byte = true) (place : Nat) :
    runLengths 0 (marked (nameReturns false 0 word) place) =
      if place = 0 then [] else [place] := by
  rw [marked, runLengths_append_of_not_mem (backtick_not_mem_nameReturns isWord),
    runLengths_replicate, Nat.zero_add]

variable {length : Nat}

theorem mem_runLengths_of_markedWord {text run : Text} (member : run ∈ markedWords text)
    (inRun : length ∈ runLengths 0 run) : length ∈ runLengths 0 text := by
  induction text using marked_induction with
  | run word each =>
    rw [markedWords_of_forall each, mem_singleton] at member
    rwa [member] at inRun
  | stop front stop rest other frontIh restIh =>
    rw [markedWords_append_cons other, mem_append] at member
    rw [runLengths_append_cons (isWordByte_of_isMarkedByte other).2, mem_append]
    exact member.imp frontIh restIh

theorem le_foldl_max {lengths : List Nat} (member : length ∈ lengths) :
    length ≤ lengths.foldl max 0 := by
  obtain ⟨before, after, rfl⟩ := append_of_mem member
  rw [foldl_max_append, ← singleton_append, foldl_max_append]
  simp only [foldl_cons, foldl_nil]
  omega

end

/-- A postcondition refers to as many other calls as the longest mark in it counts. -/
theorem mark_le_depth {place : Nat} (desugared : desugar .postcondition source = .ok plain)
    (isWord : ∀ byte ∈ word, isWordByte byte = true)
    (member : marked word place ∈ markedWords source) : place ≤ plain.depth := by
  by_cases unmarked : place = 0
  · rw [unmarked]
    exact Nat.zero_le _
  obtain ⟨named, spelled, returns, implications, _, rfl⟩ := desugar_eq_ok_iff.mp desugared
  obtain ⟨rfl, _⟩ := spellReturns_eq_ok_iff.mp returns
  have inNamed : marked (nameReturns false 0 word) place ∈
      markedWords (nameReturns false 0 source) := by
    rw [markedWords_nameReturns, ← nameReturns_backticks]
    exact mem_map_of_mem member
  have tick : backtick ∈ marked (nameReturns false 0 word) place :=
    mem_append_right _ (mem_replicate.mpr ⟨unmarked, rfl⟩)
  have other : marked (nameReturns false 0 word) place ∉ connectives := fun connective =>
    backtick_not_mem_of_mem_connectives connective tick
  have inSpelled := (mem_markedWords_spelled (spellImplications_spelled implications) other).mpr
    inNamed
  refine le_foldl_max (mem_runLengths_of_markedWord inSpelled ?_)
  rw [runLengths_marked isWord, if_neg unmarked]
  exact mem_singleton_self place

theorem spellWord_marked (isWord : ∀ byte ∈ word, isWordByte byte = true) (place : Nat) :
    spellWord (marked word place) =
      nameReturns false 0 word ++ spellBackticks (List.replicate place backtick) := by
  rw [spellWord, nameReturns_backticks, marked,
    spellBackticks_append_of_not_mem (backtick_not_mem_nameReturns isWord)]

theorem nameReturns_of_ne (isWord : ∀ byte ∈ word, isWordByte byte = true)
    (other : word ≠ returnWord) : nameReturns false 0 word = word := by
  cases word with
  | nil => rfl
  | cons first others =>
    have absent : returnAt false (first :: others) = false := by
      rw [Bool.eq_false_iff]
      intro found
      obtain ⟨_, rest, split, ends⟩ := returnAt_iff.mp found
      cases rest with
      | nil =>
        rw [append_nil] at split
        exact other split
      | cons byte more =>
        rw [split] at isWord
        have isByte := isWord byte (mem_append_right _ mem_cons_self)
        rw [List.head?_cons, Option.any_some, isByte] at ends
        cases ends
    rw [forall_mem_cons] at isWord
    have letters := nameReturns_letters isWord.2 []
    rw [append_nil] at letters
    rw [nameReturns_byte absent, isWord.1, letters]
    exact congrArg (first :: ·) (append_nil others)

theorem backtick_not_mem_spellBackticks (text : Text) : backtick ∉ spellBackticks text := by
  unfold spellBackticks
  generalize Text.replace [backtick, backtick] doubleBacktickSuffix text = half
  induction half using Text.cut_induction (cons_ne_nil backtick []) with
  | nil => nofun
  | found rest ih =>
    rw [Text.replace_append (cons_ne_nil backtick []), mem_append, not_or]
    exact ⟨by decide, ih⟩
  | byte byte rest absent ih =>
    have other : backtick ≠ byte := by
      rintro rfl
      exact absent ⟨rest, rfl⟩
    rw [Text.replace_cons absent, mem_cons, not_or]
    exact ⟨other, ih⟩

end Covenant.Condition
