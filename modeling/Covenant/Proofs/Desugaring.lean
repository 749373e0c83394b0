import Covenant.Condition.Basic
import Covenant.Proofs.Completeness
import Covenant.Proofs.Splitting

/-!
# Removing sugar

Words end at every byte that is not part of one, so naming returns works on both sides of such a
byte separately; so does spelling out backticks on both sides of a byte that is none.
-/

set_option autoImplicit false

namespace Covenant.Condition

open List

variable {part mark source : Text} {mode : Mode}

variable {before : Bool} {byte stop : UInt8} {front rest text : Text}

/-!
## The word `return`
-/

theorem returnAt_iff :
    returnAt before text = true ↔
      before = false ∧ ∃ rest, text = returnWord ++ rest ∧ rest.head?.any isWordByte = false := by
  simp only [returnAt, Bool.and_eq_true, Bool.not_eq_true', Text.startsWith_iff]
  constructor
  · rintro ⟨⟨outside, rest, rfl⟩, ends⟩
    rw [drop_left] at ends
    exact ⟨outside, rest, rfl, ends⟩
  · rintro ⟨outside, rest, rfl, ends⟩
    refine ⟨⟨outside, prefix_append _ _⟩, ?_⟩
    rw [drop_left]
    exact ends

theorem isWordByte_of_mem_returnWord : ∀ byte ∈ returnWord, isWordByte byte = true :=
  Text.forall_mem rfl

theorem isWordByte_of_mem_returnName : ∀ byte ∈ returnName, isWordByte byte = true :=
  Text.forall_mem rfl

theorem not_mem_of_isWordByte (word : ∀ byte ∈ part, isWordByte byte = true)
    (ends : isWordByte stop = false) : stop ∉ part := by
  intro member
  rw [word stop member] at ends
  cases ends

theorem returnAt_append_cons (ends : isWordByte stop = false) :
    returnAt before (front ++ stop :: rest) = returnAt before front := by
  have apart := not_mem_of_isWordByte isWordByte_of_mem_returnWord ends
  rw [Bool.eq_iff_iff, returnAt_iff, returnAt_iff]
  refine and_congr_right fun _ => ?_
  constructor
  · rintro ⟨tail, split, tailEnds⟩
    have isPrefix : returnWord <+: front ++ stop :: rest := ⟨tail, split.symm⟩
    obtain ⟨more, rfl⟩ := (Text.prefix_append_cons apart).mp isPrefix
    refine ⟨more, rfl, ?_⟩
    rw [append_assoc] at split
    cases more with
    | nil => rfl
    | cons first others =>
      rw [← append_cancel_left split] at tailEnds
      exact tailEnds
  · rintro ⟨more, rfl, moreEnds⟩
    refine ⟨more ++ stop :: rest, append_assoc _ _ _, ?_⟩
    cases more with
    | nil => simpa using ends
    | cons first others => exact moreEnds

theorem returnAt_cons (ends : isWordByte stop = false) :
    returnAt before (stop :: rest) = false := by
  rw [← nil_append (stop :: rest), returnAt_append_cons ends]
  cases before <;> rfl

theorem nameReturns_found (found : returnAt before (returnWord ++ rest) = true) :
    nameReturns before 0 (returnWord ++ rest) = returnName ++ nameReturns true 0 rest := by
  change nameReturns before 0 (114 :: _) = _
  rw [nameReturns]
  exact if_pos found

theorem nameReturns_byte (absent : returnAt before (byte :: rest) = false) :
    nameReturns before 0 (byte :: rest) = byte :: nameReturns (isWordByte byte) 0 rest := by
  rw [nameReturns, if_neg (by rw [absent]; decide)]

theorem nameReturns_letters {letters : Text} (isWord : ∀ byte ∈ letters, isWordByte byte = true)
    (rest : Text) : nameReturns true 0 (letters ++ rest) = letters ++ nameReturns true 0 rest := by
  induction letters with
  | nil => rfl
  | cons first others ih =>
    rw [forall_mem_cons] at isWord
    rw [cons_append, nameReturns_byte rfl, isWord.1, ih isWord.2, cons_append]

/-- Texts follow the words: nothing is left, the word `return` comes next, or any other byte. -/
theorem return_induction {motive : Bool → Text → Prop} (nil : ∀ before, motive before [])
    (found : ∀ before rest, returnAt before (returnWord ++ rest) = true → motive true rest →
      motive before (returnWord ++ rest))
    (byte : ∀ before byte rest, returnAt before (byte :: rest) = false →
      motive (isWordByte byte) rest → motive before (byte :: rest))
    (before : Bool) (text : Text) : motive before text := by
  induction length : text.length using Nat.strongRecOn generalizing before text with
  | ind size ih =>
    cases text with
    | nil => exact nil before
    | cons first others =>
      cases here : returnAt before (first :: others) with
      | true =>
        obtain ⟨_, rest, split, _⟩ := returnAt_iff.mp here
        rw [split] at here ⊢
        refine found before rest here (ih rest.length ?_ true rest rfl)
        rw [← length, split, length_append]
        exact Nat.lt_add_of_pos_left (by decide)
      | false =>
        refine byte before first others here (ih others.length ?_ _ others rfl)
        rw [← length]
        exact Nat.lt_succ_self _

theorem nameReturns_append_cons (ends : isWordByte stop = false) (before : Bool)
    (front rest : Text) :
    nameReturns before 0 (front ++ stop :: rest) =
      nameReturns before 0 front ++ stop :: nameReturns false 0 rest := by
  induction before, front using return_induction with
  | nil before =>
    rw [nil_append, nameReturns_byte (returnAt_cons ends), ends]
    rfl
  | found before front here ih =>
    have still : returnAt before (returnWord ++ (front ++ stop :: rest)) = true := by
      rw [← append_assoc, returnAt_append_cons ends, here]
    rw [append_assoc, nameReturns_found still, nameReturns_found here, ih,
      append_assoc]
  | byte before byte front absent ih =>
    have still : returnAt before (byte :: (front ++ stop :: rest)) = false := by
      rw [← cons_append, returnAt_append_cons ends, absent]
    rw [cons_append, nameReturns_byte still, nameReturns_byte absent, ih, cons_append]

theorem findReturn?_append_cons (ends : isWordByte stop = false) (before : Bool)
    (front rest : Text) :
    findReturn? before (front ++ stop :: rest) = none ↔
      findReturn? before front = none ∧ findReturn? false rest = none := by
  induction front generalizing before with
  | nil =>
    simp [findReturn?, returnAt_cons ends, ends]
  | cons byte others ih =>
    have same : returnAt before (byte :: (others ++ stop :: rest)) =
        returnAt before (byte :: others) := by
      rw [← cons_append, returnAt_append_cons ends]
    rw [cons_append, findReturn?, findReturn?, same]
    cases returnAt before (byte :: others) <;> simp [ih]

/-- A mark without word bytes keeps the words on both sides apart. -/
theorem nameReturns_marked (inhabited : mark ≠ []) (noWord : ∀ byte ∈ mark, isWordByte byte = false)
    (before : Bool) (front rest : Text) :
    nameReturns before 0 (front ++ (mark ++ rest)) =
      nameReturns before 0 front ++ (mark ++ nameReturns false 0 rest) := by
  induction mark generalizing before front with
  | nil => exact absurd rfl inhabited
  | cons first others ih =>
    rw [forall_mem_cons] at noWord
    rw [cons_append, nameReturns_append_cons noWord.1]
    cases others with
    | nil => rfl
    | cons second others =>
      rw [← nil_append (second :: others ++ rest),
        ih (cons_ne_nil _ _) noWord.2 false []]
      rfl

theorem findReturn?_marked (inhabited : mark ≠ []) (noWord : ∀ byte ∈ mark, isWordByte byte = false)
    (before : Bool) (front rest : Text) :
    findReturn? before (front ++ (mark ++ rest)) = none ↔
      findReturn? before front = none ∧ findReturn? false rest = none := by
  induction mark generalizing before front with
  | nil => exact absurd rfl inhabited
  | cons first others ih =>
    rw [forall_mem_cons] at noWord
    rw [cons_append, findReturn?_append_cons noWord.1]
    cases others with
    | nil => rfl
    | cons second others =>
      rw [← nil_append (second :: others ++ rest),
        ih (cons_ne_nil _ _) noWord.2 false []]
      exact and_congr_right fun _ => and_iff_right rfl

theorem nameReturns_of_findReturn?_eq_none (none : findReturn? before text = .none) :
    nameReturns before 0 text = text := by
  induction text generalizing before with
  | nil => rfl
  | cons byte rest ih =>
    rw [findReturn?] at none
    cases here : returnAt before (byte :: rest) with
    | true => simp [here] at none
    | false =>
      rw [here] at none
      rw [nameReturns_byte here, ih (by simpa using none)]

theorem mem_nameReturns_iff (ends : isWordByte stop = false) (before : Bool) (text : Text) :
    stop ∈ nameReturns before 0 text ↔ stop ∈ text := by
  induction before, text using return_induction with
  | nil => exact Iff.rfl
  | found before rest here ih =>
    have inWord := not_mem_of_isWordByte isWordByte_of_mem_returnWord ends
    have inName := not_mem_of_isWordByte isWordByte_of_mem_returnName ends
    simp [nameReturns_found here, ih, inWord, inName]
  | byte before byte rest absent ih =>
    rw [nameReturns_byte absent, mem_cons, mem_cons, ih]

theorem prefix_nameReturns_iff (noWord : ∀ byte ∈ part, isWordByte byte = false) (before : Bool)
    (text : Text) : part <+: nameReturns before 0 text ↔ part <+: text := by
  induction part generalizing before text with
  | nil => exact iff_of_true nil_prefix nil_prefix
  | cons first others ih =>
    rw [forall_mem_cons] at noWord
    cases text with
    | nil => exact Iff.rfl
    | cons byte rest =>
      cases here : returnAt before (byte :: rest) with
      | false =>
        rw [nameReturns_byte here, cons_prefix_cons, cons_prefix_cons,
          ih noWord.2]
      | true =>
        obtain ⟨_, tail, split, _⟩ := returnAt_iff.mp here
        rw [split] at here ⊢
        rw [nameReturns_found here]
        -- Both texts begin with a letter or an underscore.
        refine iff_of_false (fun isPrefix => ?_) fun isPrefix => ?_
        · obtain ⟨rfl, _⟩ := cons_prefix_cons.mp isPrefix
          cases noWord.1
        · obtain ⟨rfl, _⟩ := cons_prefix_cons.mp isPrefix
          cases noWord.1

theorem infix_nameReturns_iff (inhabited : part ≠ [])
    (noWord : ∀ byte ∈ part, isWordByte byte = false) (before : Bool) (text : Text) :
    part <:+: nameReturns before 0 text ↔ part <:+: text := by
  have pass {word : Text} (isWord : ∀ byte ∈ word, isWordByte byte = true) (rest : Text) :
      part <:+: word ++ rest ↔ part <:+: rest := by
    induction word with
    | nil => rfl
    | cons first others ih =>
      rw [forall_mem_cons] at isWord
      have apart : first ∉ part := by
        intro member
        rw [noWord first member] at isWord
        cases isWord.1
      rw [cons_append, ← nil_append (first :: _), Text.infix_append_cons apart,
        infix_nil, ih isWord.2]
      exact or_iff_right inhabited
  induction before, text using return_induction with
  | nil => exact Iff.rfl
  | found before rest here ih =>
    rw [nameReturns_found here, pass isWordByte_of_mem_returnName,
      pass isWordByte_of_mem_returnWord]
    exact ih
  | byte before byte rest absent ih =>
    rw [nameReturns_byte absent, infix_cons_iff, infix_cons_iff,
      ← nameReturns_byte absent, prefix_nameReturns_iff noWord]
    exact or_congr_right ih

/-!
## Backticks
-/

def runLengths (current : Nat) : Text → List Nat
  | [] => if current = 0 then [] else [current]
  | byte :: rest =>
    if byte = backtick then runLengths (current + 1) rest
    else if current = 0 then runLengths 0 rest
    else current :: runLengths 0 rest

theorem map_backtickRuns (offset current : Nat) (text : Text) :
    (backtickRuns offset current text).map Prod.snd = runLengths current text := by
  induction text generalizing offset current with
  | nil =>
    rw [backtickRuns, runLengths]
    split <;> rfl
  | cons byte rest ih =>
    rw [backtickRuns, runLengths]
    split
    · exact ih _ _
    · split
      · exact ih _ _
      · exact congrArg (current :: ·) (ih _ _)

theorem runLengths_append_cons (other : stop ≠ backtick) (current : Nat) (front rest : Text) :
    runLengths current (front ++ stop :: rest) = runLengths current front ++ runLengths 0 rest := by
  induction front generalizing current with
  | nil =>
    simp only [nil_append, runLengths, if_neg other]
    split <;> rfl
  | cons byte others ih =>
    rw [cons_append, runLengths, runLengths, ih, ih]
    split
    · rfl
    · split <;> rfl

theorem spellBackticks_append_cons (other : stop ≠ backtick) (front rest : Text) :
    spellBackticks (front ++ stop :: rest) =
      spellBackticks front ++ stop :: spellBackticks rest := by
  have one : stop ∉ [backtick] := by simpa using other
  have two : stop ∉ [backtick, backtick] := by simpa using other
  unfold spellBackticks
  rw [Text.replace_append_cons (by decide) two, Text.replace_append_cons (by decide) one]

theorem spellBackticks_cons (other : stop ≠ backtick) (rest : Text) :
    spellBackticks (stop :: rest) = stop :: spellBackticks rest :=
  spellBackticks_append_cons other [] rest

theorem spellBackticks_of_not_mem (none : backtick ∉ text) : spellBackticks text = text := by
  induction text with
  | nil => rfl
  | cons byte rest ih =>
    rw [mem_cons, not_or] at none
    rw [spellBackticks_cons (Ne.symm none.1), ih none.2]

theorem mem_spellBackticks_iff (other : byte ≠ backtick) (notSingle : byte ∉ backtickSuffix)
    (notDouble : byte ∉ doubleBacktickSuffix) (text : Text) :
    byte ∈ spellBackticks text ↔ byte ∈ text := by
  have one : byte ∉ [backtick] := by simpa using other
  have two : byte ∉ [backtick, backtick] := by simpa using other
  unfold spellBackticks
  rw [Text.mem_replace_iff (by decide) one notSingle,
    Text.mem_replace_iff (by decide) two notDouble]

/-!
## Frames
-/

def framed (first middle second ending : Text) : Text :=
  40 :: (first ++ 41 :: (middle ++ 40 :: (second ++ 41 :: ending)))

theorem implicationText_eq_framed (premise consequence : Text) :
    implicationText premise consequence =
      framed consequence " if " premise " else True" := by
  change [40] ++ consequence ++ (41 :: (Text.ofString " if " ++ [40])) ++ premise
    ++ 41 :: " else True" = _
  simp only [framed, append_assoc, cons_append, nil_append]

def conjunctionText (left right : Text) : Text :=
  "(" ++ left ++ ") and (" ++ right ++ ")"

theorem conjunctionText_eq_framed (left right : Text) :
    conjunctionText left right = framed left " and " right [] := by
  change [40] ++ left ++ (41 :: (Text.ofString " and " ++ [40])) ++ right ++ [41] = _
  simp only [framed, append_assoc, cons_append, nil_append]

section

variable {first middle second ending part : Text}

theorem mem_framed_iff (notOpening : byte ≠ 40) (notClosing : byte ≠ 41) (notMiddle : byte ∉ middle)
    (notEnding : byte ∉ ending) :
    byte ∈ framed first middle second ending ↔ byte ∈ first ∨ byte ∈ second := by
  simp [framed, notOpening, notClosing, notMiddle, notEnding]

theorem infix_framed_iff (inhabited : part ≠ []) (notOpening : 40 ∉ part) (notClosing : 41 ∉ part)
    (notMiddle : ¬ part <:+: middle) (notEnding : ¬ part <:+: ending) :
    part <:+: framed first middle second ending ↔ part <:+: first ∨ part <:+: second := by
  rw [framed, ← nil_append (40 :: _), Text.infix_append_cons notOpening,
    Text.infix_append_cons notClosing, Text.infix_append_cons notOpening,
    Text.infix_append_cons notClosing, infix_nil]
  simp only [inhabited, notMiddle, notEnding, false_or, or_false]

theorem runLengths_framed (notMiddle : runLengths 0 middle = [])
    (notEnding : runLengths 0 ending = []) :
    runLengths 0 (framed first middle second ending) =
      runLengths 0 first ++ runLengths 0 second := by
  rw [framed, ← nil_append (40 :: _), runLengths_append_cons (by decide),
    runLengths_append_cons (by decide), runLengths_append_cons (by decide),
    runLengths_append_cons (by decide), notMiddle, notEnding, append_nil]
  rfl

theorem spellBackticks_framed (notMiddle : backtick ∉ middle) (notEnding : backtick ∉ ending) :
    spellBackticks (framed first middle second ending) =
      framed (spellBackticks first) middle (spellBackticks second) ending := by
  rw [framed, spellBackticks_cons (by decide), spellBackticks_append_cons (by decide),
    spellBackticks_append_cons (by decide), spellBackticks_append_cons (by decide),
    spellBackticks_of_not_mem notMiddle, spellBackticks_of_not_mem notEnding]
  rfl

end

section

variable {premise consequence left right : Text}

theorem spellBackticks_implicationText :
    spellBackticks (implicationText premise consequence) =
      implicationText (spellBackticks premise) (spellBackticks consequence) := by
  rw [implicationText_eq_framed, spellBackticks_framed (by decide) (by decide),
    implicationText_eq_framed]

theorem runLengths_implicationText :
    runLengths 0 (implicationText premise consequence) =
      runLengths 0 consequence ++ runLengths 0 premise := by
  rw [implicationText_eq_framed, runLengths_framed rfl rfl]

theorem arrow_infix_implicationText_iff :
    arrow <:+: implicationText premise consequence ↔
      arrow <:+: consequence ∨ arrow <:+: premise := by
  rw [implicationText_eq_framed]
  exact infix_framed_iff (by decide) (by decide) (by decide) (by decide) (by decide)

theorem spellBackticks_conjunctionText :
    spellBackticks (conjunctionText left right) =
      conjunctionText (spellBackticks left) (spellBackticks right) := by
  rw [conjunctionText_eq_framed, spellBackticks_framed (by decide) (by decide),
    conjunctionText_eq_framed]

theorem runLengths_conjunctionText :
    runLengths 0 (conjunctionText left right) = runLengths 0 left ++ runLengths 0 right := by
  rw [conjunctionText_eq_framed, runLengths_framed rfl rfl]

theorem arrow_infix_conjunctionText_iff :
    arrow <:+: conjunctionText left right ↔ arrow <:+: left ∨ arrow <:+: right := by
  rw [conjunctionText_eq_framed]
  exact infix_framed_iff (by decide) (by decide) (by decide) (by decide) (by decide)

end

/-!
## Implications
-/

theorem arrow_infix_doubleArrow : arrow <:+: doubleArrow := ⟨[60], [], rfl⟩

/-- What spelling out implications makes of a text. -/
inductive Spelled : Text → Text → Prop where
  | same {plain : Text} : ¬ arrow <:+: plain → Spelled plain plain
  | implied {premise consequence} : ¬ doubleArrow <:+: premise ++ (arrow ++ consequence) →
      Spelled (premise ++ (arrow ++ consequence)) (implicationText premise consequence)
  | equivalent {left right} :
      Spelled (left ++ (doubleArrow ++ right))
        (conjunctionText (implicationText left right) (implicationText right left))

theorem split_pair {separator left right : Text} (inhabited : separator ≠ [])
    (pieces : Text.split separator text = [left, right]) : text = left ++ (separator ++ right) := by
  have joined := Text.join_split inhabited text
  rw [pieces] at joined
  rw [← joined]
  exact append_assoc _ _ _

theorem spellImplications_spelled {spelled : Text}
    (succeeded : spellImplications text = .ok spelled) : Spelled text spelled := by
  unfold spellImplications at succeeded
  split at succeeded
  · split at succeeded
    · rename_i left right pieces
      dsimp only at succeeded
      split at succeeded
      · cases succeeded
      · cases succeeded
        rw [split_pair (by decide) pieces]
        exact .equivalent
    · cases succeeded
  · rename_i noDouble
    rw [Text.contains_iff] at noDouble
    split at succeeded
    · split at succeeded
      · rename_i premise consequence pieces
        cases succeeded
        rw [split_pair (by decide) pieces] at noDouble ⊢
        exact .implied noDouble
      · cases succeeded
    · rename_i noArrow
      cases succeeded
      exact .same fun occurs => noArrow (Text.contains_iff.mpr occurs)

theorem spellImplications_of_noArrow (noArrow : ¬ arrow <:+: text) :
    spellImplications text = .ok text := by
  have noDouble : ¬ doubleArrow <:+: text := fun occurs =>
    noArrow (arrow_infix_doubleArrow.trans occurs)
  rw [← Text.contains_iff] at noArrow noDouble
  rw [spellImplications, if_neg noDouble, if_neg noArrow]

section

variable {left right : Text} (noLeft : ¬ arrow <:+: left) (noRight : ¬ arrow <:+: right)

include noLeft noRight

/-- One arrow joins two texts, unless a byte `<` before it makes it another sign. -/
theorem spellImplications_arrow (noLess : ∀ front, left ≠ front ++ [60]) :
    spellImplications (left ++ (arrow ++ right)) = .ok (implicationText left right) := by
  have unbordered : Text.Unbordered arrow := by decide
  have noDouble : ¬ Text.contains (left ++ (arrow ++ right)) doubleArrow = true := by
    rw [Text.contains_iff]
    rintro ⟨front, rest, split⟩
    -- The longer sign ends with the arrow, which occurs only after `left`.
    have again : left ++ (arrow ++ right) = (front ++ [60]) ++ (arrow ++ rest) := by
      rw [← split]
      simp only [append_assoc]
      rfl
    exact noLess front (unbordered.unique noLeft noRight again).symm
  have found : Text.contains (left ++ (arrow ++ right)) arrow = true :=
    Text.contains_iff.mpr ⟨left, right, append_assoc _ _ _⟩
  rw [spellImplications, if_neg noDouble, if_pos found,
    Text.split_of_once (by decide) unbordered noLeft noRight]

theorem spellImplications_doubleArrow :
    spellImplications (left ++ (doubleArrow ++ right)) =
      .ok (conjunctionText (implicationText left right) (implicationText right left)) := by
  have found : Text.contains (left ++ (doubleArrow ++ right)) doubleArrow = true :=
    Text.contains_iff.mpr ⟨left, right, append_assoc _ _ _⟩
  have noArrow : ¬ Text.contains
      (conjunctionText (implicationText left right) (implicationText right left)) arrow = true := by
    rw [Text.contains_iff, arrow_infix_conjunctionText_iff, arrow_infix_implicationText_iff,
      arrow_infix_implicationText_iff]
    simp only [noLeft, noRight, or_self, not_false_eq_true]
  rw [spellImplications, if_pos found,
    Text.split_of_once (by decide) (by decide)
      (fun occurs => noLeft (arrow_infix_doubleArrow.trans occurs))
      (fun occurs => noRight (arrow_infix_doubleArrow.trans occurs))]
  exact if_neg noArrow

end

/-!
## All steps together
-/

theorem backtickRuns_find?_eq_none_iff :
    (backtickRuns 0 0 text).find? (fun run => 2 < run.2) = none ↔
      ∀ length ∈ runLengths 0 text, length ≤ 2 := by
  rw [List.find?_eq_none, ← map_backtickRuns 0 0 text, forall_mem_map]
  simp

theorem backtickRuns_foldl :
    (backtickRuns 0 0 text).foldl (fun depth run => max depth run.2) 0 =
      (runLengths 0 text).foldl max 0 := by
  rw [← map_backtickRuns 0 0 text, foldl_map]

theorem spellReturns_eq_ok_iff {named : Text} :
    spellReturns mode source = .ok named ↔
      named = nameReturns false 0 source ∧
        (mode = .precondition → backtick ∉ source ∧ findReturn? false source = none) := by
  cases mode with
  | postcondition =>
    rw [spellReturns, Except.ok.injEq, eq_comm]
    exact (and_iff_left nofun).symm
  | precondition =>
    rw [spellReturns, ← idxOf?_eq_none_iff]
    cases source.idxOf? backtick with
    | some offset => simp
    | none =>
      cases none : findReturn? false source with
      | some offset => simp
      | none =>
        rw [nameReturns_of_findReturn?_eq_none none]
        simp [eq_comm]

theorem spellReturns_marked {left right leftNamed rightNamed : Text} (inhabited : mark ≠ [])
    (noWord : ∀ byte ∈ mark, isWordByte byte = false) (noBacktick : backtick ∉ mark)
    (leftSpelled : spellReturns mode left = .ok leftNamed)
    (rightSpelled : spellReturns mode right = .ok rightNamed) :
    spellReturns mode (left ++ (mark ++ right)) = .ok (leftNamed ++ (mark ++ rightNamed)) := by
  obtain ⟨rfl, leftAllowed⟩ := spellReturns_eq_ok_iff.mp leftSpelled
  obtain ⟨rfl, rightAllowed⟩ := spellReturns_eq_ok_iff.mp rightSpelled
  refine spellReturns_eq_ok_iff.mpr ⟨(nameReturns_marked inhabited noWord _ _ _).symm, ?_⟩
  intro isPrecondition
  obtain ⟨leftPlain, leftNone⟩ := leftAllowed isPrecondition
  obtain ⟨rightPlain, rightNone⟩ := rightAllowed isPrecondition
  refine ⟨?_, (findReturn?_marked inhabited noWord _ _ _).mpr ⟨leftNone, rightNone⟩⟩
  simp only [mem_append, leftPlain, noBacktick, rightPlain, or_self, not_false_eq_true]

theorem desugar_eq_ok_iff {plain : Plain} :
    desugar mode source = .ok plain ↔
      ∃ named spelled, spellReturns mode source = .ok named ∧
        spellImplications named = .ok spelled ∧ (∀ length ∈ runLengths 0 spelled, length ≤ 2) ∧
        plain = ⟨spellBackticks spelled, (runLengths 0 spelled).foldl max 0⟩ := by
  rw [desugar, bind_eq_ok_iff]
  refine exists_congr fun named => ?_
  rw [bind_eq_ok_iff, ← exists_and_left]
  refine exists_congr fun spelled => and_congr_right fun _ => ?_
  rw [mapError_eq_ok_iff, ← backtickRuns_find?_eq_none_iff, ← backtickRuns_foldl]
  refine and_congr_right fun _ => ?_
  dsimp only
  cases (backtickRuns 0 0 spelled).find? (fun run => 2 < run.2) with
  | none =>
    constructor
    · intro succeeded
      exact ⟨rfl, (Except.ok.inj succeeded).symm⟩
    · rintro ⟨_, rfl⟩
      rfl
  | some run =>
    constructor
    · intro succeeded
      cases succeeded
    · rintro ⟨impossible, _⟩
      cases impossible

theorem compile_eq_ok_iff {condition : Condition} :
    compile mode source = .ok condition ↔
      ∃ plain expr, desugar mode source = .ok plain ∧ parse plain.text = .ok expr ∧
        condition = ⟨source, plain.text, plain.depth, expr⟩ := by
  unfold compile
  rw [bind_eq_ok_iff]
  refine exists_congr fun plain => ?_
  rw [bind_eq_ok_iff, mapError_eq_ok_iff, ← exists_and_left]
  refine exists_congr fun expr => and_congr_right fun _ => and_congr_right fun _ => ?_
  exact ⟨fun compiled => (Except.ok.inj compiled).symm, fun same => congrArg _ same.symm⟩

end Covenant.Condition
