import Covenant.Text

/-!
# Searching and cutting texts

What splitting and replacing do at each occurrence of a part. A part that has no proper suffix among
its prefixes cannot overlap itself, so where it occurs once it is found there.
-/

set_option autoImplicit false

namespace Covenant.Text

open List

variable {part front rest text : Text} {byte stop : UInt8}

theorem forall_mem {holds : UInt8 → Prop} [DecidablePred holds]
    (all : text.all (fun byte => decide (holds byte)) = true) : ∀ byte ∈ text, holds byte := by
  simpa using all

/-!
## Occurrences
-/

theorem startsWith_iff : startsWith text part = true ↔ part <+: text :=
  isPrefixOf_iff_prefix

theorem contains_iff : contains text part = true ↔ part <:+: text := by
  induction text with
  | nil =>
    rw [contains, find?, infix_nil]
    cases part <;> simp
  | cons byte rest ih =>
    rw [infix_cons_iff, ← ih, ← startsWith_iff, contains, find?, contains]
    cases startsWith (byte :: rest) part <;> simp

theorem prefix_append_cons (apart : stop ∉ part) :
    part <+: front ++ stop :: rest ↔ part <+: front := by
  constructor
  · intro isPrefix
    obtain ⟨tail, split⟩ := isPrefix
    rcases append_eq_append_iff.mp split with ⟨more, rfl, _⟩ | ⟨more, rfl, again⟩
    · exact prefix_append _ _
    · cases more with
      | nil => exact (append_nil front).symm ▸ prefix_rfl
      | cons first others =>
        obtain ⟨rfl, _⟩ := List.cons.inj again
        exact absurd (mem_append_right _ mem_cons_self) apart
  · intro isPrefix
    exact isPrefix.trans (prefix_append _ _)

theorem infix_append_cons (apart : stop ∉ part) :
    part <:+: front ++ stop :: rest ↔ part <:+: front ∨ part <:+: rest := by
  induction front with
  | nil =>
    rw [nil_append, infix_cons_iff, infix_nil]
    refine or_congr_left ?_
    rw [← nil_append (stop :: rest), prefix_append_cons apart, prefix_nil]
  | cons byte others ih =>
    rw [cons_append, infix_cons_iff, ih, ← cons_append, prefix_append_cons apart,
      infix_cons_iff, or_assoc]

def Unbordered (part : Text) : Prop :=
  ∀ length < part.length, 0 < length → (part.drop length).isPrefixOf part = false

instance (part : Text) : Decidable (Unbordered part) :=
  inferInstanceAs (Decidable (∀ length < part.length, _ → _))

/-- An unbordered part that occurs at the front and again later does not overlap itself. -/
theorem Unbordered.apart (unbordered : Unbordered part) (between : Text) {after : Text}
    (twice : part ++ rest = between ++ (part ++ after)) : between = [] ∨ part <+: between := by
  rcases append_eq_append_iff.mp twice with ⟨more, rfl, _⟩ | ⟨more, split, again⟩
  · exact .inr (prefix_append _ _)
  · cases between with
    | nil => exact .inl rfl
    | cons first others =>
      cases more with
      | nil =>
        rw [append_nil] at split
        exact .inr (split ▸ prefix_rfl)
      | cons second more =>
        -- The second occurrence would begin with a proper suffix of the first.
        have overlap := unbordered (first :: others).length
          (by rw [split]; simp) (Nat.succ_pos _)
        have suffix : part.drop (first :: others).length = second :: more := by
          rw [split, drop_left]
        have isPrefix : second :: more <+: part := by
          have common : second :: more <+: part ++ after := ⟨rest, again.symm⟩
          refine prefix_of_prefix_length_le common (prefix_append _ _) ?_
          rw [split, length_append]
          omega
        rw [suffix, isPrefixOf_iff_prefix.mpr isPrefix] at overlap
        cases overlap

/-!
## Splitting and replacing
-/

theorem splitAux_skip (separator raw more : Text) :
    splitAux separator raw.length (raw ++ more) = splitAux separator 0 more := by
  induction raw with
  | nil => rfl
  | cons byte others ih => rw [length_cons, cons_append, splitAux, ih]

theorem split_ne_nil (separator text : Text) :
    ∃ piece pieces, split separator text = piece :: pieces :=
  ⟨_, _, rfl⟩

theorem split_append (inhabited : part ≠ []) :
    split part (part ++ rest) = [] :: split part rest := by
  cases part with
  | nil => exact absurd rfl inhabited
  | cons first others =>
    have found : startsWith (first :: (others ++ rest)) (first :: others) = true :=
      startsWith_iff.mpr (prefix_append (first :: others) rest)
    rw [split, cons_append, splitAux, if_pos found, length_cons, Nat.add_sub_cancel,
      splitAux_skip]
    rfl

theorem split_cons (absent : ¬ part <+: byte :: rest) {piece : Text} {pieces : List Text}
    (others : split part rest = piece :: pieces) :
    split part (byte :: rest) = (byte :: piece) :: pieces := by
  have notFound : ¬ startsWith (byte :: rest) part = true := fun found =>
    absent (startsWith_iff.mp found)
  obtain ⟨same, tails⟩ := List.cons.inj others
  rw [split, splitAux, if_neg notFound]
  dsimp only
  rw [same, tails]

theorem split_of_absent (absent : ¬ part <:+: text) : split part text = [text] := by
  induction text with
  | nil => rfl
  | cons byte rest ih =>
    rw [infix_cons_iff, not_or] at absent
    exact split_cons absent.1 (ih absent.2)

theorem Unbordered.unique (unbordered : Unbordered part) {left right : Text}
    (noLeft : ¬ part <:+: left) (noRight : ¬ part <:+: right)
    (again : left ++ (part ++ right) = front ++ (part ++ rest)) : front = left := by
  rcases append_eq_append_iff.mp again with ⟨more, rfl, later⟩ | ⟨more, rfl, earlier⟩
  · rcases unbordered.apart more later with rfl | ⟨others, rfl⟩
    · exact append_nil left
    · rw [append_assoc] at later
      rw [append_cancel_left later] at noRight
      exact absurd ⟨others, rest, append_assoc _ _ _⟩ noRight
  · rcases unbordered.apart more earlier with rfl | early
    · exact (append_nil front).symm
    · exact absurd (early.isInfix.trans (suffix_append front more).isInfix) noLeft

theorem split_of_once (inhabited : part ≠ []) (unbordered : Unbordered part) {left right : Text}
    (noLeft : ¬ part <:+: left) (noRight : ¬ part <:+: right) :
    split part (left ++ (part ++ right)) = [left, right] := by
  induction left with
  | nil => rw [nil_append, split_append inhabited, split_of_absent noRight]
  | cons byte others ih =>
    have absent : ¬ part <+: byte :: (others ++ (part ++ right)) := by
      rintro ⟨after, split⟩
      rcases unbordered.apart (byte :: others) split with empty | early
      · cases empty
      · exact noLeft early.isInfix
    rw [infix_cons_iff, not_or] at noLeft
    rw [cons_append, split_cons absent (ih noLeft.2)]

/-- Texts follow the cuts: nothing is left, the part comes next, or a byte that does not begin
it. -/
theorem cut_induction (inhabited : part ≠ []) {motive : Text → Prop} (nil : motive [])
    (found : ∀ rest, motive rest → motive (part ++ rest))
    (byte : ∀ byte rest, ¬ part <+: byte :: rest → motive rest → motive (byte :: rest))
    (text : Text) : motive text := by
  induction length : text.length using Nat.strongRecOn generalizing text with
  | ind size ih =>
    cases text with
    | nil => exact nil
    | cons first others =>
      by_cases isPrefix : part <+: first :: others
      · obtain ⟨rest, split⟩ := isPrefix
        have shorter : rest.length < size := by
          have := length_pos_iff.mpr inhabited
          rw [← length, ← split, length_append]
          omega
        rw [← split]
        exact found rest (ih rest.length shorter rest rfl)
      · refine byte first others isPrefix (ih others.length ?_ others rfl)
        rw [← length]
        exact Nat.lt_succ_self _

theorem join_split (inhabited : part ≠ []) (text : Text) : join part (split part text) = text := by
  induction text using cut_induction inhabited with
  | nil => rfl
  | found rest ih =>
    obtain ⟨piece, pieces, same⟩ := split_ne_nil part rest
    rw [split_append inhabited, same, join, ← same, ih, nil_append]
    exact fun absurd => nomatch absurd
  | byte byte rest absent ih =>
    obtain ⟨piece, pieces, same⟩ := split_ne_nil part rest
    rw [split_cons absent same]
    rw [same] at ih
    cases pieces with
    | nil => exact congrArg (byte :: ·) ih
    | cons next others => exact congrArg (byte :: ·) ih

section

variable {replacement : Text}

theorem replace_append (inhabited : part ≠ []) :
    replace part replacement (part ++ rest) = replacement ++ replace part replacement rest := by
  obtain ⟨piece, pieces, same⟩ := split_ne_nil part rest
  rw [replace, replace, split_append inhabited, same]
  rfl

theorem replace_cons (absent : ¬ part <+: byte :: rest) :
    replace part replacement (byte :: rest) = byte :: replace part replacement rest := by
  obtain ⟨piece, pieces, same⟩ := split_ne_nil part rest
  rw [replace, replace, split_cons absent same, same]
  cases pieces <;> rfl

theorem replace_append_cons (inhabited : part ≠ []) (apart : stop ∉ part) (front rest : Text) :
    replace part replacement (front ++ stop :: rest) =
      replace part replacement front ++ stop :: replace part replacement rest := by
  induction front using cut_induction inhabited with
  | nil =>
    refine replace_cons fun isPrefix => inhabited ?_
    rw [← nil_append (stop :: rest), prefix_append_cons apart, prefix_nil] at isPrefix
    exact isPrefix
  | found front ih =>
    rw [append_assoc, replace_append inhabited, replace_append inhabited, ih,
      append_assoc]
  | byte byte front absent ih =>
    have stillAbsent : ¬ part <+: byte :: (front ++ stop :: rest) := by
      rwa [← cons_append, prefix_append_cons apart]
    rw [cons_append, replace_cons stillAbsent, replace_cons absent, ih, cons_append]

theorem replace_of_absent (absent : ¬ part <:+: text) : replace part replacement text = text := by
  rw [replace, split_of_absent absent]
  rfl

theorem mem_replace_iff (inhabited : part ≠ []) (outside : byte ∉ part)
    (notNew : byte ∉ replacement) (text : Text) :
    byte ∈ replace part replacement text ↔ byte ∈ text := by
  induction text using cut_induction inhabited with
  | nil => exact Iff.rfl
  | found rest ih => simp [replace_append inhabited, ih, outside, notNew]
  | byte other rest absent ih => rw [replace_cons absent, mem_cons, mem_cons, ih]

end

end Covenant.Text
