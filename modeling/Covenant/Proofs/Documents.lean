import Covenant.Proofs.Characters
import Covenant.Proofs.Decimals

/-!
# Printed documents are read back

Reading undoes each escape of a printed text and passes over the blanks between the parts of a
document. So a document of integers and valid texts is found again from its printed form, up to the
last byte of it.
-/

set_option autoImplicit false

namespace Covenant.Json

open List

/-!
## Texts
-/

section

variable {point : Nat} {rest after : Text} {byte : UInt8} {pieces : List Piece}

/-- Code points that are printed as an escaped unit. -/
def IsUnit (point : Nat) : Prop :=
  point < 32 ∧ point ∉ [8, 9, 10, 12, 13] ∨ point ∈ [38, 60, 62, 0x2028, 0x2029]

instance (point : Nat) : Decidable (IsUnit point) := inferInstanceAs (Decidable (_ ∨ _))

def piecesOf (point : Nat) : List Piece :=
  if IsUnit point then [.unit point] else (Text.ofCodePoint point).map .byte

theorem hexValue?_hexDigit {value : Nat} (small : value < 16) :
    Text.hexValue? (Text.hexDigit value) = some value := by
  have digits : ∀ value < 16, Text.hexValue? (Text.hexDigit value) = some value := by decide
  exact digits value small

theorem readPieces_unitEscape (small : point < 0x10000)
    (read : readPieces rest = some (pieces, after)) :
    readPieces (unitEscape point ++ rest) = some (.unit point :: pieces, after) := by
  have spelled : unitEscape point ++ rest =
      92 :: 117 :: Text.hexDigit (point / 4096 % 16) :: Text.hexDigit (point / 256 % 16) ::
        Text.hexDigit (point / 16 % 16) :: Text.hexDigit (point / 1 % 16) :: rest := rfl
  have value : point / 4096 % 16 * 4096 + point / 256 % 16 * 256 + point / 16 % 16 * 16
      + point / 1 % 16 = point := by omega
  have unit : unitOf? (Text.hexDigit (point / 4096 % 16)) (Text.hexDigit (point / 256 % 16))
      (Text.hexDigit (point / 16 % 16)) (Text.hexDigit (point / 1 % 16)) = some point := by
    rw [unitOf?, hexValue?_hexDigit (by omega), hexValue?_hexDigit (by omega),
      hexValue?_hexDigit (by omega), hexValue?_hexDigit (by omega)]
    exact congrArg some value
  rw [spelled, readPieces, unit, read]
  rfl

theorem readPieces_simpleEscape {letter : UInt8} (simple : simpleEscape? letter = some byte)
    (read : readPieces rest = some (pieces, after)) :
    readPieces (92 :: letter :: rest) = some (.byte byte :: pieces, after) := by
  have noUnit : letter ≠ 117 := by
    rintro rfl
    cases simple
  rw [readPieces]
  · rw [simple, read]
    rfl
  · intro a b c d others unit
    exact absurd unit noUnit

theorem readPieces_byte (visible : 32 ≤ byte) (noQuote : byte ≠ 34) (noBackslash : byte ≠ 92)
    (read : readPieces rest = some (pieces, after)) :
    readPieces (byte :: rest) = some (.byte byte :: pieces, after) := by
  have plain : ¬ (decide (byte < 32) || byte == 92) = true := by
    simpa using ⟨visible, noBackslash⟩
  rw [readPieces]
  · rw [if_neg plain, read]
    rfl
  · exact noQuote
  all_goals
    intros
    contradiction

theorem readPieces_bytes {bytes : Text}
    (plain : ∀ byte ∈ bytes, 32 ≤ byte ∧ byte ≠ 34 ∧ byte ≠ 92)
    (read : readPieces rest = some (pieces, after)) :
    readPieces (bytes ++ rest) = some (bytes.map .byte ++ pieces, after) := by
  induction bytes with
  | nil => exact read
  | cons byte bytes ih =>
    rw [forall_mem_cons] at plain
    obtain ⟨visible, noQuote, noBackslash⟩ := plain.1
    exact readPieces_byte visible noQuote noBackslash (ih plain.2)

/-- Printed code points that need no escape have no byte that reading would take for another
thing. -/
theorem plain_of_mem_ofCodePoint (scalar : Text.IsScalar point) (visible : 32 ≤ point)
    (noQuote : point ≠ 34) (noBackslash : point ≠ 92) (member : byte ∈ Text.ofCodePoint point) :
    32 ≤ byte ∧ byte ≠ 34 ∧ byte ≠ 92 := by
  obtain ⟨first, tail, spells⟩ := Text.exists_spells scalar
  rw [spells.ofCodePoint_eq] at member
  have value := spells.toNat_of_mem member
  simp only [UInt8.le_iff_toNat_le, ne_eq, ← UInt8.toNat_inj, UInt8.reduceToNat]
  omega

def shortEscapes : List Nat := [34, 92, 8, 12, 10, 13, 9]

theorem escapePoint_of_not_short (long : point ∉ shortEscapes) :
    escapePoint point = if IsUnit point then unitEscape point else Text.ofCodePoint point := by
  simp only [shortEscapes, mem_cons, not_mem_nil, or_false, not_or] at long
  obtain ⟨quote, backslash, backspace, feed, line, carriage, tab⟩ := long
  simp only [escapePoint, quote, backslash, backspace, feed, line, carriage, tab, ↓reduceIte,
    IsUnit, Bool.or_eq_true, decide_eq_true_eq, mem_cons, not_mem_nil, or_false]
  refine if_congr ?_ rfl rfl
  rw [not_false_eq_true, and_true]
  omega

theorem readPieces_escapePoint (scalar : Text.IsScalar point)
    (read : readPieces rest = some (pieces, after)) :
    readPieces (escapePoint point ++ rest) = some (piecesOf point ++ pieces, after) := by
  by_cases short : point ∈ shortEscapes
  · simp only [shortEscapes, mem_cons, not_mem_nil, or_false] at short
    rcases short with rfl | rfl | rfl | rfl | rfl | rfl | rfl
    all_goals exact readPieces_simpleEscape rfl read
  rw [escapePoint_of_not_short short, piecesOf]
  split
  · next unit =>
    have small : point < 0x10000 := by
      simp only [IsUnit, mem_cons, not_mem_nil, or_false] at unit
      omega
    exact readPieces_unitEscape small read
  · next noUnit =>
    refine readPieces_bytes (fun byte member => ?_) read
    simp only [shortEscapes, IsUnit, mem_cons, not_mem_nil, or_false] at short noUnit
    exact plain_of_mem_ofCodePoint scalar (by omega) (by omega) (by omega) member

variable {points : List Nat}

theorem readPieces_flatMap_escapePoint (scalars : ∀ point ∈ points, Text.IsScalar point) :
    readPieces (points.flatMap escapePoint ++ 34 :: rest) =
      some (points.flatMap piecesOf, rest) := by
  induction points with
  | nil => rw [flatMap_nil, nil_append, readPieces, flatMap_nil]
  | cons point points ih =>
    rw [forall_mem_cons] at scalars
    rw [flatMap_cons, append_assoc, flatMap_cons]
    exact readPieces_escapePoint scalars.1 (ih scalars.2)

theorem assemble_bytes (run bytes : Text) :
    assemble run (bytes.map .byte ++ pieces) = assemble (bytes.reverse ++ run) pieces := by
  induction bytes generalizing run with
  | nil => rfl
  | cons byte bytes ih =>
    rw [map_cons, cons_append, assemble, ih, reverse_cons, append_assoc]
    rfl

/-- A unit that is no half of a pair is a character of its own, whatever follows it. -/
theorem assemble_unit (scalar : Text.IsScalar point) (run : Text) :
    assemble run (.unit point :: pieces) =
      assemble.flush run ++ Text.ofCodePoint point ++ assemble [] pieces := by
  have noSurrogate := scalar.2
  have alone : unitPoint point = point := by
    refine if_neg ?_
    rw [Bool.and_eq_true, decide_eq_true_eq, decide_eq_true_eq]
    exact noSurrogate
  have noPair (low : Nat) : surrogatePair? point low = none := by
    refine if_neg ?_
    simp only [Bool.and_eq_true, decide_eq_true_eq]
    omega
  cases pieces with
  | nil => exact congrArg (assemble.flush run ++ Text.ofCodePoint · ++ assemble [] []) alone
  | cons piece pieces =>
    cases piece with
    | byte byte =>
      exact congrArg (assemble.flush run ++ Text.ofCodePoint · ++ assemble [byte] pieces) alone
    | unit low => rw [assemble, noPair, alone]

theorem flush_ofCodePoints (scalars : ∀ point ∈ points, Text.IsScalar point) :
    assemble.flush (Text.ofCodePoints points).reverse = Text.ofCodePoints points := by
  rw [assemble.flush, reverse_reverse, Text.codePoints_ofCodePoints scalars]

/-- The bytes read so far, latest first, are those of characters; a run of them ends at each
escaped unit. -/
theorem assemble_piecesOf {before : List Nat} (earlier : ∀ point ∈ before, Text.IsScalar point)
    (scalars : ∀ point ∈ points, Text.IsScalar point) :
    assemble (Text.ofCodePoints before).reverse (points.flatMap piecesOf) =
      Text.ofCodePoints before ++ Text.ofCodePoints points := by
  induction points generalizing before with
  | nil =>
    rw [flatMap_nil, assemble, flush_ofCodePoints earlier]
    exact (append_nil _).symm
  | cons point points ih =>
    rw [forall_mem_cons] at scalars
    rw [flatMap_cons, piecesOf]
    split
    · have fresh := ih (forall_mem_nil _) scalars.2
      rw [singleton_append, assemble_unit scalars.1, flush_ofCodePoints earlier]
      rw [Text.ofCodePoints, flatMap_nil, reverse_nil, nil_append] at fresh
      rw [fresh, append_assoc]
      rfl
    · have longer : ∀ other ∈ before ++ [point], Text.IsScalar other := by
        simp only [forall_mem_append, forall_mem_singleton]
        exact ⟨earlier, scalars.1⟩
      have joined := ih longer scalars.2
      rw [assemble_bytes, ← reverse_append]
      simp only [Text.ofCodePoints, flatMap_append, flatMap_cons, flatMap_nil,
        append_nil, append_assoc] at joined ⊢
      exact joined

/-- A valid text is printed between quotes, and found again up to the second of them. -/
theorem readText_quote {text : Text} (valid : Text.isValid text = true) :
    ∃ body, quote text = 34 :: body ++ [34] ∧
      ∀ rest, readText (body ++ 34 :: rest) = some (text, rest) := by
  obtain ⟨points, scalars, rfl⟩ := Text.isValid_iff.mp valid
  refine ⟨points.flatMap escapePoint, ?_, fun rest => ?_⟩
  · have printed : (Text.decode (Text.ofCodePoints points)).flatMap (fun entry =>
        if entry.1.valid then escapePoint entry.1.point else unitEscape Text.replacement) =
        points.flatMap escapePoint := by
      have read := congrArg (List.flatMap (fun decoded : Text.Decoded =>
        if decoded.valid then escapePoint decoded.point else unitEscape Text.replacement))
        (Text.decode_ofCodePoints scalars)
      rw [flatMap_map, flatMap_map] at read
      exact read
    exact congrArg (fun body => 34 :: body ++ [34]) printed
  · rw [readText, readPieces_flatMap_escapePoint scalars]
    have joined := assemble_piecesOf (forall_mem_nil _) scalars
    exact congrArg (fun text => some (text, rest)) joined

end

/-!
## Containers
-/

section

variable {rest : Text} {byte closing : UInt8}

theorem skipBlanks_newline (depth : Nat) (rest : Text) :
    skipBlanks (newline depth ++ rest) = skipBlanks rest := by
  have blanks : ∀ byte ∈ newline depth, isBlank byte = true := by
    intro byte member
    rcases mem_cons.mp member with rfl | indent
    · rfl
    · rw [eq_of_mem_replicate indent]
      rfl
  exact dropWhile_append_of_pos blanks

theorem skipBlanks_of_head (visible : isBlank byte = false) :
    skipBlanks (byte :: rest) = byte :: rest :=
  dropWhile_cons_of_neg (by simp [visible])

theorem endsNumber_newline (depth : Nat) (rest : Text) : EndsNumber (newline depth ++ rest) := by
  rintro byte ⟨⟩
  decide

theorem endsNumber_comma (rest : Text) : EndsNumber (44 :: rest) := by
  rintro byte ⟨⟩
  decide

/-- A byte that is neither blank nor the end of a container. -/
def Opens (byte : UInt8) : Prop := isBlank byte = false ∧ byte ≠ 93 ∧ byte ≠ 125

instance : Decidable (Opens byte) := inferInstanceAs (Decidable (_ ∧ _))

/-- A printed part is found again, up to a byte that ends a number. -/
structure ReadsBack {α : Type} (read : Text → Option (α × Text)) (printed : Text) (value : α) :
    Prop where
  opens : ∃ byte ∈ printed.head?, Opens byte
  reads {source rest : Text} : skipBlanks source = printed ++ rest → EndsNumber rest →
    read source = some (value, rest)

variable {α : Type} {read : Text → Option (α × Text)} {print : α → Text} {items : List α}

section

variable {printed : Text} {value : α} (back : ReadsBack read printed value)
include back

theorem ReadsBack.join_opens (separator : Text) (parts : List Text) (tail : Text) :
    ∃ byte more, Opens byte ∧ Text.join separator (printed :: parts) ++ tail = byte :: more := by
  obtain ⟨byte, head, opens⟩ := back.opens
  obtain ⟨others, rfl⟩ := List.head?_eq_some_iff.mp head
  cases parts with
  | nil => exact ⟨byte, others ++ tail, opens, rfl⟩
  | cons next parts => exact ⟨byte, _, opens, rfl⟩

theorem ReadsBack.skipBlanks_join (separator : Text) (parts : List Text) (tail : Text) :
    skipBlanks (Text.join separator (printed :: parts) ++ tail) =
      Text.join separator (printed :: parts) ++ tail := by
  obtain ⟨byte, more, opens, same⟩ := back.join_opens separator parts tail
  rw [same, skipBlanks_of_head opens.1]

end

section

variable (back : ∀ item ∈ items, ReadsBack read (print item) item)
include back

theorem length_le_length_join (separator : Text) :
    items.length ≤ (Text.join separator (items.map print)).length := by
  induction items with
  | nil => exact Nat.le_refl 0
  | cons item items ih =>
    rw [forall_mem_cons] at back
    have shorter := ih back.2
    cases items with
    | nil =>
      obtain ⟨byte, more, _, same⟩ := back.1.join_opens separator [] []
      rw [append_nil] at same
      rw [map_cons, map_nil, same]
      exact Nat.succ_le_succ (Nat.zero_le _)
    | cons next items =>
      obtain ⟨byte, head, _⟩ := back.1.opens
      have first := length_pos_of_mem (mem_of_head? head)
      simp only [map_cons, Text.join, length_append, length_cons] at shorter ⊢
      omega

theorem readParts_join (closes : closing ≠ 44 ∧ isBlank closing = false) (inhabited : items ≠ [])
    {count : Nat} (enough : items.length ≤ count) (depth outer : Nat) {source : Text}
    (skipped : skipBlanks source = Text.join (44 :: newline depth) (items.map print) ++
      (newline outer ++ closing :: rest)) :
    readParts read closing count source = some (items, rest) := by
  induction items generalizing count source with
  | nil => exact absurd rfl inhabited
  | cons item items ih =>
    rw [forall_mem_cons] at back
    obtain ⟨count, rfl⟩ := Nat.exists_eq_add_of_le' (Nat.le_trans (Nat.le_add_left 1 _) enough)
    cases items with
    | nil =>
      have first := back.1.reads skipped (endsNumber_newline outer _)
      simp [readParts, first, skipBlanks_newline, skipBlanks_of_head closes.2, closes.1]
    | cons next items =>
      simp only [map_cons, Text.join, append_assoc, cons_append] at skipped
      have first := back.1.reads skipped (endsNumber_comma _)
      have comma (rest : Text) : skipBlanks (44 :: rest) = 44 :: rest := skipBlanks_of_head rfl
      have others := ih back.2 (cons_ne_nil _ _) (Nat.le_of_succ_le_succ enough)
        ((skipBlanks_newline depth _).trans ((back.2 next mem_cons_self).skipBlanks_join ..))
      simp [readParts, first, comma, others]

theorem readContainer_bracket (closes : closing = 93 ∨ closing = 125) (opening : UInt8)
    (depth : Nat) (rest : Text) :
    ∃ inner, bracket opening closing depth (items.map print) ++ rest = opening :: inner ∧
      readContainer read closing inner = some (items, rest) := by
  have visible : closing ≠ 44 ∧ isBlank closing = false := by
    rcases closes with rfl | rfl <;> decide
  cases items with
  | nil => exact ⟨closing :: rest, rfl, by simp [readContainer, skipBlanks_of_head visible.2]⟩
  | cons item items =>
    refine ⟨newline (depth + 1) ++ (Text.join (44 :: newline (depth + 1))
      ((item :: items).map print) ++ (newline depth ++ closing :: rest)), by simp [bracket], ?_⟩
    have first := back item mem_cons_self
    have skipped := (skipBlanks_newline (depth + 1) _).trans (first.skipBlanks_join
      (44 :: newline (depth + 1)) (items.map print) (newline depth ++ closing :: rest))
    have shorter := length_le_length_join back (44 :: newline (depth + 1))
    obtain ⟨byte, more, opens, same⟩ := first.join_opens (44 :: newline (depth + 1))
      (items.map print) (newline depth ++ closing :: rest)
    have notClosing : byte ≠ closing := by
      rcases closes with rfl | rfl
      · exact opens.2.1
      · exact opens.2.2
    rw [readContainer, map_cons, skipped.trans same]
    simp only [beq_iff_eq, notClosing, if_false]
    refine readParts_join back visible (cons_ne_nil _ _) ?_ (depth + 1) depth skipped
    rw [map_cons] at shorter
    rw [length_append, length_append]
    omega

theorem readsBack_bracket {β : Type} {reader : Text → Option (β × Text)} {value : β}
    (closes : closing = 93 ∨ closing = 125) {opening : UInt8} (opens : Opens opening) (depth : Nat)
    (reads : ∀ {source inner rest : Text}, skipBlanks source = opening :: inner →
      readContainer read closing inner = some (items, rest) → reader source = some (value, rest)) :
    ReadsBack reader (bracket opening closing depth (items.map print)) value := by
  have bracketed := readContainer_bracket back closes opening depth
  refine ⟨⟨opening, ?_, opens⟩, fun {source rest} skipped _ => ?_⟩
  · obtain ⟨inner, printed, _⟩ := bracketed []
    rw [append_nil] at printed
    rw [printed]
    rfl
  · obtain ⟨inner, printed, read⟩ := bracketed rest
    exact reads (skipped.trans printed) read

end

end

/-!
## Documents
-/

/-- A document of integers and valid texts whose containers are nested up to a bound. -/
inductive Readable : Nat → Json → Prop where
  | null {bound : Nat} : Readable bound .null
  | bool {bound : Nat} (truth : Bool) : Readable bound (.bool truth)
  | ofInt {bound : Nat} (number : Int) : Readable bound (.ofInt number)
  | text {bound : Nat} {value : Text} (valid : Text.isValid value = true) :
      Readable bound (.text value)
  | list {bound : Nat} {items : List Json} (each : ∀ item ∈ items, Readable bound item) :
      Readable (bound + 1) (.list items)
  | members {bound : Nat} {members : List (Text × Json)}
      (names : ∀ member ∈ members, Text.isValid member.1 = true)
      (values : ∀ member ∈ members, Readable bound member.2) :
      Readable (bound + 1) (.object members)

theorem Readable.object {bound : Nat} {members : List (Text × Json)}
    (each : ∀ member ∈ members, Text.isValid member.1 = true ∧ Readable bound member.2) :
    Readable (bound + 1) (.object members) :=
  .members (fun member inside => (each member inside).1) fun member inside => (each member inside).2

theorem printItems_eq_map (depth : Nat) (items : List Json) :
    printItems depth items = items.map (printAt depth) := by
  induction items with
  | nil => rfl
  | cons item items ih => rw [printItems, ih, map_cons]

def printMember (depth : Nat) (member : Text × Json) : Text :=
  quote member.1 ++ ": " ++ printAt depth member.2

theorem printMembers_eq_map (depth : Nat) (members : List (Text × Json)) :
    printMembers depth members = members.map (printMember depth) := by
  induction members with
  | nil => rfl
  | cons member members ih => rw [printMembers, ih, map_cons, printMember]

theorem expectWord_append (word : String) (rest : Text) :
    expectWord word (Text.ofString word ++ rest) = some rest := by
  have starts : Text.startsWith (Text.ofString word ++ rest) (Text.ofString word) = true :=
    isPrefixOf_iff_prefix.mpr (prefix_append _ _)
  rw [expectWord, if_pos starts, drop_left]

theorem head?_ofInt (number : Int) :
    ∃ byte ∈ (Text.ofInt number).head?, Text.isDigit byte = true ∨ byte = 45 := by
  rw [Text.ofInt]
  split
  · exact ⟨45, rfl, .inr rfl⟩
  · obtain ⟨first, others, digits⟩ :=
      exists_cons_of_ne_nil (Text.ofNat_ne_nil number.natAbs)
    have digit : Text.isDigit first = true :=
      Text.isDigit_of_mem_ofNat (digits ▸ mem_cons_self)
    exact ⟨first, by rw [digits]; rfl, .inl digit⟩

section

variable {room : Nat} {source start after : Text}

theorem readValue_number {literal : Text} (skipped : skipBlanks source = start)
    (first : ∃ byte ∈ start.head?, Text.isDigit byte = true ∨ byte = 45)
    (read : readNumber start = some (literal, after)) :
    readValue room source = some (.number literal, after) := by
  obtain ⟨byte, head, begins⟩ := first
  rw [readValue.eq_def, skipped]
  split
  case h_7 =>
    rw [read]
    rfl
  all_goals
    cases head
    exact absurd begins (by decide)

end

theorem readsBack_ofInt (room : Nat) (number : Int) :
    ReadsBack (readValue room) (Text.ofInt number) (.ofInt number) := by
  obtain ⟨byte, head, begins⟩ := head?_ofInt number
  refine ⟨⟨byte, head, ?_⟩, ?_⟩
  · rcases begins with digit | rfl
    · simp only [Text.isDigit, Bool.and_eq_true, decide_eq_true_eq, UInt8.le_iff_toNat_le,
        UInt8.reduceToNat] at digit
      simp only [Opens, isBlank, Bool.or_eq_false_iff, beq_eq_false_iff_ne, ne_eq,
        ← UInt8.toNat_inj, UInt8.reduceToNat]
      omega
    · decide
  · intro source rest skipped ends
    refine readValue_number skipped ⟨byte, ?_, begins⟩ (readNumber_ofInt_append number ends)
    rw [List.head?_append, head]
    rfl

theorem readsBack_member {read : Text → Option (Json × Text)} {depth : Nat} {member : Text × Json}
    (valid : Text.isValid member.1 = true)
    (back : ReadsBack read (printAt depth member.2) member.2) :
    ReadsBack (readMember read) (printMember depth member) member := by
  obtain ⟨body, quoted, named⟩ := readText_quote valid
  refine ⟨⟨34, by rw [printMember, quoted]; rfl, by decide⟩, ?_⟩
  intro source rest skipped ends
  have colon : Text.ofString ": " = [58, 32] := rfl
  rw [printMember, quoted, colon] at skipped
  simp only [append_assoc, cons_append, nil_append] at skipped
  have colons (rest : Text) : skipBlanks (58 :: rest) = 58 :: rest := skipBlanks_of_head rfl
  have blank : skipBlanks (32 :: (printAt depth member.2 ++ rest)) = _ :=
    back.skipBlanks_join [] [] rest
  simp [readMember, skipped, named, colons, back.reads blank ends]

theorem Readable.readsBack {room : Nat} {json : Json} (readable : Readable room json)
    (depth : Nat) : ReadsBack (readValue room) (printAt depth json) json := by
  induction readable generalizing depth with
  | null =>
    refine ⟨⟨110, rfl, by decide⟩, fun {source rest} skipped _ => ?_⟩
    have word : skipBlanks source = 110 :: (Text.ofString "ull" ++ rest) := skipped
    simp [readValue.eq_def, word, expectWord_append]
  | bool truth =>
    cases truth with
    | false =>
      refine ⟨⟨102, rfl, by decide⟩, fun {source rest} skipped _ => ?_⟩
      have word : skipBlanks source = 102 :: (Text.ofString "alse" ++ rest) := skipped
      simp [readValue.eq_def, word, expectWord_append]
    | true =>
      refine ⟨⟨116, rfl, by decide⟩, fun {source rest} skipped _ => ?_⟩
      have word : skipBlanks source = 116 :: (Text.ofString "rue" ++ rest) := skipped
      simp [readValue.eq_def, word, expectWord_append]
  | ofInt number => exact readsBack_ofInt _ number
  | text valid =>
    obtain ⟨body, quoted, read⟩ := readText_quote valid
    refine ⟨⟨34, by rw [printAt, quoted]; rfl, by decide⟩, fun {source rest} skipped _ => ?_⟩
    rw [printAt, quoted] at skipped
    simp only [append_assoc, cons_append, nil_append] at skipped
    simp [readValue.eq_def, skipped, read]
  | @list _ items _ ih =>
    rw [printAt, printItems_eq_map]
    refine readsBack_bracket (fun item inside => ih item inside (depth + 1)) (.inl rfl) (by decide)
      depth fun skipped read => ?_
    simp [readValue.eq_def, skipped, read]
  | @members _ members names _ ih =>
    rw [printAt, printMembers_eq_map]
    refine readsBack_bracket (fun member inside =>
      readsBack_member (names member inside) (ih member inside (depth + 1))) (.inr rfl) (by decide)
      depth fun skipped read => ?_
    simp [readValue.eq_def, skipped, read]

theorem read_print {json : Json} (readable : Readable nestingLimit json) :
    read json.print = some json := by
  have back := readable.readsBack 0
  have found : readValue nestingLimit (printAt 0 json ++ [10]) = some (json, [10]) :=
    back.reads (back.skipBlanks_join [] [] [10]) (endsNumber_newline 0 [])
  rw [read, print, found]
  rfl

end Covenant.Json
