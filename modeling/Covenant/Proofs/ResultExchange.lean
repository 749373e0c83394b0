import Covenant.Proofs.Documents
import Covenant.Proofs.Invocation

/-!
# Results pass from a test program to its reader

A test program prints its results as a document. Empty members are left out, and the arguments of a
failure are sorted by name; apart from that order, what is read is what was printed. So both sides
compute the same exit status.
-/

set_option autoImplicit false

namespace Covenant

open List

/-!
## What can be exchanged
-/

/-- The note of a failure whose texts are valid; each argument is named once. -/
structure FailureNote.Portable (note : FailureNote) : Prop where
  kind : Text.isValid note.kind = true
  message : Text.isValid note.message = true
  arguments : ∀ entry ∈ note.arguments,
    Text.isValid entry.1 = true ∧ Text.isValid entry.2 = true
  different : (note.arguments.map Prod.fst).Nodup

/-- Texts are valid and counts are 64-bit integers. A verdict that is not one of the known ones
carries another word than these. -/
structure TestResult.Portable (result : TestResult) : Prop where
  id : Text.isValid result.id = true
  package : Text.isValid result.target.package = true
  function : Text.isValid result.target.function = true
  location : Text.isValid result.target.location = true
  verdict : Text.isValid result.verdict.label = true
  word : Verdict.ofLabel result.verdict.label = result.verdict
  cases : Number.IsWord result.cases
  executed : Number.IsWord result.executed
  skipped : Number.IsWord result.skipped
  timedOut : Number.IsWord result.timedOut
  failure : ∀ note ∈ result.failure, note.Portable
  complexity : Number.IsWord result.complexity
  warnings : ∀ warning ∈ result.warnings, Text.isValid warning = true
  duration : Number.IsWord result.duration

/-- Notes that differ in the order of the arguments only. -/
structure FailureNote.Same (left right : FailureNote) : Prop where
  kind : left.kind = right.kind
  message : left.message = right.message
  arguments : left.arguments.Perm right.arguments

/-- Results that differ in the order of a failure's arguments only. -/
structure TestResult.Same (left right : TestResult) : Prop where
  failure : Option.Rel FailureNote.Same left.failure right.failure
  others : right = { left with failure := right.failure }

def FailureNote.ordered (note : FailureNote) : FailureNote :=
  { note with arguments := note.arguments.mergeSort (fun left right => Text.le left.1 right.1) }

def TestResult.ordered (result : TestResult) : TestResult :=
  { result with failure := result.failure.map FailureNote.ordered }

theorem TestResult.same_ordered (result : TestResult) : result.Same result.ordered := by
  refine ⟨?_, rfl⟩
  cases found : result.failure with
  | none =>
    rw [TestResult.ordered, found]
    exact .none
  | some note =>
    rw [TestResult.ordered, found]
    exact .some ⟨rfl, rfl, (mergeSort_perm _ _).symm⟩

namespace Exchange

/-!
## Reading members
-/

section

variable {α : Type} {set : α → Text → Json → Option α} {record next : α}
  {first second : List (Text × Json)}

theorem readMembers_cons {name : Text} {value : Json} (read : set record name value = some next) :
    readMembers set record ((name, value) :: first) = readMembers set next first :=
  congrArg (Option.bind · (fun next => readMembers set next first)) read

theorem readMembers_append (read : readMembers set record first = some next) :
    readMembers set record (first ++ second) = readMembers set next second := by
  rw [readMembers] at read
  rw [readMembers, foldlM_append, read]
  rfl

end

theorem readInt_ofInt {number : Int} (word : Number.IsWord number) (earlier : Int) :
    readInt earlier (.ofInt number) = some number :=
  congrArg Except.toOption (Number.readInt_ofInt word)

theorem readTexts_texts (earlier texts : List Text) :
    readTexts earlier (texts.map .text) = some texts := by
  induction texts generalizing earlier with
  | nil => rw [map_nil, readTexts]
  | cons text texts ih =>
    rw [map_cons, readTexts, ih]
    rfl

variable {entries : List (Text × Text)}

theorem insert_of_fresh {name value : Text} (fresh : name ∉ entries.map Prod.fst) :
    insert name value entries = entries ++ [(name, value)] := by
  rw [insert, filter_eq_self.mpr]
  intro entry member
  simp only [bne_iff_ne, ne_eq]
  rintro rfl
  exact fresh (mem_map_of_mem member)

def membersOf (entries : List (Text × Text)) : List (Text × Json) :=
  entries.map (fun entry => (entry.1, .text entry.2))

def setArgument (found : List (Text × Text)) (key : Text) (value : Json) :
    Option (List (Text × Text)) := do
  return insert key (← readText [] value) found

theorem readMembers_setArgument (before entries : List (Text × Text))
    (different : ((before ++ entries).map Prod.fst).Nodup) :
    readMembers setArgument before (membersOf entries) = some (before ++ entries) := by
  induction entries generalizing before with
  | nil => exact congrArg some (append_nil before).symm
  | cons entry entries ih =>
    have fresh : entry.1 ∉ before.map Prod.fst := by
      rw [map_append, nodup_append'] at different
      exact fun earlier => different.2.2 earlier mem_cons_self
    rw [append_cons] at different ⊢
    refine (readMembers_cons ?_).trans (ih _ different)
    exact congrArg some (insert_of_fresh fresh)

theorem setFailure_args {kind message : Text} (different : (entries.map Prod.fst).Nodup) :
    setFailure ⟨kind, message, []⟩ "args" (.object (membersOf entries)) =
      some ⟨kind, message, entries⟩ := by
  have opened : setFailure ⟨kind, message, []⟩ "args" (.object (membersOf entries)) =
      (readMembers setArgument [] (membersOf entries)).bind
        (fun found => some ⟨kind, message, found⟩) := rfl
  rw [opened, readMembers_setArgument [] entries different]
  rfl

theorem readMembers_note {note : FailureNote} (different : (note.arguments.map Prod.fst).Nodup) :
    ∃ members, note.toJson = .object members ∧
      readMembers setFailure ⟨[], [], []⟩ members = some note.ordered := by
  have sorted : (note.ordered.arguments.map Prod.fst).Nodup :=
    ((mergeSort_perm note.arguments _).map Prod.fst).nodup_iff.mpr different
  have ordered : note.ordered = ⟨note.kind, note.message, note.ordered.arguments⟩ := rfl
  have required : readMembers setFailure ⟨[], [], []⟩ [("kind", .text note.kind),
      ("message", .text note.message)] = some ⟨note.kind, note.message, []⟩ := rfl
  refine ⟨_, rfl, (readMembers_append required).trans ?_⟩
  split
  · next empty =>
    rw [ordered, show note.ordered.arguments = [] from isEmpty_iff.mp empty]
    rfl
  · exact (readMembers_cons (setFailure_args sorted)).trans rfl

theorem readMembers_textUnlessEmpty {α : Type} {set : α → Text → Json → Option α} {name : String}
    (place : Text → α) (text : Text)
    (read : set (place []) (Text.ofString name) (.text text) = some (place text)) :
    readMembers set (place []) (Json.textUnlessEmpty name text) = some (place text) := by
  rw [Json.textUnlessEmpty]
  split
  · next empty =>
    rw [isEmpty_iff.mp empty]
    rfl
  · exact (readMembers_cons read).trans rfl

theorem readMembers_target (target : Target) :
    ∃ members, target.toJson = .object members ∧
      readMembers setTarget ⟨[], [], []⟩ members = some target := by
  obtain ⟨package, function, location⟩ := target
  have packageRead : readMembers setTarget ⟨[], [], []⟩ (Json.textUnlessEmpty "package" package) =
      some ⟨package, [], []⟩ :=
    readMembers_textUnlessEmpty (fun text => Target.mk text [] []) package rfl
  have functionRead : readMembers setTarget ⟨package, [], []⟩
      [("function", .text function)] = some ⟨package, function, []⟩ := rfl
  have locationRead : readMembers setTarget ⟨package, function, []⟩
      (Json.textUnlessEmpty "location" location) = some ⟨package, function, location⟩ :=
    readMembers_textUnlessEmpty (Target.mk package function) location rfl
  refine ⟨_, rfl, ?_⟩
  rw [append_assoc, readMembers_append packageRead, readMembers_append functionRead]
  exact locationRead

section

variable {result : TestResult}

theorem setResult_target (target : Target) (earlier : TestResult)
    (untouched : earlier.target = ⟨[], [], []⟩) :
    setResult earlier "target" target.toJson = some { earlier with target := target } := by
  obtain ⟨members, document, read⟩ := readMembers_target target
  rw [document]
  have opened : setResult earlier "target" (.object members) =
      (readMembers setTarget earlier.target members).bind
        (fun found => some { earlier with target := found }) := rfl
  rw [opened, untouched, read]
  rfl

theorem setResult_failure {note : FailureNote} (different : (note.arguments.map Prod.fst).Nodup)
    (earlier : TestResult) (untouched : earlier.failure = none) :
    setResult earlier "failure" note.toJson =
      some { earlier with failure := some note.ordered } := by
  obtain ⟨members, document, read⟩ := readMembers_note different
  rw [document]
  have opened : setResult earlier "failure" (.object members) =
      (readMembers setFailure (earlier.failure.getD ⟨[], [], []⟩) members).bind
        (fun found => some { earlier with failure := some found }) := rfl
  rw [opened, untouched, Option.getD_none, read]
  rfl

variable {earlier : TestResult}

theorem setResult_ofInt {number old : Int} (word : Number.IsWord number) {name : Text}
    {place : Int → TestResult} (opened : setResult earlier name (.ofInt number) =
      (readInt old (.ofInt number)).bind (fun found => some (place found))) :
    setResult earlier name (.ofInt number) = some (place number) := by
  rw [opened, readInt_ofInt word]
  rfl

theorem readMembers_required (portable : result.Portable) :
    readMembers setResult blank
      [("id", .text result.id), ("target", result.target.toJson),
        ("verdict", .text result.verdict.label),
        ("cases", .ofInt result.cases),
        ("executed", .ofInt result.executed),
        ("skipped", .ofInt result.skipped),
        ("timed_out", .ofInt result.timedOut)] =
      some { result with failure := none, complexity := 0, warnings := [], duration := 0 } := by
  have verdict (earlier : TestResult) :
      setResult earlier "verdict" (.text result.verdict.label) =
        some { earlier with verdict := result.verdict } := by
    have opened : setResult earlier "verdict" (.text result.verdict.label) =
        some { earlier with verdict := .ofLabel result.verdict.label } := rfl
    rw [opened, portable.word]
  have id : setResult blank "id" (.text result.id) = some { blank with id := result.id } := rfl
  refine (readMembers_cons id).trans ?_
  refine (readMembers_cons (setResult_target result.target _ rfl)).trans ?_
  refine (readMembers_cons (verdict _)).trans ?_
  refine (readMembers_cons (setResult_ofInt portable.cases rfl)).trans ?_
  refine (readMembers_cons (setResult_ofInt portable.executed rfl)).trans ?_
  refine (readMembers_cons (setResult_ofInt portable.skipped rfl)).trans ?_
  exact (readMembers_cons (setResult_ofInt portable.timedOut rfl)).trans rfl

theorem readMembers_failure (portable : result.Portable) (untouched : earlier.failure = none) :
    readMembers setResult earlier
      (result.failure.map (fun note => (Text.ofString "failure", note.toJson))).toList =
      some { earlier with failure := result.failure.map FailureNote.ordered } := by
  cases found : result.failure with
  | none =>
    rw [Option.map_none, Option.map_none, ← untouched]
    rfl
  | some note =>
    have different := (portable.failure note found).different
    exact (readMembers_cons (setResult_failure different earlier untouched)).trans rfl

theorem readMembers_complexity (portable : result.Portable) (untouched : earlier.complexity = 0) :
    readMembers setResult earlier (if result.complexity = 0 then []
      else [("complexity", .ofInt result.complexity)]) =
      some { earlier with complexity := result.complexity } := by
  split
  · next zero =>
    rw [zero, ← untouched]
    rfl
  · exact (readMembers_cons (setResult_ofInt portable.complexity rfl)).trans rfl

theorem readMembers_warnings (untouched : earlier.warnings = []) :
    readMembers setResult earlier (if result.warnings.isEmpty then []
      else [("warnings", .list (result.warnings.map .text))]) =
      some { earlier with warnings := result.warnings } := by
  split
  · next empty =>
    rw [isEmpty_iff.mp empty, ← untouched]
    rfl
  · have opened : setResult earlier "warnings" (.list (result.warnings.map .text)) =
        (readTexts earlier.warnings (result.warnings.map .text)).bind
          (fun found => some { earlier with warnings := found }) := rfl
    rw [readTexts_texts] at opened
    exact (readMembers_cons opened).trans rfl

theorem readResult_toJson (portable : result.Portable) :
    readResult result.toJson = some result.ordered := by
  rw [TestResult.toJson, readResult, append_assoc, append_assoc, append_assoc]
  refine (readMembers_append (readMembers_required portable)).trans ?_
  refine (readMembers_append (readMembers_failure portable rfl)).trans ?_
  refine (readMembers_append (readMembers_complexity portable rfl)).trans ?_
  refine (readMembers_append (readMembers_warnings rfl)).trans ?_
  exact (readMembers_cons (setResult_ofInt portable.duration rfl)).trans rfl

theorem readResults_list {results : List TestResult}
    (portable : ∀ result ∈ results, result.Portable) :
    readResults (.list (results.map TestResult.toJson)) =
      some (some (results.map TestResult.ordered)) := by
  have each : (results.map TestResult.toJson).mapM readResult =
      some (results.map TestResult.ordered) := by
    induction results with
    | nil => rfl
    | cons result results ih =>
      rw [forall_mem_cons] at portable
      rw [map_cons, mapM_cons, readResult_toJson portable.1, ih portable.2]
      rfl
  rw [readResults, each]
  rfl

end

end Exchange

/-!
## The document of results
-/

section

variable {bound : Nat}

theorem Json.readable_textUnlessEmpty {name : String} {value : Text}
    (named : Text.isValid (Text.ofString name) = true) (valid : Text.isValid value = true) :
    ∀ member ∈ Json.textUnlessEmpty name value,
      Text.isValid member.1 = true ∧ Json.Readable bound member.2 := by
  rw [Json.textUnlessEmpty]
  split
  · exact forall_mem_nil _
  · exact forall_mem_singleton.mpr ⟨named, .text valid⟩

variable {result : TestResult}

theorem TestResult.Portable.readable_target (portable : result.Portable) :
    Json.Readable (bound + 1) result.target.toJson := by
  apply Json.Readable.object
  simp only [forall_mem_append, forall_mem_singleton]
  exact ⟨⟨Json.readable_textUnlessEmpty rfl portable.package, rfl, .text portable.function⟩,
    Json.readable_textUnlessEmpty rfl portable.location⟩

theorem FailureNote.Portable.readable {note : FailureNote} (portable : note.Portable) :
    Json.Readable (bound + 2) note.toJson := by
  apply Json.Readable.object
  simp only [forall_mem_append, forall_mem_cons]
  refine ⟨⟨⟨rfl, .text portable.kind⟩, ⟨rfl, .text portable.message⟩, forall_mem_nil _⟩, ?_⟩
  split
  · exact forall_mem_nil _
  · rw [forall_mem_singleton]
    refine ⟨rfl, .object fun member inside => ?_⟩
    obtain ⟨entry, sorted, rfl⟩ := mem_map.mp inside
    obtain ⟨name, value⟩ := portable.arguments entry (mem_mergeSort.mp sorted)
    exact ⟨name, .text value⟩

theorem TestResult.Portable.readable (portable : result.Portable) :
    Json.Readable (bound + 3) result.toJson := by
  apply Json.Readable.object
  simp only [forall_mem_append, forall_mem_cons]
  refine ⟨⟨⟨⟨⟨⟨rfl, .text portable.id⟩, ⟨rfl, portable.readable_target⟩,
    ⟨rfl, .text portable.verdict⟩, ⟨rfl, .ofInt _⟩, ⟨rfl, .ofInt _⟩, ⟨rfl, .ofInt _⟩,
    ⟨rfl, .ofInt _⟩, forall_mem_nil _⟩, ?failure⟩, ?complexity⟩, ?warnings⟩,
    ⟨rfl, .ofInt _⟩, forall_mem_nil _⟩
  case failure =>
    intro member inside
    obtain ⟨note, found, rfl⟩ := Option.map_eq_some_iff.mp (Option.mem_toList.mp inside)
    exact ⟨rfl, (portable.failure note found).readable⟩
  case complexity =>
    split
    · exact forall_mem_nil _
    · exact forall_mem_singleton.mpr ⟨rfl, .ofInt _⟩
  case warnings =>
    split
    · exact forall_mem_nil _
    · refine forall_mem_singleton.mpr ⟨rfl, .list fun item inside => ?_⟩
      obtain ⟨warning, listed, rfl⟩ := mem_map.mp inside
      exact .text (portable.warnings warning listed)

end

namespace Exchange

variable {results : List TestResult}

theorem decode_of_read {source : Text} {json : Json} {found : Option (List TestResult)}
    (visible : (Text.trim source).isEmpty = false) (read : Json.read source = some json)
    (recognized : readResults json = some found) : decode source = .ok found := by
  rw [decode, visible, read]
  dsimp only [Option.bind]
  rw [recognized]
  rfl

theorem decode_encode (portable : ∀ result ∈ results, result.Portable) :
    decode (encode results) = .ok (some (results.map TestResult.ordered)) := by
  have readable : Json.Readable Json.nestingLimit (.list (results.map TestResult.toJson)) := by
    apply Json.Readable.list
    intro item inside
    obtain ⟨result, listed, rfl⟩ := mem_map.mp inside
    exact (portable result listed).readable
  have visible : (Text.trim (encode results)).isEmpty = false := by
    obtain ⟨rest, printed⟩ : ∃ rest, encode results = 91 :: rest := by
      rw [encode, Json.print, Json.printAt, Json.bracket]
      split <;> exact ⟨_, rfl⟩
    rw [printed]
    exact Text.isEmpty_trim_of_head (by decide) (by decide)
  exact decode_of_read visible (Json.read_print readable) (readResults_list portable)

end Exchange

/-!
## The exit status
-/

theorem Summary.ofResults_ordered (results : List TestResult) :
    ofResults (results.map TestResult.ordered) = ofResults results := by
  rw [ofResults, ofResults, length_map, foldl_map]
  rfl

namespace TestProgram

/-- Results whose texts are valid are read as they were printed, up to the order of arguments,
which are named. Who reads the output of a program therefore computes the exit status with which
the program ended. -/
theorem results_survive_exchange (results : List TestResult)
    (portable : ∀ result ∈ results, result.Portable) :
    ∃ found, Exchange.decode (Exchange.encode results) = .ok (some found) ∧
      List.Forall₂ TestResult.Same results found ∧
      ∀ (files : FileTree) (arguments : List Text) (start final : Workspace) (exit : Exit),
        (run files arguments).run start = (.ok exit, final) → exit.results = some results →
          output exit = Exchange.encode results ∧
            (Summary.ofResults found).exitStatus = exit.status := by
  refine ⟨_, Exchange.decode_encode portable, ?_, ?_⟩
  · rw [List.forall₂_map_right_iff, List.forall₂_same]
    exact fun result _ => result.same_ordered
  · intro files arguments start final exit ran printed
    obtain ⟨line, _, served⟩ := exists_serve_of_run ran printed
    rw [output, printed, Summary.ofResults_ordered, (Request.exists_run_of_serve served printed).1]
    exact ⟨rfl, rfl⟩

/-- A failure with texts that are printed with escapes of every kind, and a result that carries
the least count and a verdict of its own. -/
def trickyResults : List TestResult :=
  [{ id := "fn-\"1\"", target := ⟨[], "a<b>&c", "dir\\x.go:7"⟩, verdict := .failed, cases := 2
     executed := 1, skipped := 0, timedOut := 0
     failure := some ⟨"Panic", "bad\n\t\x01\u2028\u2029 é 🦊", [("n", "\x7f"), ("", "0")]⟩
     complexity := -1, warnings := ["", "\uFFFD"], duration := 0x7FFFFFFFFFFFFFFF },
   { id := [], target := ⟨"p", [], []⟩, verdict := .other "Passed"
     cases := -0x8000000000000000, executed := 0, skipped := 0, timedOut := 0, failure := none
     complexity := 0, warnings := [], duration := 0 }]

def idleRequest : Request := ⟨"example.com/p", [], [], false⟩

theorem idle_run : ∃ final,
    (run .empty idleRequest.arguments).run (Workspace.initial Sample.host) =
      (.ok ⟨0, some []⟩, final) := by
  obtain ⟨settings, served⟩ := idleRequest.serve_standard rfl (Workspace.initial Sample.host)
  rw [run, runWith_arguments CommandLine.conventional_read
    (received_eq_self_iff.mpr (forall_mem_nil _))]
  exact ⟨_, served [] [] _ rfl rfl⟩

theorem results_survive_exchange_tricky :
    (∀ result ∈ trickyResults, result.Portable) ∧
      (∃ found, Exchange.decode (Exchange.encode trickyResults) = .ok (some found) ∧
        List.Forall₂ TestResult.Same trickyResults found) ∧
      ∃ exit final found,
        (run .empty idleRequest.arguments).run (Workspace.initial Sample.host) =
          (.ok exit, final) ∧
        Exchange.decode (output exit) = .ok (some found) ∧
        (Summary.ofResults found).exitStatus = exit.status := by
  have note : FailureNote.Portable
      ⟨"Panic", "bad\n\t\x01\u2028\u2029 é 🦊", [("n", "\x7f"), ("", "0")]⟩ := by
    constructor <;> decide +kernel
  have portable : ∀ result ∈ trickyResults, result.Portable := by
    rw [trickyResults, List.forall_mem_cons, List.forall_mem_singleton]
    constructor
    · constructor
      case failure => exact fun _ found => Option.mem_some_iff.mp found ▸ note
      all_goals decide +kernel
    · constructor
      case failure => exact fun _ found => absurd found (Option.not_mem_none _)
      all_goals decide +kernel
  obtain ⟨found, read, same, _⟩ := results_survive_exchange trickyResults portable
  refine ⟨portable, ⟨found, read, same⟩, ?_⟩
  obtain ⟨final, ran⟩ := idle_run
  obtain ⟨nothing, readNothing, _, ends⟩ := results_survive_exchange [] (List.forall_mem_nil _)
  exact ⟨_, final, nothing, ran, readNothing, (ends _ _ _ _ _ ran rfl).2⟩

end TestProgram

end Covenant
