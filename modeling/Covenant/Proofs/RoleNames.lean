import Covenant.Proofs.Declaration
import Covenant.Proofs.NameTokens
import Covenant.Proofs.Order
import Covenant.Proofs.Postcondition
import Covenant.Sample

/-!
# The names of calls in postconditions

A postcondition sees the calls of an arrangement under one set of names. Every name means what its
call says exactly when each parameter is a name that is neither reserved nor one for the return
value, and none is spelled like another one with a suffix.
-/

set_option autoImplicit false

namespace Covenant.Contract

open List

open Stateful
open Condition (Evaluation Nameable compile marked markedWords returnWord returnName spellWord
  isWordByte backtick nameReturns spellBackticks)
open Condition.Evaluation

structure Finished where
  arguments : Bindings
  returned : Value

namespace Finished

def record (call : Finished) : Record := Contract.record call.arguments call.returned

def said (call : Finished) : Bindings := (returnWord, call.returned) :: call.arguments

/-- What the call says, with the contents that its values have in a memory. -/
def saidIn (memory : Memory) (call : Finished) : Bindings :=
  call.said.map (fun entry => (entry.1, memory.view entry.2))

/-- The arguments are given under the names of the parameters. -/
def Gives (call : Finished) (names : List Text) : Prop :=
  (call.arguments.map Prod.fst).Perm names

theorem Gives.mem {call : Finished} {names : List Text} (gives : call.Gives names)
    {entry : Text × Value} (member : entry ∈ call.arguments) : entry.1 ∈ names :=
  gives.subset (mem_map_of_mem member)

end Finished

def inRoles (calls : List Finished) (current : Nat) : Arrangement :=
  ⟨calls.map Finished.record, current⟩

/-- A name has the value wherever no scope within the condition binds it. -/
def Arrangement.Denotes (world : World) (arrangement : Arrangement) (label : Text)
    (value : Value) : Prop :=
  ∀ (scope : Condition.Scope) (inner : List Bindings) (offset : Nat) (memory : Memory),
    (∀ layer ∈ inner, layer.lookup label = none) →
    ((Condition.Expr.name label offset).eval world
      (inner ++ scope.push arrangement.bindings)).run memory = (.ok value, memory)

/-- A report shows what the call says, and each name once. -/
def Shows (memory : Memory) (call : Finished) (shown : Bindings) : Prop :=
  shown = call.saidIn memory ∧ (shown.map Prod.fst).Nodup

/-- Names in postconditions and in their reports mean what the calls in the roles say. -/
structure Faithful (world : World) (names : List Text) (calls : List Finished) (current : Nat) :
    Prop where
  /-- A word with the marks of a role is the value that the call in this role has for it. -/
  named : ∀ place call, calls[place]? = some call → ∀ word value, (word, value) ∈ call.said →
    ∃ condition label, compile .postcondition (marked word place) = .ok condition ∧
      condition.expr = .name label 0 ∧ (inRoles calls current).Denotes world label value
  /-- So is each name within a larger postcondition for these calls. -/
  written : ∀ source condition, compile .postcondition source = .ok condition →
    condition.depth + 1 = calls.length → ∀ label ∈ condition.expr.names,
      ∃ run ∈ markedWords source, label = spellWord run ∧
        ∀ word ∈ returnWord :: names, ∀ place, run = marked word place →
          ∃ call, calls[place]? = some call ∧ ∀ value, (word, value) ∈ call.said →
            (inRoles calls current).Denotes world label value
  /-- A postcondition that fails reports each call under its own names. -/
  reported : ∀ name scope condition memory final,
    (Condition.holds world (scope.push (inRoles calls current).bindings) condition).run memory =
      (.ok false, final) →
    ∃ call shown others, calls[current]? = some call ∧
      (ensureArrangement world name scope condition (inRoles calls current)).run memory =
        (.error (.exitConditions name condition.source shown others), final) ∧
      Shows final call shown ∧ List.Forall₂ (Shows final) (calls.eraseIdx current) others

def laterSuffixes (depth : Nat) : List Text := roleSuffixes.tail.take depth

/-- The names of parameters are told apart from one another and from the return value, in all the
roles of a depth. -/
structure Usable (names : List Text) (depth : Nat) : Prop where
  nameable : ∀ name ∈ names, Nameable name
  free : ∀ name ∈ names, name ≠ returnWord ∧ name ≠ returnName
  apart : ∀ name ∈ names, ∀ other ∈ returnName :: names, ∀ suffix ∈ laterSuffixes depth,
    name ≠ other ++ suffix

instance (names : List Text) (depth : Nat) : Decidable (Usable names depth) :=
  decidable_of_iff
    ((∀ name ∈ names, Nameable name) ∧ (∀ name ∈ names, name ≠ returnWord ∧ name ≠ returnName) ∧
      ∀ name ∈ names, ∀ other ∈ returnName :: names, ∀ suffix ∈ laterSuffixes depth,
        name ≠ other ++ suffix)
    ⟨fun all => ⟨all.1, all.2.1, all.2.2⟩, fun usable => ⟨usable.1, usable.2, usable.3⟩⟩

/-!
## Looking up names
-/

theorem denotes_iff {world : World} {arrangement : Arrangement} {label : Text} {value : Value} :
    arrangement.Denotes world label value ↔ arrangement.bindings.lookup label = some value := by
  constructor
  · intro denotes
    have alone := congrArg Prod.fst (denotes [] [] 0 .empty nofun)
    rw [Condition.Expr.eval] at alone
    have seen : Condition.Scope.find? ([] ++ Condition.Scope.push [] arrangement.bindings) label =
        arrangement.bindings.lookup label := by
      simp [Condition.Scope.find?, Condition.Scope.push]
    rw [seen] at alone
    cases found : arrangement.bindings.lookup label with
    | none =>
      rw [found] at alone
      cases alone
    | some other =>
      rw [found] at alone
      cases alone
      rfl
  · intro found scope inner offset memory unbound
    have seen : Condition.Scope.find? (inner ++ scope.push arrangement.bindings) label =
        some value := by
      rw [Condition.Scope.find?, List.findSome?_append, List.findSome?_eq_none_iff.mpr unbound,
        Condition.Scope.push, List.findSome?_cons, found]
      rfl
    rw [Condition.Expr.eval, seen]
    rfl

section

variable {roles : List Record} {current : Nat} {label : Text} {value : Value}

theorem lookup_bindings :
    (Arrangement.mk roles current).bindings.lookup label =
      (roles.zip roleSuffixes).reverse.findSome? fun role =>
        (Record.marked role.2 role.1).lookup label := by
  rw [Arrangement.bindings]
  induction (roles.zip roleSuffixes).reverse with
  | nil => rfl
  | cons role others ih =>
    rw [flatMap_cons, lookup_append, List.findSome?_cons, ih]
    cases found : (Record.marked role.2 role.1).lookup label with
    | none => exact congrArg (Option.or · _) found
    | some held => exact congrArg (Option.or · _) found

theorem lookup_bindings_iff :
    (Arrangement.mk roles current).bindings.lookup label = some value ↔
      ∃ (place : Nat) (call : Record) (suffix : Text), roles[place]? = some call ∧
        roleSuffixes[place]? = some suffix ∧ (call.marked suffix).lookup label = some value ∧
        ∀ next other mark, place < next → roles[next]? = some other →
          roleSuffixes[next]? = some mark → (Record.marked mark other).lookup label = none := by
  rw [lookup_bindings, List.findSome?_eq_some_iff]
  constructor
  · rintro ⟨after, role, before, split, found, none⟩
    have order : roles.zip roleSuffixes = before.reverse ++ role :: after.reverse := by
      have turned := congrArg List.reverse split
      simpa using turned
    have there : (roles.zip roleSuffixes)[before.length]? = some role := by
      simp [order]
    obtain ⟨atCall, atSuffix⟩ := List.getElem?_zip_eq_some.mp there
    refine ⟨before.length, role.1, role.2, atCall, atSuffix, found, ?_⟩
    intro next other mark beyond atOther atMark
    have there : (roles.zip roleSuffixes)[next]? = some (other, mark) :=
      List.getElem?_zip_eq_some.mpr ⟨atOther, atMark⟩
    rw [order, List.getElem?_append_right (by simpa using Nat.le_of_lt beyond),
      length_reverse, List.getElem?_cons, if_neg (by omega)] at there
    exact none (other, mark) (mem_reverse.mp (mem_of_getElem? there))
  · rintro ⟨place, call, suffix, atCall, atSuffix, found, later⟩
    have there : (roles.zip roleSuffixes)[place]? = some (call, suffix) :=
      List.getElem?_zip_eq_some.mpr ⟨atCall, atSuffix⟩
    obtain ⟨inside, atPlace⟩ := List.getElem?_eq_some_iff.mp there
    refine ⟨((roles.zip roleSuffixes).drop (place + 1)).reverse, (call, suffix),
      ((roles.zip roleSuffixes).take place).reverse, ?_, found, ?_⟩
    · have order := take_append_drop place (roles.zip roleSuffixes)
      rw [← getElem_cons_drop inside, atPlace] at order
      have turned := congrArg List.reverse order
      rw [reverse_append, reverse_cons, append_assoc] at turned
      exact turned.symm
    · intro role member
      obtain ⟨next, there⟩ := mem_iff_getElem?.mp (mem_reverse.mp member)
      rw [List.getElem?_drop] at there
      obtain ⟨atOther, atMark⟩ := List.getElem?_zip_eq_some.mp there
      exact later _ role.1 role.2 (by omega) atOther atMark

end

theorem lookup_marked (suffix : Text) (call : Record) (key : Text) :
    (call.marked suffix).lookup (key ++ suffix) = call.lookup key := by
  induction call with
  | nil => rfl
  | cons entry others ih =>
    have same : (key ++ suffix == entry.1 ++ suffix) = (key == entry.1) := by
      rw [Bool.eq_iff_iff, beq_iff_eq, beq_iff_eq, append_left_inj]
    change List.lookup _ ((entry.1 ++ suffix, entry.2) :: Record.marked suffix others) = _
    rw [lookup_cons, lookup_cons, same, ih]

/-!
## Names that are told apart
-/

section

variable {names : List Text} {depth place : Nat} {suffix : Text}

theorem roleSuffixes_cases (atSuffix : roleSuffixes[place]? = some suffix) :
    place = 0 ∧ suffix = [] ∨ place = 1 ∧ suffix = Condition.backtickSuffix ∨
      place = 2 ∧ suffix = Condition.doubleBacktickSuffix := by
  have short : place < 3 := (List.getElem?_eq_some_iff.mp atSuffix).1
  obtain rfl | rfl | rfl : place = 0 ∨ place = 1 ∨ place = 2 := by omega
  · cases atSuffix
    exact .inl ⟨rfl, rfl⟩
  · cases atSuffix
    exact .inr (.inl ⟨rfl, rfl⟩)
  · cases atSuffix
    exact .inr (.inr ⟨rfl, rfl⟩)

theorem mem_laterSuffixes_iff :
    suffix ∈ laterSuffixes depth ↔
      ∃ place, 0 < place ∧ place ≤ depth ∧ roleSuffixes[place]? = some suffix := by
  rw [laterSuffixes, mem_iff_getElem?]
  constructor
  · intro ⟨before, there⟩
    rw [List.getElem?_take, List.getElem?_tail] at there
    split at there
    · exact ⟨before + 1, Nat.succ_pos before, by omega, there⟩
    · cases there
  · intro ⟨place, positive, within, there⟩
    refine ⟨place - 1, ?_⟩
    rw [List.getElem?_take, if_pos (by omega), List.getElem?_tail, Nat.sub_add_cancel positive]
    exact there

theorem spellBackticks_replicate (atSuffix : roleSuffixes[place]? = some suffix) :
    spellBackticks (List.replicate place backtick) = suffix := by
  rcases roleSuffixes_cases atSuffix with ⟨rfl, rfl⟩ | ⟨rfl, rfl⟩ | ⟨rfl, rfl⟩ <;> rfl

theorem nameable_append {word : Text} (nameable : Nameable word)
    (atSuffix : roleSuffixes[place]? = some suffix) : Nameable (word ++ suffix) := by
  by_cases empty : suffix = []
  · rwa [empty, append_nil]
  have letters : ∀ byte ∈ suffix, isWordByte byte = true := by
    rcases roleSuffixes_cases atSuffix with ⟨_, rfl⟩ | ⟨_, rfl⟩ | ⟨_, rfl⟩ <;>
      exact Text.forall_mem rfl
  have unreserved : ∀ entry ∈ Condition.reservedWords, ¬ suffix <:+ entry.1 := by
    rcases roleSuffixes_cases atSuffix with ⟨_, rfl⟩ | ⟨_, rfl⟩ | ⟨_, rfl⟩
    · exact absurd rfl empty
    · decide
    · decide
  constructor
  · cases word with
    | nil => cases nameable.begins
    | cons first others => exact nameable.begins
  · exact forall_mem_append.mpr ⟨nameable.continues, letters⟩
  · have absent : Condition.reservedWords.lookup (word ++ suffix) = none := by
      rw [lookup_eq_none_iff]
      intro entry member
      rw [bne_iff_ne]
      intro same
      exact unreserved entry member ⟨word, same⟩
    rw [Condition.wordKind, absent]
    rfl

theorem Usable.different {key other mark : Text} {next : Nat} (usable : Usable names depth)
    (isKey : key ∈ returnName :: names) (isOther : other ∈ returnName :: names)
    (atSuffix : roleSuffixes[place]? = some suffix) (atMark : roleSuffixes[next]? = some mark)
    (before : place < next) (within : next ≤ depth) : key ++ suffix ≠ other ++ mark := by
  intro same
  rcases roleSuffixes_cases atSuffix with ⟨rfl, rfl⟩ | ⟨rfl, rfl⟩ | ⟨rfl, rfl⟩
  · rw [append_nil] at same
    rcases mem_cons.mp isKey with rfl | isName
    · have ends : mark <:+ returnName := ⟨other, same.symm⟩
      rcases roleSuffixes_cases atMark with ⟨rfl, _⟩ | ⟨_, rfl⟩ | ⟨_, rfl⟩
      · cases before
      · exact absurd ends (by decide)
      · exact absurd ends (by decide)
    · have later := mem_laterSuffixes_iff.mpr ⟨next, before, within, atMark⟩
      exact usable.apart key isName other isOther mark later same
  · rcases roleSuffixes_cases atMark with ⟨rfl, _⟩ | ⟨rfl, _⟩ | ⟨_, rfl⟩
    · cases before
    · exact absurd before (Nat.lt_irrefl 1)
    · -- Both suffixes end the same text, and neither ends the other.
      have ends : Condition.backtickSuffix <:+ other ++ Condition.doubleBacktickSuffix :=
        ⟨key, same⟩
      rcases suffix_or_suffix_of_suffix ends (suffix_append _ _) with one | two
      · exact absurd one (by decide)
      · exact absurd two (by decide)
  · rcases roleSuffixes_cases atMark with ⟨rfl, _⟩ | ⟨rfl, _⟩ | ⟨rfl, _⟩ <;> omega

end

/-!
## Usable names are faithful
-/

section

variable {names : List Text} {depth : Nat} {call : Finished} (usable : Usable names depth)
  (gives : call.Gives names)

include usable gives

theorem Usable.record_eq : call.record = (returnName, call.returned) :: call.arguments := by
  have all : call.arguments.filter (fun entry => entry.1 != returnName) = call.arguments := by
    rw [filter_eq_self]
    intro entry member
    exact bne_iff_ne.mpr (usable.free entry.1 (gives.mem member)).2
  rw [Finished.record, record, all]

theorem Usable.lookup_record (different : names.Nodup) {word : Text} {value : Value}
    (said : (word, value) ∈ call.said) :
    (∀ byte ∈ word, isWordByte byte = true) ∧
      nameReturns false 0 word ∈ returnName :: names ∧ Nameable (nameReturns false 0 word) ∧
      call.record.lookup (nameReturns false 0 word) = some value := by
  rw [usable.record_eq gives]
  rcases mem_cons.mp said with same | member
  · cases same
    have nameable : Nameable returnName := by decide
    exact ⟨Condition.isWordByte_of_mem_returnWord, mem_cons_self, nameable, rfl⟩
  · have isName : word ∈ names := gives.mem member
    have nameable := usable.nameable word isName
    obtain ⟨noReturn, noReturnName⟩ := usable.free word isName
    rw [Condition.nameReturns_of_ne nameable.continues noReturn]
    refine ⟨nameable.continues, mem_cons_of_mem _ isName, nameable, ?_⟩
    rw [lookup_cons, beq_eq_false_iff_ne.mpr noReturnName]
    exact Bindings.lookup_of_mem (gives.nodup_iff.mpr different) member

end

section

variable {names : List Text} {depth : Nat} {calls : List Finished}
  (usable : Usable names depth) (different : names.Nodup) (shallow : depth ≤ 2)
  (count : calls.length = depth + 1) (gives : ∀ call ∈ calls, call.Gives names)

include usable different shallow count gives

variable {call : Finished} {place : Nat} {value : Value} {word : Text}

theorem Usable.denotes (world : World) (current : Nat) (atCall : calls[place]? = some call)
    (said : (word, value) ∈ call.said) :
    Nameable (spellWord (marked word place)) ∧
      (inRoles calls current).Denotes world (spellWord (marked word place)) value := by
  have inside : place < depth + 1 := by
    rw [← count]
    exact (List.getElem?_eq_some_iff.mp atCall).1
  obtain ⟨suffix, atSuffix⟩ : ∃ suffix, roleSuffixes[place]? = some suffix :=
    ⟨_, List.getElem?_eq_getElem (by change place < 3; omega)⟩
  obtain ⟨isWord, isKey, nameable, found⟩ :=
    usable.lookup_record (gives call (mem_of_getElem? atCall)) different said
  rw [Condition.spellWord_marked isWord, spellBackticks_replicate atSuffix]
  refine ⟨nameable_append nameable atSuffix, denotes_iff.mpr (lookup_bindings_iff.mpr ?_)⟩
  refine ⟨place, call.record, suffix, ?_, atSuffix, ?_, ?_⟩
  · rw [List.getElem?_map, atCall]
    rfl
  · rw [lookup_marked, found]
  · intro next other mark before atOther atMark
    rw [List.getElem?_map, Option.map_eq_some_iff] at atOther
    obtain ⟨otherCall, atOtherCall, rfl⟩ := atOther
    have otherGives := gives otherCall (mem_of_getElem? atOtherCall)
    have within : next ≤ depth := by
      have := (List.getElem?_eq_some_iff.mp atOtherCall).1
      omega
    rw [lookup_eq_none_iff, usable.record_eq otherGives]
    intro entry member
    obtain ⟨held, inRecord, rfl⟩ := mem_map.mp member
    have isOther : held.1 ∈ returnName :: names := by
      rcases mem_cons.mp inRecord with rfl | inArguments
      · exact mem_cons_self
      · exact mem_cons_of_mem _ (otherGives.mem inArguments)
    exact bne_iff_ne.mpr (usable.different isKey isOther atSuffix atMark before within)

theorem Usable.named (world : World) (current : Nat) (atCall : calls[place]? = some call)
    (said : (word, value) ∈ call.said) :
    ∃ condition label, compile .postcondition (marked word place) = .ok condition ∧
      condition.expr = .name label 0 ∧ (inRoles calls current).Denotes world label value := by
  obtain ⟨nameable, denotes⟩ :=
    usable.denotes different shallow count gives world current atCall said
  have isWord := (usable.lookup_record (gives call (mem_of_getElem? atCall)) different said).1
  have inside := (List.getElem?_eq_some_iff.mp atCall).1
  exact ⟨_, _, Condition.compile_marked isWord (by omega) nameable, rfl, denotes⟩

theorem Usable.written (world : World) (current : Nat) {source : Text} {condition : Condition}
    (compiled : compile .postcondition source = .ok condition)
    (deep : condition.depth + 1 = calls.length) {label : Text}
    (member : label ∈ condition.expr.names) :
    ∃ run ∈ markedWords source, label = spellWord run ∧
      ∀ word ∈ returnWord :: names, ∀ place, run = marked word place →
        ∃ call, calls[place]? = some call ∧ ∀ value, (word, value) ∈ call.said →
          (inRoles calls current).Denotes world label value := by
  obtain ⟨_, run, inSource, rfl⟩ := Condition.exists_markedWord_of_compile compiled member
  refine ⟨run, inSource, rfl, ?_⟩
  rintro word isWord place rfl
  have letters : ∀ byte ∈ word, isWordByte byte = true := by
    rcases mem_cons.mp isWord with rfl | isName
    · exact Condition.isWordByte_of_mem_returnWord
    · exact (usable.nameable word isName).continues
  obtain ⟨plain, expr, desugared, _, rfl⟩ := Condition.compile_eq_ok_iff.mp compiled
  have within := Condition.mark_le_depth desugared letters inSource
  obtain ⟨call, atCall⟩ : ∃ call, calls[place]? = some call :=
    ⟨_, List.getElem?_eq_getElem (by rw [← deep]; exact Nat.lt_succ_of_le within)⟩
  refine ⟨call, atCall, ?_⟩
  intro value said
  exact (usable.denotes different shallow count gives world current atCall said).2

end

theorem others_inRoles (calls : List Finished) (current : Nat) :
    (inRoles calls current).others = (calls.eraseIdx current).map Finished.record := by
  rw [Arrangement.others, inRoles, eraseIdx_eq_take_drop_succ,
    eraseIdx_eq_take_drop_succ, map_append, map_take, map_drop]

section

variable {names : List Text} {depth : Nat} (usable : Usable names depth)

include usable

variable {call : Finished}

theorem Usable.publicRecord_record (gives : call.Gives names) :
    publicRecord call.record = call.said := by
  have unchanged : publicRecord call.arguments = call.arguments := by
    refine (map_congr_left ?_).trans (map_id call.arguments)
    intro entry member
    have other : (entry.1 == returnName) = false :=
      beq_eq_false_iff_ne.mpr (usable.free entry.1 (gives.mem member)).2
    simp [other]
  rw [usable.record_eq gives]
  exact congrArg ((returnWord, call.returned) :: ·) unchanged

theorem Usable.shows (different : names.Nodup) (gives : call.Gives names) (memory : Memory) :
    Shows memory call (call.saidIn memory) := by
  refine ⟨rfl, ?_⟩
  have labels : (call.saidIn memory).map Prod.fst = returnWord :: call.arguments.map Prod.fst := by
    rw [Finished.saidIn, map_map]
    rfl
  rw [labels, nodup_cons]
  refine ⟨?_, gives.nodup_iff.mpr different⟩
  intro member
  exact (usable.free returnWord (gives.subset member)).1 rfl

theorem Usable.reported (different : names.Nodup) {calls : List Finished}
    (gives : ∀ call ∈ calls, call.Gives names) {current : Nat} (inside : current < calls.length)
    {world : World} {name : Text} {scope : Condition.Scope} {condition : Condition}
    {memory final : Memory}
    (failed : (Condition.holds world (scope.push (inRoles calls current).bindings) condition).run
      memory = (.ok false, final)) :
    ∃ call shown others, calls[current]? = some call ∧
      (ensureArrangement world name scope condition (inRoles calls current)).run memory =
        (.error (.exitConditions name condition.source shown others), final) ∧
      Shows final call shown ∧ List.Forall₂ (Shows final) (calls.eraseIdx current) others := by
  have looked (call : Finished) (member : call ∈ calls) :
      (lookBindings (publicRecord call.record)).run final = (.ok (call.saidIn final), final) := by
    rw [usable.publicRecord_record (gives call member)]
    rfl
  have atCurrent : calls[current]? = some calls[current] := List.getElem?_eq_getElem inside
  have isCall : calls[current] ∈ calls := getElem_mem inside
  have role : (inRoles calls current).roles.getD (inRoles calls current).current [] =
      calls[current].record := by
    change (calls.map Finished.record).getD current [] = _
    rw [getD_eq_getElem?_getD, List.getElem?_map, atCurrent]
    rfl
  have lookedOthers : ((inRoles calls current).others.mapM
      (fun call => lookBindings (publicRecord call))).run final =
        (.ok ((calls.eraseIdx current).map (Finished.saidIn final)), final) := by
    refine (mapM_run_eq_ok_iff_of_leavesMemory (fun _ => lookBindings_leavesMemory _)).mpr
      ⟨rfl, ?_⟩
    rw [others_inRoles, forall₂_map_left_iff, forall₂_map_right_iff, forall₂_same]
    intro call member
    exact looked call (mem_of_mem_eraseIdx member)
  refine ⟨calls[current], calls[current].saidIn final,
    (calls.eraseIdx current).map (Finished.saidIn final), atCurrent, ?_,
    usable.shows different (gives _ isCall) final, ?_⟩
  · rw [ensureArrangement, run_bind_of_ok failed, if_neg Bool.false_ne_true]
    dsimp only
    rw [role, run_bind_of_ok (looked _ isCall), run_bind_of_ok lookedOthers]
    rfl
  · rw [forall₂_map_right_iff, forall₂_same]
    intro call member
    exact usable.shows different (gives call (mem_of_mem_eraseIdx member)) final

end

/-!
## Faithful names are usable
-/

/-- A call whose values are all different, from each other and from those of other roles. -/
def distinctCall (names : List Text) (place : Nat) : Finished :=
  ⟨names.map fun name => (name, .ofText (UInt8.ofNat place :: name)), .nil⟩

theorem distinctCall_gives (names : List Text) (place : Nat) :
    (distinctCall names place).Gives names := by
  rw [Finished.Gives, distinctCall, map_map]
  exact .of_eq (map_id names)

section

variable {names : List Text} {depth place : Nat}

variable {key : Text}

theorem mem_record_distinctCall {text : Text} :
    (key, Value.ofText text) ∈ (distinctCall names place).record ↔
      key ∈ names ∧ key ≠ returnName ∧ text = UInt8.ofNat place :: key := by
  simp only [Finished.record, record, distinctCall, mem_cons, mem_filter, mem_map,
    bne_iff_ne]
  constructor
  · intro member
    rcases member with same | ⟨⟨name, isName, same⟩, other⟩
    · cases same
    · cases same
      exact ⟨isName, other, rfl⟩
  · intro ⟨isName, other, same⟩
    rw [same]
    exact .inr ⟨⟨key, isName, rfl⟩, other⟩

theorem exists_mem_record_distinctCall (place : Nat) (isKey : key ∈ returnName :: names) :
    ∃ value, (key, value) ∈ (distinctCall names place).record := by
  by_cases isReturn : key = returnName
  · rw [isReturn]
    exact ⟨.nil, mem_cons_self⟩
  · have isName := (mem_cons.mp isKey).resolve_left isReturn
    exact ⟨_, mem_record_distinctCall.mpr ⟨isName, isReturn, rfl⟩⟩

theorem getElem?_distinctCalls (inside : place ≤ depth) :
    ((List.range (depth + 1)).map (distinctCall names))[place]? =
      some (distinctCall names place) := by
  rw [List.getElem?_map, List.getElem?_range (Nat.lt_succ_of_le inside)]
  rfl

theorem single_of_faithful {world : World} {name : Text}
    (faithful : Faithful world names ((List.range (depth + 1)).map (distinctCall names)) 0)
    (isName : name ∈ names) :
    name ≠ returnName ∧
      (∃ condition, compile .postcondition name = .ok condition ∧ name ∈ condition.expr.names) ∧
      ∀ next mark, 0 < next → next ≤ depth → roleSuffixes[next]? = some mark →
        (Record.marked mark (distinctCall names next).record).lookup name = none := by
  have said : (name, Value.ofText (0 :: name)) ∈ (distinctCall names 0).said :=
    mem_cons_of_mem _ (mem_map_of_mem isName)
  obtain ⟨condition, label, compiled, isLabel, denotes⟩ :=
    faithful.named 0 _ (getElem?_distinctCalls (Nat.zero_le depth)) name _ said
  obtain ⟨place, role, suffix, atRole, atSuffix, found, later⟩ :=
    lookup_bindings_iff.mp (denotes_iff.mp denotes)
  -- The value is found in a role, and by its bytes this is the first one.
  have inside : place < 3 := (List.getElem?_eq_some_iff.mp atSuffix).1
  have within : place ≤ depth := by
    have := (List.getElem?_eq_some_iff.mp atRole).1
    simp only [length_map, length_range] at this
    omega
  rw [List.getElem?_map, getElem?_distinctCalls within] at atRole
  cases atRole
  obtain ⟨⟨key, value⟩, held, same⟩ := mem_map.mp (Bindings.mem_of_lookup found)
  cases same
  obtain ⟨_, noReturn, bytes⟩ := mem_record_distinctCall.mp held
  obtain ⟨tag, rfl⟩ := List.cons.inj bytes
  obtain rfl : place = 0 := by
    obtain rfl | rfl | rfl : place = 0 ∨ place = 1 ∨ place = 2 := by omega
    · rfl
    · cases tag
    · cases tag
  cases atSuffix
  rw [marked, replicate_zero, append_nil] at compiled
  refine ⟨noReturn, ⟨condition, compiled, ?_⟩, ?_⟩
  · rw [isLabel, append_nil]
    exact mem_singleton_self _
  · intro next mark positive within atMark
    have absent := later next (distinctCall names next).record mark positive ?_ atMark
    · rwa [append_nil] at absent
    · rw [List.getElem?_map, getElem?_distinctCalls within]
      rfl

theorem usable_of_faithful {world : World}
    (faithful : Faithful world names ((List.range (depth + 1)).map (distinctCall names)) 0) :
    Usable names depth := by
  have nameable (name : Text) (isName : name ∈ names) : Nameable name ∧ name ≠ returnWord := by
    obtain ⟨_, ⟨condition, compiled, inExpr⟩, _⟩ := single_of_faithful faithful isName
    obtain ⟨nameable, run, inName, spelled⟩ :=
      Condition.exists_markedWord_of_compile compiled inExpr
    refine ⟨nameable, ?_⟩
    intro isReturn
    -- The word is a single run, and its spelling is another one.
    rw [isReturn, Condition.markedWords_of_forall (Text.forall_mem rfl),
      mem_singleton] at inName
    rw [isReturn, inName] at spelled
    cases spelled
  constructor
  · intro name isName
    exact (nameable name isName).1
  · intro name isName
    exact ⟨(nameable name isName).2, (single_of_faithful faithful isName).1⟩
  · intro name isName other isOther suffix later same
    obtain ⟨place, positive, within, atSuffix⟩ := mem_laterSuffixes_iff.mp later
    have absent := (single_of_faithful faithful isName).2.2 place suffix positive within
      atSuffix
    obtain ⟨value, held⟩ := exists_mem_record_distinctCall place isOther
    rw [same, lookup_marked, lookup_eq_none_iff] at absent
    exact bne_iff_ne.mp (absent _ held) rfl

end

/-- Names in postconditions mean what the calls in their roles say, for all calls of a function,
exactly when the names of its parameters are usable. -/
theorem role_names_faithful_iff {signature : Signature} {labels : Option (List Text)}
    {changes : List (Text × List ParameterOption)} {parameters : Parameters}
    (declared : Parameters.declare signature labels changes = .ok parameters) {depth : Nat}
    (shallow : depth ≤ 2) (world : World) :
    (∀ (calls : List Finished) (current : Nat), calls.length = depth + 1 →
      current < calls.length → (∀ call ∈ calls, call.Gives parameters.names) →
        Faithful world parameters.names calls current) ↔
      Usable parameters.names depth := by
  have different := (Parameters.declare_eq_ok declared).1
  constructor
  · intro faithful
    refine usable_of_faithful (faithful _ 0 ?_ ?_ ?_)
    · rw [List.length_map, List.length_range]
    · rw [List.length_map, List.length_range]
      exact Nat.succ_pos depth
    · intro call member
      obtain ⟨place, _, rfl⟩ := List.mem_map.mp member
      exact distinctCall_gives parameters.names place
  · intro usable calls current count inside gives
    constructor
    · intro place call atCall word value said
      exact usable.named different shallow count gives world current atCall said
    · intro source condition compiled deep label member
      exact usable.written different shallow count gives world current compiled deep member
    · intro name scope condition memory final failed
      exact usable.reported different gives inside failed

def adding : Signature := ⟨[.wordInt, .wordInt], false, [.wordInt], false⟩

def added (first second : Text) (left right : Int) : Finished :=
  ⟨[(first, .ofWord left), (second, .ofWord right)], .ofWord (left + right)⟩

/-- A longer name may begin like the spelling of another one in a role. -/
theorem role_names_faithful_iff_longer :
    ∃ parameters,
      Parameters.declare adding (some ["x", "x__BACKTICK__y"]) [] = .ok parameters ∧
        Usable parameters.names 2 ∧
        Faithful ⟨Sample.host, []⟩ parameters.names
          [added "x" "x__BACKTICK__y" 1 2, added "x__BACKTICK__y" "x" 3 4,
            added "x" "x__BACKTICK__y" 5 6] 1 := by
  have declared : ∃ parameters,
      Parameters.declare adding (some ["x", "x__BACKTICK__y"]) [] = .ok parameters ∧
        parameters.names = ["x", "x__BACKTICK__y"] := ⟨_, rfl, rfl⟩
  obtain ⟨parameters, declared, same⟩ := declared
  have usable : Usable parameters.names 2 := by
    rw [same]
    decide
  refine ⟨parameters, declared, usable, ?_⟩
  refine (role_names_faithful_iff declared (by decide) _).mpr usable _ 1 rfl (by decide) ?_
  rw [same]
  exact List.forall_mem_cons.mpr ⟨.refl _, List.forall_mem_cons.mpr ⟨.swap _ _ _,
    List.forall_mem_cons.mpr ⟨.refl _, List.forall_mem_nil _⟩⟩⟩

/-- A parameter spelled like another one with its backtick means the argument of another call. -/
theorem spelled_mark_hides_parameter :
    ∃ parameters condition,
      Parameters.declare adding (some ["x", "x__BACKTICK__"]) [] = .ok parameters ∧
        parameters.names = ["x", "x__BACKTICK__"] ∧
        compile .postcondition "x__BACKTICK__ == 2 or x` == 99" = .ok condition ∧
        condition.depth = 1 ∧
        (Condition.holds ⟨Sample.host, []⟩ (Condition.Scope.root.push
          (inRoles [added "x" "x__BACKTICK__" 3 2, added "x" "x__BACKTICK__" 1 2] 0).bindings)
            condition).run .empty = (.ok false, .empty) := by
  exact ⟨_, _, rfl, rfl, rfl, rfl, rfl⟩

end Covenant.Contract
