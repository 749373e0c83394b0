import Covenant.Proofs.Keys
import Covenant.Proofs.Outcome
import Covenant.Sample
import Covenant.Value.Conversion

/-!
# Collections in other types

A list converts item by item and keeps every item. A dictionary keeps every entry exactly when its
keys stay apart: keys that become one key leave one entry, and which one depends on the order of the
entries.
-/

set_option autoImplicit false

namespace Covenant

open List

variable {target type element : HostType} {value : Value} {types : HostType × HostType}
  {items : List Value} {entries : List (Value × Value)}

/-!
## Places of a type
-/

def HostType.itemType? (type : HostType) : Option HostType :=
  match type.underlying with
  | .slice element | .array _ element => some element
  | _ => none

def HostType.entryTypes? (type : HostType) : Option (HostType × HostType) :=
  match type.underlying with
  | .map key element => some (key, element)
  | _ => none

/-- Whether a type takes as many items; arrays have a fixed length. -/
def HostType.admits (type : HostType) (count : Nat) : Bool :=
  match type.underlying with
  | .array length _ => count = length
  | _ => true

def Host.Fits (host : Host) (type : HostType) (value : Value) : Prop :=
  value.type?.elim (type.isInterface = true) fun own =>
    own = type ∨ (type.isInterface = true ∧ host.implements own type = true)

/-- What a place of a type holds after a value was converted into it. -/
def Value.storeIn? (host : Host) (target : HostType) (value : Value) : Option Value :=
  (value.convert host target).toOption.map (·.retype target)

variable {host : Host} {own : HostType}

theorem Value.storeIn?_eq_some_iff {stored : Value} :
    value.storeIn? host target = some stored ↔
      ∃ converted, value.convert host target = .ok converted ∧
        converted.retype target = stored := by
  unfold storeIn?
  cases value.convert host target with
  | error failure => exact ⟨nofun, nofun⟩
  | ok converted =>
    constructor
    · intro stored
      exact ⟨converted, rfl, Option.some.inj stored⟩
    · rintro ⟨_, same, rfl⟩
      cases same
      rfl

theorem Value.convert_of_assignable (typed : value.type? = some own)
    (fits : host.assignable own target = true) :
    value.convert host target = .ok value := by
  cases value with
  | nil => cases typed
  | _ =>
    cases typed
    simp [convert, assigned, type?, fits]

theorem Value.retype_of_type (typed : value.type? = some own) :
    value.retype own = value := by
  unfold retype
  split
  · rfl
  · cases value <;> cases typed <;> rfl

theorem Value.retype_of_interface
    (interface : target.isInterface = true) : value.retype target = value := by
  unfold retype
  rw [if_pos interface]

theorem HostType.hasNil_of_isInterface (interface : type.isInterface = true) :
    type.hasNil = true := by
  unfold isInterface at interface
  unfold hasNil
  split at interface <;> simp_all

theorem Host.assignable_self (host : Host) (type : HostType) :
    host.assignable type type = true := by
  simp [assignable]

theorem Host.Fits.storeIn?_eq (fits : host.Fits type value) :
    value.storeIn? host type = some value := by
  unfold Fits at fits
  rw [Value.storeIn?_eq_some_iff]
  cases typed : value.type? with
  | none =>
    rw [typed] at fits
    cases value with
    | nil =>
      have interface : type.isInterface = true := fits
      refine ⟨.nil, ?_, Value.retype_of_interface interface⟩
      rw [Value.convert, if_pos (HostType.hasNil_of_isInterface interface), Value.zeroNil,
        if_pos interface]
    | _ => cases typed
  | some own =>
    rw [typed] at fits
    rcases fits with rfl | ⟨interface, implements⟩
    · exact ⟨value, Value.convert_of_assignable typed (host.assignable_self own),
        Value.retype_of_type typed⟩
    · refine ⟨value, Value.convert_of_assignable typed ?_, Value.retype_of_interface interface⟩
      simp [assignable, interface, implements]

theorem Host.underlying_of_assignable {source : HostType}
    (assignable : host.assignable source target = true) (plain : target.isInterface = false) :
    source.underlying = target.underlying := by
  simp only [Host.assignable, plain, Bool.false_and, Bool.or_false, Bool.or_eq_true,
    decide_eq_true_eq, Bool.and_eq_true] at assignable
  rcases assignable with rfl | ⟨⟨same, _⟩, _⟩
  · rfl
  · exact same

theorem HostType.underlying_of_itemType? (items : type.itemType? = some element) :
    type.underlying = .slice element ∨ ∃ length, type.underlying = .array length element := by
  unfold itemType? at items
  split at items
  · next slice =>
    cases items
    exact .inl slice
  · next array =>
    cases items
    exact .inr ⟨_, array⟩
  · cases items

theorem HostType.underlying_of_entryTypes?
    (entries : type.entryTypes? = some types) : type.underlying = .map types.1 types.2 := by
  unfold entryTypes? at entries
  split at entries
  · next map =>
    cases entries
    exact map
  · cases entries

theorem HostType.isInterface_of_itemType?
    (items : type.itemType? = some element) : type.isInterface = false := by
  rcases underlying_of_itemType? items with shape | ⟨_, shape⟩
  · rw [isInterface, shape]
  · rw [isInterface, shape]

theorem HostType.isInterface_of_entryTypes?
    (entries : type.entryTypes? = some types) : type.isInterface = false := by
  rw [isInterface, underlying_of_entryTypes? entries]

theorem HostType.itemType?_of_entryTypes?
    (entries : type.entryTypes? = some types) : type.itemType? = none := by
  rw [itemType?, underlying_of_entryTypes? entries]

/-!
## Conversions of collections
-/

section

variable {host : Host} {target : HostType}

theorem Value.convertItems_eq_ok_iff {position : Nat} {results : List Value} :
    Value.convertItems host target position items = .ok results ↔
      List.Forall₂ (fun item result => item.storeIn? host target = some result) items results := by
  induction items generalizing position results with
  | nil =>
    rw [convertItems, forall₂_nil_left_iff, Except.ok.injEq]
    exact eq_comm
  | cons item items ih =>
    rw [convertItems, forall₂_cons_left_iff]
    constructor
    · intro converted
      obtain ⟨first, own, converted⟩ := bind_eq_ok_iff.mp converted
      obtain ⟨others, rest, converted⟩ := bind_eq_ok_iff.mp converted
      cases converted
      exact ⟨first.retype target, others,
        storeIn?_eq_some_iff.mpr ⟨first, mapError_eq_ok_iff.mp own, rfl⟩, ih.mp rest, rfl⟩
    · rintro ⟨first, others, own, rest, rfl⟩
      obtain ⟨converted, succeeded, rfl⟩ := storeIn?_eq_some_iff.mp own
      exact bind_eq_ok_iff.mpr ⟨converted, mapError_eq_ok_iff.mpr succeeded,
        bind_eq_ok_iff.mpr ⟨others, ih.mpr rest, rfl⟩⟩

end

def StoresEntry (host : Host) (types : HostType × HostType) (entry stored : Value × Value) : Prop :=
  entry.1.storeIn? host types.1 = some stored.1 ∧ entry.2.storeIn? host types.2 = some stored.2

theorem Value.convertEntries_eq_ok_iff {done results : List (Value × Value)} :
    Value.convertEntries host types.1 types.2 done entries = .ok results ↔
      ∃ stored, List.Forall₂ (StoresEntry host types) entries stored ∧
        gather done stored = results := by
  induction entries generalizing done with
  | nil =>
    rw [convertEntries, Except.ok.injEq]
    constructor
    · rintro rfl
      exact ⟨[], .nil, rfl⟩
    · rintro ⟨stored, none, rfl⟩
      cases none
      rfl
  | cons entry entries ih =>
    obtain ⟨key, value⟩ := entry
    rw [convertEntries]
    constructor
    · intro converted
      obtain ⟨newKey, ofKey, converted⟩ := bind_eq_ok_iff.mp converted
      obtain ⟨newValue, ofValue, converted⟩ := bind_eq_ok_iff.mp converted
      obtain ⟨stored, others, gathered⟩ := ih.mp converted
      refine ⟨(newKey.retype types.1, newValue.retype types.2) :: stored, .cons ⟨?_, ?_⟩ others,
        gathered⟩
      · exact storeIn?_eq_some_iff.mpr ⟨newKey, mapError_eq_ok_iff.mp ofKey, rfl⟩
      · exact storeIn?_eq_some_iff.mpr ⟨newValue, mapError_eq_ok_iff.mp ofValue, rfl⟩
    · rintro ⟨stored, stores, gathered⟩
      cases stores with
      | @cons _ new _ stored own others =>
        obtain ⟨newKey, ofKey, keySame⟩ := storeIn?_eq_some_iff.mp own.1
        obtain ⟨newValue, ofValue, valueSame⟩ := storeIn?_eq_some_iff.mp own.2
        refine bind_eq_ok_iff.mpr ⟨newKey, mapError_eq_ok_iff.mpr ofKey, ?_⟩
        refine bind_eq_ok_iff.mpr ⟨newValue, mapError_eq_ok_iff.mpr ofValue, ?_⟩
        rw [keySame, valueSame]
        exact ih.mpr ⟨stored, others, gathered⟩

section

variable {host : Host} {type target : HostType} {object : ObjectId} {result : Value}

variable {element : HostType} {items : List Value} {entries : List (Value × Value)}

theorem Value.items?_retype_list :
    ((Value.list type object items).retype target).items? = some items := by
  unfold retype
  split <;> rfl

theorem Value.entries?_retype_dict :
    ((Value.dict type object entries).retype target).entries? = some entries := by
  unfold retype
  split <;> rfl

/-- A value that can be assigned is kept, and a pointer is made where one is wanted. -/
theorem Value.assigned_eq_ok {value : Value} {otherwise : Except Failure Value}
    (succeeded : value.assigned host target otherwise = .ok result) :
    (host.assignable (value.type?.getD .any) target = true ∧ result = value) ∨
      (∃ inner, target.underlying = .pointer inner) ∨ otherwise = .ok result := by
  unfold assigned at succeeded
  dsimp only at succeeded
  split at succeeded
  · next kept => exact .inl ⟨kept, (Except.ok.inj succeeded).symm⟩
  · split at succeeded
    · next inner pointer => exact .inr (.inl ⟨inner, pointer⟩)
    · exact .inr (.inr succeeded)

/-- What a list becomes in a type that it cannot be assigned to. -/
def Value.convertList (host : Host) (target : HostType) (items : List Value) (failure : Failure) :
    Except Failure Value :=
  match target.underlying with
  | .slice element => do
    let items ← Value.convertItems host element 0 items
    return .list target 0 items
  | .array length element =>
    if items.length = length then do
      let items ← Value.convertItems host element 0 items
      return .list target 0 items
    else .error failure
  | _ => .error failure

theorem Value.convertList_eq_ok_iff {failure : Failure} :
    convertList host target items failure = .ok result ↔
      ∃ element results, target.itemType? = some element ∧ target.admits items.length = true ∧
        List.Forall₂ (fun item stored => item.storeIn? host element = some stored) items results ∧
        result = .list target 0 results := by
  have each (element : HostType) :
      (do let items ← convertItems host element 0 items; return list target 0 items) =
          Except.ok result ↔
        ∃ results, List.Forall₂ (fun item stored => item.storeIn? host element = some stored)
          items results ∧ result = .list target 0 results := by
    rw [bind_eq_ok_iff]
    refine exists_congr fun results => and_congr convertItems_eq_ok_iff ?_
    exact ⟨fun returned => (Except.ok.inj returned).symm, fun same => congrArg _ same.symm⟩
  unfold convertList HostType.itemType? HostType.admits
  cases target.underlying with
  | slice element =>
    refine (each element).trans ?_
    simp
  | array length element =>
    dsimp only
    split
    · next counted =>
      rw [each]
      simp [counted]
    · next different => simp [different]
  | _ => simp

theorem Value.convert_list :
    (Value.list type object items).convert host target =
      (Value.list type object items).assigned host target
        (convertList host target items ((Value.list type object items).refusal target "")) := by
  rw [convert]
  rfl

/-- What a dictionary becomes in a type that it cannot be assigned to. -/
def Value.convertDict (host : Host) (target : HostType) (entries : List (Value × Value))
    (failure : Failure) : Except Failure Value :=
  match target.underlying with
  | .map key element => do
    let entries ← Value.convertEntries host key element [] entries
    return .dict target 0 entries
  | _ => .error failure

theorem Value.convertDict_eq_ok_iff {failure : Failure} :
    convertDict host target entries failure = .ok result ↔
      ∃ types stored, target.entryTypes? = some types ∧
        List.Forall₂ (StoresEntry host types) entries stored ∧
        result = .dict target 0 (gather [] stored) := by
  unfold convertDict HostType.entryTypes?
  cases target.underlying with
  | map key element =>
    dsimp only
    rw [bind_eq_ok_iff]
    constructor
    · rintro ⟨results, converted, returned⟩
      cases returned
      obtain ⟨stored, stores, rfl⟩ := (@convertEntries_eq_ok_iff (key, element)).mp converted
      exact ⟨_, stored, rfl, stores, rfl⟩
    · rintro ⟨_, stored, ⟨⟩, stores, rfl⟩
      exact ⟨_, convertEntries_eq_ok_iff.mpr ⟨stored, stores, rfl⟩, rfl⟩
  | _ => simp

theorem Value.convert_dict :
    (Value.dict type object entries).convert host target =
      (Value.dict type object entries).assigned host target
        (convertDict host target entries ((Value.dict type object entries).refusal target "")) := by
  rw [convert]
  rfl

variable {converted : Value}

theorem Value.items?_of_absent {own : HostType} (slice : type.underlying = .slice own)
    (items : target.itemType? = some element)
    (succeeded : (Value.absent type).convert host target = .ok converted) :
    (converted.retype target).items? = some [] := by
  have plain := HostType.isInterface_of_itemType? items
  simp only [convert, assigned, type?, Option.getD_some] at succeeded
  cases assignable : host.assignable type target with
  | true =>
    have same := Host.underlying_of_assignable assignable plain
    simp only [assignable, if_true, Except.ok.injEq] at succeeded
    rw [← succeeded, retype, plain, if_neg Bool.false_ne_true, items?, ← same, slice]
  | false =>
    simp only [assignable, Bool.false_eq_true, if_false, slice] at succeeded
    rcases HostType.underlying_of_itemType? items with shape | ⟨length, shape⟩
    · simp only [shape, Except.ok.injEq] at succeeded
      rw [← succeeded, items?_retype_list]
    · cases length with
      | zero =>
        simp only [shape, Except.ok.injEq] at succeeded
        rw [← succeeded, items?_retype_list]
      | succ length => simp [shape] at succeeded

theorem Value.entries?_of_absent {key : HostType} (map : type.underlying = .map key element)
    (entries : target.entryTypes? = some types)
    (succeeded : (Value.absent type).convert host target = .ok converted) :
    (converted.retype target).entries? = some [] := by
  have plain := HostType.isInterface_of_entryTypes? entries
  simp only [convert, assigned, type?, Option.getD_some] at succeeded
  cases assignable : host.assignable type target with
  | true =>
    have same := Host.underlying_of_assignable assignable plain
    simp only [assignable, if_true, Except.ok.injEq] at succeeded
    rw [← succeeded, retype, plain, if_neg Bool.false_ne_true, entries?, ← same, map]
  | false =>
    simp only [assignable, Bool.false_eq_true, if_false, map,
      HostType.underlying_of_entryTypes? entries, Except.ok.injEq] at succeeded
    rw [← succeeded, entries?_retype_dict]

end

/-!
## What is lost
-/

def Value.parts (value : Value) : List Value :=
  value.items?.getD [] ++ (value.entries?.getD []).flatMap fun entry => [entry.1, entry.2]

/-- A collection whose items, keys and values fit its type, with keys apart. -/
structure Value.Typed (host : Host) (value : Value) : Prop where
  items : ∀ type ∈ value.type?, ∀ element ∈ type.itemType?, ∀ items ∈ value.items?,
    ∀ item ∈ items, host.Fits element item
  entries : ∀ type ∈ value.type?, ∀ types ∈ type.entryTypes?, ∀ entries ∈ value.entries?,
    ∀ entry ∈ entries, host.Fits types.1 entry.1 ∧ host.Fits types.2 entry.2
  keys : ∀ entries ∈ value.entries?, (entries.map (·.1)).Pairwise Value.Apart

/-- Values as the host makes them: typed at every depth. -/
inductive Value.WellTyped (host : Host) : Value → Prop where
  | intro {value : Value} (itself : value.Typed host)
      (within : ∀ part ∈ value.parts, part.WellTyped host) : value.WellTyped host

theorem Value.WellTyped.of_plain (noItems : value.items? = none)
    (noEntries : value.entries? = none) : value.WellTyped host := by
  refine ⟨⟨?_, ?_, ?_⟩, ?_⟩
  · intro _ _ _ _ items listed
    cases noItems.symm.trans listed
  · intro _ _ _ _ entries listed
    cases noEntries.symm.trans listed
  · intro entries listed
    cases noEntries.symm.trans listed
  · intro part member
    rw [parts, noItems, noEntries] at member
    cases member

/-- A value that is converted into a place of a type, and what is stored there. -/
structure Conversion where
  target : HostType
  value : Value
  stored : Value

namespace Conversion

section

variable (host : Host)

def Succeeds (conversion : Conversion) : Prop :=
  conversion.value.storeIn? host conversion.target = some conversion.stored

/-- Each item is converted in its place, and each entry is the conversion of another one. -/
structure LosesNothing (conversion : Conversion) : Prop where
  items : ∀ element ∈ conversion.target.itemType?, ∀ items ∈ conversion.value.items?,
    ∃ results, conversion.stored.items? = some results ∧
      List.Forall₂ (fun item result => Succeeds host ⟨element, item, result⟩) items results
  entries : ∀ types ∈ conversion.target.entryTypes?, ∀ entries ∈ conversion.value.entries?,
    ∃ results matched, conversion.stored.entries? = some results ∧ matched.Perm results ∧
      List.Forall₂ (StoresEntry host types) entries matched

/-- No two keys of a dictionary become one. -/
def KeysApart (conversion : Conversion) : Prop :=
  ∀ types ∈ conversion.target.entryTypes?, ∀ entries ∈ conversion.value.entries?,
    (entries.filterMap fun entry => entry.1.storeIn? host types.1).Pairwise Value.Apart

/-- The conversions that a conversion is directly made of. -/
inductive Part (whole : Conversion) : Conversion → Prop where
  | item {element item stored : _} {items : List Value}
      (typed : whole.target.itemType? = some element) (listed : whole.value.items? = some items)
      (member : item ∈ items) (done : Succeeds host ⟨element, item, stored⟩) :
      Part whole ⟨element, item, stored⟩
  | key {types : HostType × HostType} {entry : Value × Value} {stored : Value}
      {entries : List (Value × Value)} (typed : whole.target.entryTypes? = some types)
      (listed : whole.value.entries? = some entries) (member : entry ∈ entries)
      (done : Succeeds host ⟨types.1, entry.1, stored⟩) : Part whole ⟨types.1, entry.1, stored⟩
  | value {types : HostType × HostType} {entry : Value × Value} {stored : Value}
      {entries : List (Value × Value)} (typed : whole.target.entryTypes? = some types)
      (listed : whole.value.entries? = some entries) (member : entry ∈ entries)
      (done : Succeeds host ⟨types.2, entry.2, stored⟩) : Part whole ⟨types.2, entry.2, stored⟩

def Throughout (holds : Conversion → Prop) (whole : Conversion) : Prop :=
  ∀ part, Relation.ReflTransGen (Part host) whole part → holds part

end

variable {host : Host}

variable {holds : Conversion → Prop} {whole conversion : Conversion} {types : HostType × HostType}
  {entries : List (Value × Value)}

theorem Throughout.part {part : Conversion} (throughout : whole.Throughout host holds)
    (inside : Part host whole part) : part.Throughout host holds :=
  fun deeper below => throughout deeper (.head inside below)

theorem Throughout.of_parts (itself : holds whole)
    (parts : ∀ part, Part host whole part → part.Throughout host holds) :
    whole.Throughout host holds := by
  intro part inside
  cases Relation.ReflTransGen.cases_head inside with
  | inl same => exact same ▸ itself
  | inr further =>
    obtain ⟨next, first, rest⟩ := further
    exact parts next first part rest

theorem throughout_keysApart_of_plain (wanted : whole.target.entryTypes? = some types)
    (plainKeys : types.1.itemType? = none ∧ types.1.entryTypes? = none)
    (plainValues : types.2.itemType? = none ∧ types.2.entryTypes? = none)
    (apart : whole.KeysApart host) : whole.Throughout host (KeysApart host) := by
  have plain {part : Conversion}
      (plain : part.target.itemType? = none ∧ part.target.entryTypes? = none) :
      part.Throughout host (KeysApart host) := by
    apply Throughout.of_parts
    · intro types typed
      cases plain.2.symm.trans typed
    · intro deeper inside
      cases inside with
      | item typed => cases plain.1.symm.trans typed
      | key typed => cases plain.2.symm.trans typed
      | value typed => cases plain.2.symm.trans typed
  apply Throughout.of_parts apart
  intro part inside
  cases inside with
  | item typed => cases (HostType.itemType?_of_entryTypes? wanted).symm.trans typed
  | key typed =>
    cases wanted.symm.trans typed
    exact plain plainKeys
  | value typed =>
    cases wanted.symm.trans typed
    exact plain plainValues

theorem Part.succeeds {part : Conversion} (inside : Part host whole part) : part.Succeeds host := by
  cases inside with
  | item _ _ _ done => exact done
  | key _ _ _ done => exact done
  | value _ _ _ done => exact done

theorem Part.value_mem {part : Conversion} (inside : Part host whole part) :
    part.value ∈ whole.value.parts := by
  unfold Value.parts
  cases inside with
  | item _ listed member =>
    rw [listed]
    exact mem_append_left _ member
  | key _ listed member =>
    rw [listed]
    exact mem_append_right _ (mem_flatMap.mpr ⟨_, member, mem_cons_self⟩)
  | value _ listed member =>
    rw [listed]
    refine mem_append_right _ (mem_flatMap.mpr ⟨_, member, ?_⟩)
    exact mem_cons_of_mem _ mem_cons_self

theorem keys_of_stores {stored : List (Value × Value)}
    (stores : List.Forall₂ (StoresEntry host types) entries stored) :
    (entries.filterMap fun entry => entry.1.storeIn? host types.1) = stored.map (·.1) := by
  induction stores with
  | nil => rfl
  | cons own _ ih => simp only [filterMap_cons, own.1, map_cons, ih]

theorem forall₂_storeIn?_of_fits (fits : ∀ item ∈ items, host.Fits element item) :
    List.Forall₂ (fun item result => Succeeds host ⟨element, item, result⟩) items items :=
  forall₂_same.mpr fun item member => (fits item member).storeIn?_eq

theorem forall₂_storesEntry_of_fits
    (fits : ∀ entry ∈ entries, host.Fits types.1 entry.1 ∧ host.Fits types.2 entry.2) :
    List.Forall₂ (StoresEntry host types) entries entries :=
  forall₂_same.mpr fun entry member =>
    ⟨(fits entry member).1.storeIn?_eq, (fits entry member).2.storeIn?_eq⟩

section

variable {type target : HostType} {object : ObjectId} {stored : Value}

theorem itemType?_of_assignable (assignable : host.assignable type target = true)
    (wanted : target.itemType? = some element) :
    type.itemType? = some element := by
  have same :=
    Host.underlying_of_assignable assignable (HostType.isInterface_of_itemType? wanted)
  rw [← wanted, HostType.itemType?, same]
  rfl

theorem entryTypes?_of_assignable (assignable : host.assignable type target = true)
    (wanted : target.entryTypes? = some types) :
    type.entryTypes? = some types := by
  have same :=
    Host.underlying_of_assignable assignable (HostType.isInterface_of_entryTypes? wanted)
  rw [← wanted, HostType.entryTypes?, same]
  rfl

theorem losesNothing_list (typed : (Value.list type object items).Typed host)
    (done : (Value.list type object items).storeIn? host target = some stored) :
    LosesNothing host ⟨target, .list type object items, stored⟩ := by
  refine ⟨?_, nofun⟩
  rintro element wanted _ ⟨⟩
  obtain ⟨converted, succeeded, rfl⟩ := Value.storeIn?_eq_some_iff.mp done
  rw [Value.convert_list] at succeeded
  rcases Value.assigned_eq_ok succeeded with ⟨assignable, rfl⟩ | ⟨inner, pointer⟩ | succeeded
  · refine ⟨items, Value.items?_retype_list, forall₂_storeIn?_of_fits ?_⟩
    exact typed.items type rfl element (itemType?_of_assignable assignable wanted) items rfl
  · change target.itemType? = some element at wanted
    rw [HostType.itemType?, pointer] at wanted
    cases wanted
  · obtain ⟨_, results, found, _, stores, rfl⟩ := Value.convertList_eq_ok_iff.mp succeeded
    cases found.symm.trans wanted
    exact ⟨results, Value.items?_retype_list, stores⟩

theorem losesNothing_dict_iff (typed : (Value.dict type object entries).Typed host)
    (done : (Value.dict type object entries).storeIn? host target = some stored) :
    LosesNothing host ⟨target, .dict type object entries, stored⟩ ↔
      KeysApart host ⟨target, .dict type object entries, stored⟩ := by
  obtain ⟨converted, succeeded, rfl⟩ := Value.storeIn?_eq_some_iff.mp done
  rw [Value.convert_dict] at succeeded
  rcases Value.assigned_eq_ok succeeded with ⟨assignable, rfl⟩ | ⟨inner, pointer⟩ | succeeded
  · have itself (types : HostType × HostType) (wanted : target.entryTypes? = some types) :
        List.Forall₂ (StoresEntry host types) entries entries :=
      forall₂_storesEntry_of_fits
        (typed.entries type rfl types (entryTypes?_of_assignable assignable wanted) entries rfl)
    refine iff_of_true ⟨nofun, ?_⟩ ?_
    · rintro types wanted _ ⟨⟩
      exact ⟨entries, entries, Value.entries?_retype_dict, .refl _, itself types wanted⟩
    · rintro types wanted _ ⟨⟩
      rw [keys_of_stores (itself types wanted)]
      exact typed.keys entries rfl
  · have none : target.entryTypes? = none := by rw [HostType.entryTypes?, pointer]
    refine iff_of_true ⟨nofun, ?_⟩ ?_
    · intro types wanted
      cases none.symm.trans wanted
    · intro types wanted
      cases none.symm.trans wanted
  · obtain ⟨types, added, found, stores, rfl⟩ := Value.convertDict_eq_ok_iff.mp succeeded
    constructor
    · rintro kept types wanted _ ⟨⟩
      cases found.symm.trans wanted
      obtain ⟨results, matched, same, order, other⟩ := kept.entries types wanted entries rfl
      rw [keys_of_stores stores]
      change ((Value.dict target 0 (gather [] added)).retype target).entries? = some results at same
      rw [Value.entries?_retype_dict] at same
      cases same
      have counted : (gather [] added).length = added.length := by
        rw [← order.length_eq, ← other.length_eq, stores.length_eq]
      exact apart_of_length_gather .nil (by rw [counted, length_nil, Nat.zero_add])
    · intro apart
      refine ⟨nofun, ?_⟩
      rintro types wanted _ ⟨⟩
      cases found.symm.trans wanted
      have keys := apart types wanted entries rfl
      rw [keys_of_stores stores] at keys
      refine ⟨added, added, ?_, .refl _, stores⟩
      change ((Value.dict target 0 (gather [] added)).retype target).entries? = some added
      rw [Value.entries?_retype_dict, gather_nil_of_apart keys]

theorem losesNothing_absent (done : (Value.absent type).storeIn? host target = some stored) :
    LosesNothing host ⟨target, .absent type, stored⟩ := by
  obtain ⟨converted, succeeded, rfl⟩ := Value.storeIn?_eq_some_iff.mp done
  constructor
  · intro element wanted items listed
    change (Value.absent type).items? = some items at listed
    unfold Value.items? at listed
    dsimp only at listed
    split at listed
    · next slice =>
      cases listed
      exact ⟨[], Value.items?_of_absent slice wanted succeeded, .nil⟩
    · cases listed
  · intro types wanted entries listed
    change (Value.absent type).entries? = some entries at listed
    unfold Value.entries? at listed
    dsimp only at listed
    split at listed
    · next map =>
      cases listed
      exact ⟨[], [], Value.entries?_of_absent map wanted succeeded, .nil, .nil⟩
    · cases listed

theorem keysApart_absent : KeysApart host ⟨target, .absent type, stored⟩ := by
  intro types wanted entries listed
  change (Value.absent type).entries? = some entries at listed
  unfold Value.entries? at listed
  dsimp only at listed
  split at listed
  · cases listed
    exact .nil
  · cases listed

end

theorem losesNothing_iff_keysApart (typed : conversion.value.Typed host)
    (done : conversion.Succeeds host) :
    conversion.LosesNothing host ↔ conversion.KeysApart host := by
  obtain ⟨target, value, stored⟩ := conversion
  cases value with
  | list type object items => exact iff_of_true (losesNothing_list typed done) nofun
  | dict type object entries => exact losesNothing_dict_iff typed done
  | absent type => exact iff_of_true (losesNothing_absent done) keysApart_absent
  | _ => exact iff_of_true ⟨nofun, nofun⟩ nofun

theorem throughout_losesNothing_iff (typed : conversion.value.WellTyped host)
    (done : conversion.Succeeds host) :
    conversion.Throughout host fun part => part.LosesNothing host ↔ part.KeysApart host := by
  intro part inside
  have level : part.value.WellTyped host ∧ part.Succeeds host := by
    induction inside with
    | refl => exact ⟨typed, done⟩
    | tail _ next ih =>
      obtain ⟨⟨_, within⟩, _⟩ := ih
      exact ⟨within _ next.value_mem, next.succeeds⟩
  obtain ⟨⟨itself, _⟩, done⟩ := level
  exact losesNothing_iff_keysApart itself done

end Conversion

/-!
## The order of entries
-/

/-- The same value with the entries of its dictionaries in another order, at any depth. Keys hold no
dictionaries. -/
inductive Value.Reordered : Value → Value → Prop where
  | refl (value : Value) : Reordered value value
  | list {type : HostType} {object : ObjectId} {items others : List Value}
      (count : items.length = others.length)
      (each : ∀ place (left : place < items.length) (right : place < others.length),
        Reordered (items.get ⟨place, left⟩) (others.get ⟨place, right⟩)) :
      Reordered (.list type object items) (.list type object others)
  | dict {type : HostType} {object : ObjectId} {entries matched others : List (Value × Value)}
      (order : matched.Perm others) (count : entries.length = matched.length)
      (keys : ∀ place (left : place < entries.length) (right : place < matched.length),
        (entries.get ⟨place, left⟩).1 = (matched.get ⟨place, right⟩).1)
      (each : ∀ place (left : place < entries.length) (right : place < matched.length),
        Reordered (entries.get ⟨place, left⟩).2 (matched.get ⟨place, right⟩).2) :
      Reordered (.dict type object entries) (.dict type object others)
  | pointer {type : HostType} {object : ObjectId} {target other : Value}
      (inner : Reordered target other) :
      Reordered (.pointer type object target) (.pointer type object other)

namespace Value

variable {object : ObjectId} {type target : HostType} {other value : Value} {host : Host}

theorem Reordered.of_items {others : List Value} (each : List.Forall₂ Reordered items others) :
    Reordered (.list type object items) (.list type object others) := by
  obtain ⟨count, each⟩ := forall₂_iff_get.mp each
  exact .list count each

theorem Reordered.of_entries {entries matched others : List (Value × Value)}
    (order : matched.Perm others)
    (each : List.Forall₂ (fun entry other => entry.1 = other.1 ∧ entry.2.Reordered other.2)
      entries matched) : Reordered (.dict type object entries) (.dict type object others) := by
  obtain ⟨count, each⟩ := forall₂_iff_get.mp each
  exact .dict order count (fun place left right => (each place left right).1)
    fun place left right => (each place left right).2

theorem Reordered.retype (reordered : value.Reordered other) (target : HostType) :
    (value.retype target).Reordered (other.retype target) := by
  unfold Value.retype
  split
  · exact reordered
  · cases reordered with
    | refl => exact .refl _
    | list count each => exact .list count each
    | dict order count keys each => exact .dict order count keys each
    | pointer inner => exact .pointer inner

/-- A conversion that succeeds for a value succeeds alike for another one. -/
def ConvertsAlike (host : Host) (target : HostType) (value other : Value) : Prop :=
  ∀ result, value.convert host target = .ok result →
    Conversion.Throughout host (Conversion.KeysApart host) ⟨target, value, result.retype target⟩ →
    ∃ same, other.convert host target = .ok same ∧ result.Reordered same

theorem ConvertsAlike.storeIn? {stored : Value} (alike : ConvertsAlike host target value other)
    (done : value.storeIn? host target = some stored)
    (apart : Conversion.Throughout host (Conversion.KeysApart host) ⟨target, value, stored⟩) :
    ∃ same, other.storeIn? host target = some same ∧ stored.Reordered same := by
  obtain ⟨converted, succeeded, rfl⟩ := storeIn?_eq_some_iff.mp done
  obtain ⟨same, otherSucceeded, reordered⟩ := alike converted succeeded apart
  exact ⟨same.retype target, storeIn?_eq_some_iff.mpr ⟨same, otherSucceeded, rfl⟩,
    reordered.retype target⟩

/-- Lists whose elements give related results one by one give related lists of results. -/
theorem exists_forall₂_results {α β : Type} {gives : α → β → Prop} {related : β → β → Prop}
    {items others : List α} {results : List β}
    (alike : List.Forall₂ (fun item other => ∀ result, gives item result →
      ∃ same, gives other same ∧ related result same) items others)
    (given : List.Forall₂ gives items results) :
    ∃ sames, List.Forall₂ gives others sames ∧ List.Forall₂ related results sames := by
  induction alike generalizing results with
  | nil =>
    cases given
    exact ⟨[], .nil, .nil⟩
  | cons own _ ih =>
    cases given with
    | cons first rest =>
      obtain ⟨same, otherGiven, firstRelated⟩ := own _ first
      obtain ⟨sames, othersGiven, restRelated⟩ := ih rest
      exact ⟨same :: sames, .cons otherGiven othersGiven, .cons firstRelated restRelated⟩

/-- Where a value is kept or pointed to, so is the same value in another order. -/
theorem Reordered.assigned {otherwise others : Except Failure Value} {result : Value}
    (reordered : value.Reordered other) (typed : other.type? = value.type?)
    (alike : ∀ result, otherwise = .ok result →
      ∃ same, others = .ok same ∧ result.Reordered same)
    (succeeded : value.assigned host target otherwise = .ok result) :
    ∃ same, other.assigned host target others = .ok same ∧ result.Reordered same := by
  unfold Value.assigned at succeeded ⊢
  dsimp only at succeeded ⊢
  rw [typed]
  split at succeeded
  · next kept =>
    cases succeeded
    exact ⟨other, if_pos kept, reordered⟩
  · next refused =>
    rw [if_neg refused]
    split at succeeded
    · next inner pointer =>
      split at succeeded
      · next fits =>
        cases succeeded
        exact ⟨_, if_pos fits, .pointer (reordered.retype inner)⟩
      · next unfit =>
        rw [if_neg unfit]
        exact alike _ succeeded
    · exact alike _ succeeded

theorem Reordered.renamed {inner otherInner result : Value} (reordered : inner.Reordered otherInner)
    (succeeded : (Value.pointer type object inner).renamed host target = .ok result) :
    ∃ same, (Value.pointer type object otherInner).renamed host target = .ok same ∧
      result.Reordered same := by
  cases fits : host.convertible type target with
  | true =>
    have renames (inner : Value) : (Value.pointer type object inner).renamed host target =
        .ok ((Value.pointer type object inner).retype target) := by
      simp [Value.renamed, convertSameShape?, type?, fits]
    cases (renames inner).symm.trans succeeded
    exact ⟨_, renames otherInner, Reordered.retype (.pointer reordered) target⟩
  | false => simp [Value.renamed, convertSameShape?, type?, fits] at succeeded

/-- The order of entries does not matter where keys stay apart. -/
theorem Reordered.convertsAlike (reordered : value.Reordered other) (host : Host)
    (target : HostType) : ConvertsAlike host target value other := by
  induction reordered generalizing target with
  | refl value =>
    intro result succeeded _
    exact ⟨result, succeeded, .refl result⟩
  | @list type object items others count each ih =>
    intro result succeeded apart
    rw [convert_list] at succeeded ⊢
    refine Reordered.assigned (.list count each) rfl ?_ succeeded
    intro result converted
    obtain ⟨element, results, wanted, admits, stores, rfl⟩ := convertList_eq_ok_iff.mp converted
    have alike : List.Forall₂ (fun item other =>
        ∀ stored, item.storeIn? host element = some stored →
          ∃ same, other.storeIn? host element = some same ∧ stored.Reordered same)
        items others := by
      refine forall₂_iff_get.mpr ⟨count, ?_⟩
      intro place left right stored done
      refine (ih place left right element).storeIn? done (apart.part ?_)
      exact .item wanted rfl (get_mem items _) done
    obtain ⟨sames, othersDone, allReordered⟩ := exists_forall₂_results alike stores
    rw [count] at admits
    exact ⟨.list target 0 sames,
      convertList_eq_ok_iff.mpr ⟨element, sames, wanted, admits, othersDone, rfl⟩,
      .of_items allReordered⟩
  | @dict type object entries matched others order count keys each ih =>
    intro result succeeded apart
    rw [convert_dict] at succeeded ⊢
    refine Reordered.assigned (.dict order count keys each) rfl ?_ succeeded
    intro result converted
    obtain ⟨types, stored, wanted, stores, rfl⟩ := convertDict_eq_ok_iff.mp converted
    have alike : List.Forall₂ (fun entry other =>
        ∀ stored, StoresEntry host types entry stored →
          ∃ same, StoresEntry host types other same ∧
            stored.1 = same.1 ∧ stored.2.Reordered same.2) entries matched := by
      refine forall₂_iff_get.mpr ⟨count, ?_⟩
      intro place left right stored done
      obtain ⟨same, otherDone, reordered⟩ := (ih place left right types.2).storeIn? done.2
        (apart.part (.value wanted rfl (get_mem entries _) done.2))
      refine ⟨(stored.1, same), ⟨?_, otherDone⟩, rfl, reordered⟩
      exact keys place left right ▸ done.1
    obtain ⟨sames, matchedDone, allReordered⟩ := exists_forall₂_results alike stores
    -- the same entries in the order of the other dictionary
    obtain ⟨moved, othersDone, movedOrder⟩ := perm_comp_forall₂ order.symm matchedDone
    have storedApart := apart _ .refl types wanted entries rfl
    rw [Conversion.keys_of_stores stores] at storedApart
    have sameKeys : stored.map (·.1) = sames.map (·.1) := by
      rw [← forall₂_eq_eq_eq, forall₂_map_left_iff, forall₂_map_right_iff]
      exact allReordered.imp fun _ _ same => same.1
    have movedApart : (moved.map (·.1)).Pairwise Apart := by
      rw [sameKeys] at storedApart
      exact ((movedOrder.map _).pairwise_iff fun apart => apart.symm).mpr storedApart
    refine ⟨.dict target 0 (gather [] moved),
      convertDict_eq_ok_iff.mpr ⟨types, moved, wanted, othersDone, rfl⟩, ?_⟩
    rw [gather_nil_of_apart storedApart, gather_nil_of_apart movedApart]
    exact .of_entries movedOrder.symm allReordered
  | pointer inner _ =>
    intro result succeeded _
    rw [convert] at succeeded ⊢
    · exact Reordered.assigned (.pointer inner) rfl (fun _ => inner.renamed) succeeded
    all_goals nofun

/-- A value that converts keeps each item of each list in its place, and each entry of each
dictionary exactly where the keys of that dictionary stay apart. Where all keys stay apart, at every
depth, the same value with its entries in another order converts to the same result up to the order
of entries. -/
theorem collections_kept_iff_keys_apart (host : Host) (value : Value) (target : HostType)
    (result : Value) (typed : value.WellTyped host)
    (converted : value.convert host target = .ok result) :
    Conversion.Throughout host (fun part => part.LosesNothing host ↔ part.KeysApart host)
      ⟨target, value, result.retype target⟩ ∧
    (Conversion.Throughout host (Conversion.KeysApart host) ⟨target, value, result.retype target⟩ →
      ∀ other, value.Reordered other →
        ∃ same, other.convert host target = .ok same ∧ result.Reordered same) := by
  have done : value.storeIn? host target = some (result.retype target) :=
    storeIn?_eq_some_iff.mpr ⟨result, converted, rfl⟩
  refine ⟨Conversion.throughout_losesNothing_iff typed done, ?_⟩
  intro apart other reordered
  exact reordered.convertsAlike host target result converted apart

def numbered (first second : Int) : List (Value × Value) :=
  [(.ofWord first, .ofText "a"), (.ofInt second, .ofText "b")]

/-- Keys of two types that stay apart keep both entries, in either order. -/
theorem collections_kept_iff_keys_apart_numbered :
    (Value.dict .anyMap 0 (numbered 1 2)).WellTyped Sample.host ∧
      ∃ result, (Value.dict .anyMap 0 (numbered 1 2)).convert Sample.host (.map .wordInt .text) =
        .ok result ∧
      Conversion.LosesNothing Sample.host
        ⟨.map .wordInt .text, .dict .anyMap 0 (numbered 1 2), result.retype (.map .wordInt .text)⟩ ∧
      ∃ same, (Value.dict .anyMap 0 (numbered 1 2).reverse).convert Sample.host
        (.map .wordInt .text) = .ok same ∧ result.Reordered same := by
  have typed : (Value.dict .anyMap 0 (numbered 1 2)).WellTyped Sample.host := by
    refine ⟨⟨nofun, ?_, ?_⟩, ?_⟩
    · rintro _ ⟨⟩ _ ⟨⟩ _ ⟨⟩ entry member
      rcases List.mem_pair.mp member with rfl | rfl
      · exact ⟨.inr ⟨rfl, rfl⟩, .inr ⟨rfl, rfl⟩⟩
      · exact ⟨.inr ⟨rfl, rfl⟩, .inr ⟨rfl, rfl⟩⟩
    · rintro _ ⟨⟩
      exact List.pairwise_pair.mpr rfl
    · intro part member
      have plain : ∀ part ∈ (Value.dict .anyMap 0 (numbered 1 2)).parts,
          part.items? = none ∧ part.entries? = none := by
        simp [Value.parts, numbered, items?, entries?, ofWord, ofInt, ofText]
      exact .of_plain (plain part member).1 (plain part member).2
  have apart : Conversion.Throughout Sample.host (Conversion.KeysApart Sample.host)
      ⟨.map .wordInt .text, .dict .anyMap 0 (numbered 1 2), .dict (.map .wordInt .text) 0
        [(.ofWord 1, .ofText "a"), (.ofWord 2, .ofText "b")]⟩ := by
    refine Conversion.throughout_keysApart_of_plain rfl ⟨rfl, rfl⟩ ⟨rfl, rfl⟩ ?_
    rintro _ ⟨⟩ _ ⟨⟩
    exact List.pairwise_pair.mpr rfl
  obtain ⟨kept, ordered⟩ := collections_kept_iff_keys_apart Sample.host _ (.map .wordInt .text)
    (.dict (.map .wordInt .text) 0 [(.ofWord 1, .ofText "a"), (.ofWord 2, .ofText "b")]) typed rfl
  refine ⟨typed, _, rfl, (kept _ .refl).mpr (apart _ .refl), ordered apart _ ?_⟩
  exact .of_entries (List.reverse_perm _).symm (List.forall₂_same.mpr fun _ _ => ⟨rfl, .refl _⟩)

/-- Keys that become one leave one entry, the one that comes last. -/
theorem keys_that_become_one :
    (Value.dict .anyMap 0 (numbered 1 1)).convert Sample.host (.map .wordInt .text) =
        .ok (.dict (.map .wordInt .text) 0 [(.ofWord 1, .ofText "b")]) ∧
      (Value.dict .anyMap 0 (numbered 1 1).reverse).convert Sample.host (.map .wordInt .text) =
        .ok (.dict (.map .wordInt .text) 0 [(.ofWord 1, .ofText "a")]) :=
  ⟨rfl, rfl⟩

end Value

end Covenant
