import Covenant.Predicate.Generate
import Covenant.Proofs.Acceptance
import Covenant.Sample
import Mathlib.Data.List.Nodup

/-!
# Samples pass the test of their predicate

Each kind of predicate makes its samples in a way of its own: from a fixed list, from the samples of
its parts with or without a test, by pairing keys with values, or by filling arrays. Whatever way it
takes, it accepts what it generates when its parts do.
-/

set_option autoImplicit false

namespace Covenant

open List

variable {shape : List Int}

attribute [local simp] Predicate.generate Predicate.test

def Predicate.AcceptsSamples (world : World) (predicate : Predicate) : Prop :=
  ∀ samples, predicate.generate world = .ok samples →
    ∀ sample ∈ samples, predicate.test world sample = .ok ()

variable {predicate : Predicate} {world : World} {sample : Value} {dimensions : Nat}
  {kind : Float → Prop} {predicates members : List Predicate} {missing : Text → Failure}
  {entries : List (Value × Value)} {declared : List (Text × Predicate)} {allMandatory : Bool}

theorem Predicate.AcceptsSamples.of_ok {own : List Value}
    (fixed : predicate.generate world = .ok own)
    (accepted : ∀ sample ∈ own, predicate.test world sample = .ok ()) :
    predicate.AcceptsSamples world := by
  intro samples generated
  rw [fixed] at generated
  cases generated
  exact accepted

theorem Predicate.AcceptsSamples.of_error {failure : Failure}
    (failed : predicate.generate world = .error failure) : predicate.AcceptsSamples world := by
  intro samples generated
  rw [failed] at generated
  cases generated

/-!
## Numbers and texts
-/

theorem NumberClass.test_samples (family : NumberClass) (member : sample ∈ family.samples) :
    family.test sample = .ok () := by
  have all : [numeric, extendedReal, number, integer, natural0, natural1, positive0,
      positive].all (fun family =>
        family.samples.all (fun sample => (family.test sample).isOk)) = true := by
    decide +kernel
  simp only [all_eq_true] at all
  exact isOk_iff.mp (all family (by cases family <;> simp) sample member)

theorem TextClass.test_sampleTexts (family : TextClass) {bytes : Text}
    (member : bytes ∈ family.sampleTexts) : family.test (.ofText bytes) = .ok () := by
  have all : [text, identifier, alphanumeric, latin].all (fun family =>
      family.sampleTexts.all (fun bytes => (family.test (.ofText bytes)).isOk)) = true := by
    decide +kernel
  simp only [all_eq_true] at all
  exact isOk_iff.mp (all family (by cases family <;> simp) bytes member)

theorem Interval.test_samples {interval : Interval} {low high : Float}
    (member : sample ∈ interval.samples low high) : interval.test low high sample = .ok () :=
  isOk_iff.mp (mem_filter.mp member).2

/-!
## Arrays
-/

theorem filledArray_eq_ok {number : Float} (filled : filledArray shape number = .ok sample) :
    0 ≤ shapeProduct shape ∧
      sample = .ofArray shape (List.replicate (shapeProduct shape).toNat number) := by
  rw [filledArray] at filled
  split at filled
  · cases filled
  · rename_i allocated
    cases filled
    simp only [Bool.or_eq_true, decide_eq_true_eq, not_or] at allocated
    exact ⟨by omega, rfl⟩

theorem shapeFits_of_filled (extents : ∀ extent ∈ shape, 0 ≤ extent)
    (counted : 0 ≤ shapeProduct shape) : shapeFits shape (shapeProduct shape).toNat = true := by
  rw [shapeFits, Bool.and_eq_true_iff, all_eq_true, beq_iff_eq]
  exact ⟨fun extent inside => decide_eq_true (extents extent inside),
    (Int.toNat_of_nonneg counted).symm⟩

theorem sampleShapes_fit (member : shape ∈ sampleShapes dimensions) :
    (∀ extent ∈ shape, 0 ≤ extent) ∧ (dimensions = 0 ∨ shape.length = dimensions) := by
  rw [sampleShapes] at member
  split at member
  · rename_i unasked
    refine ⟨?_, .inl unasked⟩
    simp only [mem_cons, not_mem_nil, or_false] at member
    rcases member with rfl | rfl | rfl | rfl <;> decide
  · cases mem_singleton.mp member
    refine ⟨?_, .inr length_replicate⟩
    intro extent inside
    rw [eq_of_mem_replicate inside]
    decide

theorem sampleShapes_headD_mem (dimensions : Nat) :
    (sampleShapes dimensions).headD [] ∈ sampleShapes dimensions := by
  rw [sampleShapes]
  split <;> exact mem_cons_self

/-- An array of one of the sample shapes, filled with numbers of a kind. -/
def SampleArray (dimensions : Nat) (kind : Float → Prop) (sample : Value) : Prop :=
  ∃ shape ∈ sampleShapes dimensions, ∃ data : List Float,
    sample = .ofArray shape data ∧ shapeFits shape data.length = true ∧
      ∀ number ∈ data, kind number

theorem SampleArray.of_filledArray {number : Float} (shaped : shape ∈ sampleShapes dimensions)
    (allowed : kind number)
    (filled : filledArray shape number = .ok sample) : SampleArray dimensions kind sample := by
  obtain ⟨counted, rfl⟩ := filledArray_eq_ok filled
  refine ⟨shape, shaped, _, rfl, ?_, ?_⟩
  · rw [length_replicate]
    exact shapeFits_of_filled (sampleShapes_fit shaped).1 counted
  · intro other inside
    rw [eq_of_mem_replicate inside]
    exact allowed

theorem SampleArray.of_arraySamples {elements : List Float} {accepts : Float → Bool}
    {samples : List Value} (special : ∀ number, accepts number = true → kind number)
    (ordinary : ∀ number ∈ elements, kind number) (inhabited : elements ≠ [])
    (generated : arraySamples dimensions elements accepts = .ok samples)
    (member : sample ∈ samples) : SampleArray dimensions kind sample := by
  have firstShaped := sampleShapes_headD_mem dimensions
  obtain ⟨filled, filling, generated⟩ := bind_eq_ok_iff.mp generated
  obtain ⟨shaped, shaping, generated⟩ := bind_eq_ok_iff.mp generated
  obtain ⟨blank, blanked, generated⟩ := bind_eq_ok_iff.mp generated
  cases generated
  rcases mem_append.mp member with member | member
  · rcases mem_append.mp member with member | member
    · obtain ⟨number, accepted, made⟩ := exists_mem_of_mapM_eq_ok filling member
      exact .of_filledArray firstShaped (special number (mem_filter.mp accepted).2) made
    · obtain ⟨shape, shapeMember, made⟩ := exists_mem_of_mapM_eq_ok shaping member
      have headed : kind (elements.headD 0.0) := by
        cases elements with
        | nil => exact absurd rfl inhabited
        | cons first rest => exact ordinary first mem_cons_self
      exact .of_filledArray shapeMember headed made
  · cases mem_singleton.mp member
    have counted := (filledArray_eq_ok blanked).1
    refine ⟨_, firstShaped, _, rfl, ?_, ?_⟩
    · rw [length_map, length_range]
      exact shapeFits_of_filled (sampleShapes_fit firstShaped).1 counted
    · intro number inside
      obtain ⟨place, _, rfl⟩ := mem_map.mp inside
      have within : place % elements.length < elements.length :=
        Nat.mod_lt _ (length_pos_iff.mpr inhabited)
      rw [getD_eq_getElem?_getD, List.getElem?_eq_getElem within, Option.getD_some]
      exact ordinary _ (getElem_mem within)

theorem SampleArray.accepted {element : Option Predicate}
    (passes : ∀ inner ∈ element, ∀ number, kind number →
      inner.test world (.ofFloat number) = .ok ()) (array : SampleArray dimensions kind sample) :
    (Predicate.array dimensions element).test world sample = .ok () := by
  obtain ⟨shape, shaped, data, rfl, fits, kinds⟩ := array
  refine Predicate.test_ofArray_eq_ok_iff.mpr ⟨fits, (sampleShapes_fit shaped).2, ?_⟩
  intro inner chosen number inside
  exact passes inner chosen number (kinds number inside)

theorem Predicate.AcceptsSamples.array {element : Predicate}
    (reads : element.Throughout ReadsDouble) (accepts : element.AcceptsSamples world) :
    (Predicate.array dimensions (some element)).AcceptsSamples world := by
  intro samples generated sample member
  rw [generate] at generated
  obtain ⟨elements, elementsGenerated, generated⟩ := bind_eq_ok_iff.mp generated
  have ordinary : ∀ number ∈ elements.filterMap Value.asFloat?,
      element.test world (.ofFloat number) = .ok () := by
    intro number inside
    obtain ⟨original, originalMember, converted⟩ := mem_filterMap.mp inside
    rw [← isOk_iff, ← test_of_asFloat? reads converted, isOk_iff]
    exact accepts elements elementsGenerated original originalMember
  split at generated
  · cases generated
  · rename_i inhabited
    refine SampleArray.accepted ?_ (.of_arraySamples (fun number => isOk_iff.mp) ordinary
      inhabited generated member)
    rintro inner ⟨⟩ number accepted
    exact accepted

theorem Predicate.AcceptsSamples.anyArray :
    (Predicate.array dimensions none).AcceptsSamples world := by
  intro samples generated sample member
  rw [generate] at generated
  have array : SampleArray dimensions (fun _ => True) sample :=
    .of_arraySamples (fun _ _ => trivial) (fun _ _ => trivial) (by simp) generated member
  exact array.accepted nofun

/-!
## Unions
-/

theorem Predicate.exists_of_mem_generateUnion {samples : List Value}
    (generated : generateUnion world predicates = .ok (some samples)) (member : sample ∈ samples) :
    ∃ predicate ∈ predicates, ∃ own, predicate.generate world = .ok own ∧ sample ∈ own := by
  induction predicates generalizing samples with
  | nil => cases generated
  | cons predicate predicates ih =>
    rw [generateUnion] at generated
    cases own : predicate.generate world with
    | error failure =>
      simp only [own] at generated
      split at generated
      · obtain ⟨source, sourceMember, found⟩ := ih generated member
        exact ⟨source, mem_cons_of_mem predicate sourceMember, found⟩
      · cases generated
    | ok first =>
      simp only [own] at generated
      obtain ⟨rest, others, generated⟩ := bind_eq_ok_iff.mp generated
      cases generated
      rcases mem_append.mp member with member | member
      · exact ⟨predicate, mem_cons_self, first, own, member⟩
      · cases rest with
        | none => cases member
        | some rest =>
          obtain ⟨source, sourceMember, found⟩ := ih others member
          exact ⟨source, mem_cons_of_mem predicate sourceMember, found⟩

theorem Predicate.AcceptsSamples.allOf : (Predicate.allOf members).AcceptsSamples world := by
  intro samples generated sample member
  rw [generate] at generated
  obtain ⟨union?, united, generated⟩ := bind_eq_ok_iff.mp generated
  cases union? with
  | none => cases generated
  | some union =>
    cases generated
    rw [test]
    exact isOk_iff.mp (mem_filter.mp member).2

theorem Predicate.AcceptsSamples.anyOf
    (accept : ∀ predicate ∈ members, predicate.AcceptsSamples world) :
    (Predicate.anyOf members).AcceptsSamples world := by
  intro samples generated sample member
  rw [generate] at generated
  obtain ⟨union?, united, generated⟩ := bind_eq_ok_iff.mp generated
  cases union? with
  | none => cases generated
  | some union =>
    cases generated
    obtain ⟨predicate, chosen, own, ownGenerated, inside⟩ :=
      exists_of_mem_generateUnion united member
    have accepted : testSome world members sample = true := by
      rw [testSome_eq_any, any_eq_true]
      exact ⟨predicate, chosen,
        isOk_iff.mpr (accept predicate chosen own ownGenerated sample inside)⟩
    rw [test, accepted]
    rfl

/-!
## Collections
-/

theorem Predicate.test_list_ofList {element : Predicate} {items : List Value}
    (accepted : ∀ item ∈ items, element.test world item = .ok ()) :
    (Predicate.list element).test world (.ofList items) = .ok () := by
  rw [test]
  exact forM_eq_ok_iff.mpr accepted

theorem Predicate.AcceptsSamples.list {element : Predicate}
    (accepts : element.AcceptsSamples world) :
    (Predicate.list element).AcceptsSamples world := by
  intro samples generated sample member
  rw [generate] at generated
  obtain ⟨items, itemsGenerated, generated⟩ := bind_eq_ok_iff.mp generated
  cases generated
  have accepted := accepts items itemsGenerated
  rcases mem_append.mp member with member | member
  · simp only [mem_cons, not_mem_nil, or_false] at member
    rcases member with rfl | rfl
    · exact test_list_ofList nofun
    · exact test_list_ofList accepted
  · obtain ⟨first, taken, rfl⟩ := mem_map.mp member
    refine test_list_ofList fun item inside => ?_
    rw [eq_of_mem_replicate inside]
    exact accepted first (mem_of_mem_take taken)

theorem Predicate.testTuple_of_generateFirsts {firsts : List Value}
    (accept : ∀ predicate ∈ predicates, predicate.AcceptsSamples world)
    (generated : generateFirsts world missing predicates = .ok firsts) :
    firsts.length = predicates.length ∧ testTuple world predicates firsts = .ok () := by
  induction predicates generalizing firsts with
  | nil =>
    cases generated
    exact ⟨rfl, rfl⟩
  | cons predicate predicates ih =>
    rw [generateFirsts] at generated
    obtain ⟨own, ownGenerated, generated⟩ := bind_eq_ok_iff.mp generated
    cases own with
    | nil => cases generated
    | cons first others =>
      obtain ⟨rest, restGenerated, generated⟩ := bind_eq_ok_iff.mp generated
      cases generated
      rw [forall_mem_cons] at accept
      obtain ⟨counted, passed⟩ := ih accept.2 restGenerated
      refine ⟨congrArg Nat.succ counted, ?_⟩
      rw [testTuple, andThen_eq_ok_iff]
      exact ⟨accept.1 _ ownGenerated first mem_cons_self, passed⟩

theorem Predicate.AcceptsSamples.tuple {elements : List Predicate}
    (accept : ∀ element ∈ elements, element.AcceptsSamples world) :
    (Predicate.tuple elements).AcceptsSamples world := by
  intro samples generated sample member
  rw [generate] at generated
  obtain ⟨firsts, firstsGenerated, generated⟩ := bind_eq_ok_iff.mp generated
  cases generated
  cases mem_singleton.mp member
  obtain ⟨counted, passed⟩ := testTuple_of_generateFirsts accept firstsGenerated
  have items : (Value.ofList firsts).items? = some firsts := rfl
  rw [test, items]
  simp only [counted, if_true]
  exact passed

theorem forall_mem_insertKey {keyHolds valueHolds : Value → Prop} {key value : Value}
    (ofKey : keyHolds key) (ofValue : valueHolds value)
    (before : ∀ entry ∈ entries, keyHolds entry.1 ∧ valueHolds entry.2) :
    ∀ entry ∈ insertKey key value entries, keyHolds entry.1 ∧ valueHolds entry.2 := by
  induction entries with
  | nil =>
    intro entry member
    cases mem_singleton.mp member
    exact ⟨ofKey, ofValue⟩
  | cons first entries ih =>
    rw [forall_mem_cons] at before
    obtain ⟨ofFirst, ofRest⟩ := before
    rw [insertKey]
    split
    · exact forall_mem_cons.mpr ⟨⟨ofKey, ofValue⟩, ofRest⟩
    · exact forall_mem_cons.mpr ⟨ofFirst, ih ofRest⟩

theorem entries_pairKeys (keyHolds valueHolds : Value → Prop) {pairs : List (Value × Value)}
    (holds : ∀ pair ∈ pairs, keyHolds pair.1 ∧ valueHolds pair.2) :
    ∃ entries, pairKeys pairs = .dict .anyMap 0 entries ∧
      ∀ entry ∈ entries, keyHolds entry.1 ∧ valueHolds entry.2 := by
  refine ⟨_, rfl, ?_⟩
  refine List.foldlRecOn pairs _ (motive := fun entries : List (Value × Value) =>
    ∀ entry ∈ entries, keyHolds entry.1 ∧ valueHolds entry.2) nofun ?_
  intro entries before pair member
  dsimp only
  split
  · exact forall_mem_insertKey (holds pair member).1 (holds pair member).2 before
  · exact before

theorem Predicate.test_dict_entries {key element : Predicate} (accepted : ∀ entry ∈ entries,
      key.test world entry.1 = .ok () ∧ element.test world entry.2 = .ok ()) :
    (Predicate.dict key element).test world (.dict .anyMap 0 entries) = .ok () := by
  rw [test]
  exact forM_eq_ok_iff.mpr fun entry member => andThen_eq_ok_iff.mpr (accepted entry member)

theorem Predicate.AcceptsSamples.dict {key element : Predicate}
    (keys : key.AcceptsSamples world) (values : element.AcceptsSamples world) :
    (Predicate.dict key element).AcceptsSamples world := by
  intro samples generated sample member
  rw [generate] at generated
  obtain ⟨keySamples, keysGenerated, generated⟩ := bind_eq_ok_iff.mp generated
  obtain ⟨valueSamples, valuesGenerated, generated⟩ := bind_eq_ok_iff.mp generated
  cases generated
  simp only [mem_cons, not_mem_nil, or_false] at member
  rcases member with rfl | rfl
  · exact test_dict_entries nofun
  · have paired : ∀ pair ∈ keySamples.zip valueSamples,
        key.test world pair.1 = .ok () ∧ element.test world pair.2 = .ok () := by
      intro pair inside
      obtain ⟨fromKeys, fromValues⟩ := of_mem_zip inside
      exact ⟨keys keySamples keysGenerated pair.1 fromKeys,
        values valueSamples valuesGenerated pair.2 fromValues⟩
    obtain ⟨entries, same, accepted⟩ := entries_pairKeys (key.test world · = .ok ())
      (element.test world · = .ok ()) paired
    rw [same]
    exact test_dict_entries accepted

/-!
## Named parameters
-/

theorem Predicate.testNamed_of_mem (different : (declared.map (·.1)).Nodup) {name : Text}
    (member : (name, predicate) ∈ declared) (value : Value) :
    testNamed world declared name value = some (predicate.test world value) := by
  induction declared with
  | nil => cases member
  | cons entry declared ih =>
    obtain ⟨other, otherPredicate⟩ := entry
    rw [map_cons, nodup_cons] at different
    rw [testNamed]
    rcases mem_cons.mp member with same | member
    · cases same
      rw [if_pos rfl]
    · have distinct : other ≠ name := by
        rintro rfl
        exact different.1 (mem_map.mpr ⟨_, member, rfl⟩)
      rw [if_neg distinct]
      exact ih different.2 member

theorem Predicate.generateNamed_eq_ok {firsts : List (Text × Value)}
    (accept : ∀ entry ∈ declared, entry.2.AcceptsSamples world)
    (generated : generateNamed world missing declared = .ok firsts) :
    firsts.map (·.1) = declared.map (·.1) ∧ ∀ first ∈ firsts,
      ∃ predicate, (first.1, predicate) ∈ declared ∧ predicate.test world first.2 = .ok () := by
  induction declared generalizing firsts with
  | nil =>
    cases generated
    exact ⟨rfl, nofun⟩
  | cons entry declared ih =>
    obtain ⟨name, predicate⟩ := entry
    rw [generateNamed] at generated
    obtain ⟨own, ownGenerated, generated⟩ := bind_eq_ok_iff.mp generated
    cases own with
    | nil => cases generated
    | cons first others =>
      obtain ⟨rest, restGenerated, generated⟩ := bind_eq_ok_iff.mp generated
      cases generated
      rw [forall_mem_cons] at accept
      obtain ⟨names, passed⟩ := ih accept.2 restGenerated
      refine ⟨congrArg (name :: ·) names, forall_mem_cons.mpr ⟨?_, ?_⟩⟩
      · exact ⟨predicate, mem_cons_self,
          accept.1 _ ownGenerated first mem_cons_self⟩
      · intro other inside
        obtain ⟨source, sourceMember, accepted⟩ := passed other inside
        exact ⟨source, mem_cons_of_mem _ sourceMember, accepted⟩

theorem Predicate.test_parameters_namedRecord {entries : List (Text × Value)}
    (accepted : ∀ entry ∈ entries,
      testNamed world declared entry.1 entry.2 = some (.ok ()))
    (complete : allMandatory = true → ∀ name ∈ declared.map (·.1), name ∈ entries.map (·.1)) :
    (Predicate.parameters declared allMandatory).test world (namedRecord entries) = .ok () := by
  have textKeys : hasTextKeys (namedRecord entries) = true := rfl
  have given : (namedRecord entries).entries?.getD [] =
      entries.map (fun entry => (.ofText entry.1, entry.2)) := rfl
  rw [test]
  simp only [textKeys, if_true, given]
  refine andThen_eq_ok_iff.mpr ⟨forM_eq_ok_iff.mpr ?_, ?_⟩
  · intro entry member
    obtain ⟨source, inside, rfl⟩ := mem_map.mp member
    have known := accepted source inside
    simp only [Value.ofText, Value.plainText?, known]
  · have names : (entries.map (fun entry => (Value.ofText entry.1, entry.2))).filterMap
        (·.1.plainText?) = entries.map (·.1) := by
      rw [filterMap_map, ← filterMap_eq_map]
      rfl
    rw [names]
    cases allMandatory with
    | false => rfl
    | true =>
      have nothingMissing : (declared.map (·.1)).filter
          (fun name => !(entries.map (·.1)).contains name) = [] := by
        rw [filter_eq_nil_iff]
        intro name declaredName
        simpa using complete rfl name declaredName
      rw [nothingMissing]
      rfl

theorem Predicate.AcceptsSamples.parameters (different : (declared.map (·.1)).Nodup)
    (accept : ∀ entry ∈ declared, entry.2.AcceptsSamples world) :
    (Predicate.parameters declared allMandatory).AcceptsSamples world := by
  intro samples generated sample member
  rw [generate] at generated
  obtain ⟨firsts, firstsGenerated, generated⟩ := bind_eq_ok_iff.mp generated
  cases generated
  obtain ⟨names, passed⟩ := generateNamed_eq_ok accept firstsGenerated
  have accepted : ∀ first ∈ firsts, testNamed world declared first.1 first.2 = some (.ok ()) := by
    intro first inside
    obtain ⟨predicate, known, own⟩ := passed first inside
    rw [testNamed_of_mem different known, own]
  rcases mem_cons.mp member with rfl | member
  · exact test_parameters_namedRecord accepted fun _ name declaredName => names ▸ declaredName
  · cases allMandatory with
    | true => cases member
    | false =>
      rcases mem_cons.mp member with rfl | member
      · exact test_parameters_namedRecord nofun nofun
      · obtain ⟨first, inside, rfl⟩ := mem_map.mp member
        refine test_parameters_namedRecord ?_ nofun
        intro entry only
        cases mem_singleton.mp only
        exact accepted first inside

/-!
## All predicates
-/

/-- What a predicate asks for, by itself, to accept its samples: it is no class; constants and
members of a set equal themselves; parameters have different names; and no function or class is
asked for within the elements of an array, where numbers are put as doubles. -/
def Predicate.Regular : Predicate → Prop
  | .generic _ => False
  | .constant only => only.contractEqual only = true
  | .oneOf members => ∀ member ∈ members, member.contractEqual member = true
  | .parameters declared _ => (declared.map (·.1)).Nodup
  | .array _ (some element) => element.Throughout ReadsDouble
  | _ => True

/-- Whatever a predicate that is regular throughout generates, it accepts. -/
theorem Predicate.generated_samples_accepted {world : World} {predicate : Predicate}
    (regular : predicate.Throughout Regular) {samples : List Value}
    (generated : predicate.generate world = .ok samples) :
    ∀ sample ∈ samples, predicate.test world sample = .ok () := by
  suffices accepts : predicate.AcceptsSamples world from accepts samples generated
  clear generated
  induction regular with
  | @intro predicate itself within ih =>
  cases predicate with
  | number family =>
    refine .of_ok (by rw [generate]) fun sample member => ?_
    rw [test]
    exact family.test_samples member
  | range low high interval =>
    refine .of_ok (by rw [generate]) fun sample member => ?_
    rw [test]
    exact Interval.test_samples member
  | text family =>
    refine .of_ok (by rw [generate]) fun sample member => ?_
    obtain ⟨bytes, inside, rfl⟩ := List.mem_map.mp member
    rw [test]
    exact family.test_sampleTexts inside
  | boolean =>
    refine .of_ok (by rw [generate]) ?_
    simp [Value.ofBool, Value.plainBool?]
  | nothing =>
    refine .of_ok (by rw [generate]) ?_
    simp [Value.isNil]
  | function => exact .of_error (by rw [generate])
  | constant only =>
    have same : only.contractEqual only = true := itself
    cases absent : only.isNil with
    | true => exact .of_error (by rw [generate, if_pos absent])
    | false =>
      have present : ¬ only.isNil = true := Bool.eq_false_iff.mp absent
      refine .of_ok (by rw [generate, if_neg present]) ?_
      simp [absent, same]
  | unchecked inner? =>
    intro samples generated sample member
    rw [test]
  | self => exact .of_error (by rw [generate])
  | positionalArguments =>
    refine .of_ok (by rw [generate]) ?_
    simp [Value.ofList, Value.type?, Value.items?]
  | keywordArguments =>
    refine .of_ok (by rw [generate]) ?_
    simp [Value.type?, Value.entries?]
  | allOf members => exact .allOf
  | anyOf members => exact .anyOf ih
  | complement member => exact .of_error (by rw [generate])
  | list element => exact .list (ih element List.mem_cons_self)
  | tuple elements => exact .tuple ih
  | dict key element =>
    exact .dict (ih key List.mem_cons_self)
      (ih element (List.mem_cons_of_mem key List.mem_cons_self))
  | oneOf members =>
    have same : ∀ member ∈ members, member.contractEqual member = true := itself
    refine .of_ok (by rw [generate]) fun sample member => ?_
    have found : members.any (·.contractEqual sample) = true :=
      List.any_eq_true.mpr ⟨sample, member, same sample member⟩
    simp [found]
  | parameters declared allMandatory =>
    exact .parameters itself fun entry member => ih entry.2 (List.mem_map_of_mem member)
  | array dimensions element =>
    cases element with
    | none => exact .anyArray
    | some element => exact .array itself (ih element List.mem_cons_self)
  | generic type => exact itself.elim

def Predicate.tables : Predicate :=
  .dict (.text .identifier) (.array 2 (some (.anyOf
    [.range 0.0 1.0 .closed, .allOf [.number .integer, .complement (.constant (.ofWord 3))]])))

theorem Predicate.tables_regular : tables.Throughout Regular := by
  have three : (Value.ofWord 3).contractEqual (.ofWord 3) = true := by decide +kernel
  simp [tables, throughout_iff, parts, Regular, ReadsDouble, three]

/-- Whole numbers among the samples are refilled as doubles and still pass. -/
theorem Predicate.generated_samples_accepted_tables :
    tables.Throughout Regular ∧ ∃ samples, tables.generate ⟨Sample.host, []⟩ = .ok samples ∧
      samples.length = 2 ∧ ∀ sample ∈ samples, tables.test ⟨Sample.host, []⟩ sample = .ok () :=
  ⟨tables_regular, _, eq_ok_get_toOption (by decide +kernel), by decide +kernel,
    generated_samples_accepted tables_regular (eq_ok_get_toOption _)⟩

end Covenant
