import Covenant.Predicate.Test
import Covenant.Proofs.Outcome
import Covenant.Sample
import Mathlib.Data.Finset.Card
import Mathlib.Data.List.Nodup
import Mathlib.Logic.Relation

/-!
# The order of an ancestry

Each nested visit meets another registered type, so the visits end. What they list is duplicate-free
and closed under parents. A parent of a listed type that is not listed before it was still open
then, and every open type reaches the one being visited: that closes a cycle.
-/

set_option autoImplicit false

namespace Covenant.ClassTable

open List

variable {classes : ClassTable} {type : HostType} {types : List HostType} {state final : Walk}

def Parent (classes : ClassTable) (child parent : HostType) : Prop :=
  parent ∈ parents classes child

/-- A type leads to another through any number of registered parents. -/
abbrev Reaches (classes : ClassTable) : HostType → HostType → Prop :=
  Relation.ReflTransGen (Parent classes)

/-- A type leads to another through at least one registered parent. -/
abbrev Descends (classes : ClassTable) : HostType → HostType → Prop :=
  Relation.TransGen (Parent classes)

/-- No type that a type leads to descends from itself. -/
def Acyclic (classes : ClassTable) (type : HostType) : Prop :=
  ∀ other, Reaches classes type other → ¬ Descends classes other other

theorem Parent.exists_mem {child parent : HostType} (listed : Parent classes child parent) :
    ∃ info, (child, info) ∈ classes ∧ parent ∈ info.parents := by
  rw [Parent, parents] at listed
  cases found : find? classes child with
  | none =>
    rw [found] at listed
    cases listed
  | some info =>
    rw [found] at listed
    obtain ⟨before, after, rfl, _⟩ := lookup_eq_some_iff.mp found
    exact ⟨info, mem_append_right _ mem_cons_self, listed⟩

theorem acyclic_of_rank (rank : HostType → Nat)
    (falls : ∀ entry ∈ classes, ∀ parent ∈ entry.2.parents, rank parent < rank entry.1) :
    Acyclic classes type := by
  have lower {child parent : HostType} (listed : Parent classes child parent) :
      rank parent < rank child := by
    obtain ⟨info, member, own⟩ := listed.exists_mem
    exact falls (child, info) member parent own
  have lowest {start other : HostType} (descends : Descends classes start other) :
      rank other < rank start := by
    induction descends with
    | single listed => exact lower listed
    | tail _ listed ih => exact (lower listed).trans ih
  exact fun other _ cycle => Nat.lt_irrefl _ (lowest cycle)

/-!
## Visits
-/

/-- Types are visited one after another, to whatever depth their parents go. -/
inductive Visits (classes : ClassTable) : List HostType → Walk → Walk → Prop where
  | nil (state : Walk) : Visits classes [] state state
  | met {type : HostType} {types : List HostType} {state final : Walk} (met : type ∈ state.met)
      (rest : Visits classes types state final) : Visits classes (type :: types) state final
  | new {type : HostType} {types : List HostType} {state above final : Walk}
      (new : type ∉ state.met)
      (ancestors : Visits classes (parents classes type)
        { state with met := type :: state.met } above)
      (rest : Visits classes types { above with listed := above.listed ++ [type] } final) :
      Visits classes (type :: types) state final

/-- What visiting some types adds to the list of a walk. -/
structure Adds (classes : ClassTable) (types : List HostType) (state final : Walk)
    (added : List HostType) : Prop where
  listed : final.listed = state.listed ++ added
  nodup : added.Nodup
  unmet : ∀ type ∈ added, type ∉ state.met
  met_iff : ∀ type, type ∈ final.met ↔ type ∈ state.met ∨ type ∈ added
  visited : ∀ type ∈ types, type ∈ final.met
  closed : ∀ type ∈ added, ∀ parent ∈ parents classes type, parent ∈ final.met
  reached : ∀ type ∈ added, ∃ root ∈ types, Reaches classes root type

namespace Adds

variable {added : List HostType}

theorem nil (state : Walk) : Adds classes [] state state [] where
  listed := (append_nil _).symm
  nodup := nodup_nil
  unmet := nofun
  met_iff := fun type => by simp
  visited := nofun
  closed := nofun
  reached := nofun

theorem met (known : type ∈ state.met) (rest : Adds classes types state final added) :
    Adds classes (type :: types) state final added where
  listed := rest.listed
  nodup := rest.nodup
  unmet := rest.unmet
  met_iff := rest.met_iff
  visited := forall_mem_cons.mpr ⟨(rest.met_iff type).mpr (.inl known), rest.visited⟩
  closed := rest.closed
  reached := by
    intro other member
    obtain ⟨root, listed, path⟩ := rest.reached other member
    exact ⟨root, mem_cons_of_mem _ listed, path⟩

/-- A type that is met for the first time stands between what its parents add and what the types
after it add. -/
theorem new {above : Walk} {ancestors : List HostType} (new : type ∉ state.met)
    (visited : Adds classes (parents classes type) { state with met := type :: state.met } above
      ancestors)
    (rest : Adds classes types { above with listed := above.listed ++ [type] } final added) :
    Adds classes (type :: types) state final (ancestors ++ type :: added) := by
  have metAbove (other : HostType) :
      other ∈ above.met ↔ (other = type ∨ other ∈ state.met) ∨ other ∈ ancestors := by
    rw [visited.met_iff, mem_cons]
  have kept (other : HostType) (member : other ∈ above.met) : other ∈ final.met :=
    (rest.met_iff other).mpr (.inl member)
  have own : type ∈ above.met := (metAbove type).mpr (.inl (.inl rfl))
  constructor
  · rw [rest.listed, visited.listed]
    simp
  · apply nodup_append.mpr
    refine ⟨visited.nodup, nodup_cons.mpr ⟨fun again => rest.unmet type again own,
      rest.nodup⟩, ?_⟩
    rintro other member _ later rfl
    rcases mem_cons.mp later with rfl | later
    · exact visited.unmet other member mem_cons_self
    · exact rest.unmet other later ((metAbove other).mpr (.inr member))
  · intro other member known
    rcases mem_append.mp member with member | member
    · exact visited.unmet other member (mem_cons_of_mem _ known)
    · rcases mem_cons.mp member with rfl | member
      · exact new known
      · exact rest.unmet other member ((metAbove other).mpr (.inl (.inr known)))
  · intro other
    rw [rest.met_iff, metAbove, mem_append, mem_cons]
    tauto
  · exact forall_mem_cons.mpr ⟨kept type own, rest.visited⟩
  · intro other member parent listed
    rcases mem_append.mp member with member | member
    · exact kept parent (visited.closed other member parent listed)
    · rcases mem_cons.mp member with rfl | member
      · exact kept parent (visited.visited parent listed)
      · exact rest.closed other member parent listed
  · intro other member
    rcases mem_append.mp member with member | member
    · obtain ⟨parent, listed, path⟩ := visited.reached other member
      exact ⟨type, mem_cons_self, .head listed path⟩
    · rcases mem_cons.mp member with rfl | member
      · exact ⟨other, mem_cons_self, .refl⟩
      · obtain ⟨root, listed, path⟩ := rest.reached other member
        exact ⟨root, mem_cons_of_mem _ listed, path⟩

end Adds

theorem Visits.exists_adds (visit : Visits classes types state final) :
    ∃ added, Adds classes types state final added := by
  induction visit with
  | nil state => exact ⟨[], .nil state⟩
  | met known _ ih =>
    obtain ⟨added, adds⟩ := ih
    exact ⟨added, .met known adds⟩
  | new new _ _ ihAncestors ihRest =>
    obtain ⟨ancestors, visited⟩ := ihAncestors
    obtain ⟨added, rest⟩ := ihRest
    exact ⟨_, .new new visited rest⟩

/-!
## The visits end
-/

def unmet (classes : ClassTable) (met : List HostType) : Nat :=
  ((classes.map (·.1)).toFinset \ met.toFinset).card

theorem unmet_le_length (met : List HostType) : unmet classes met ≤ classes.length :=
  calc unmet classes met
      ≤ (classes.map (·.1)).toFinset.card := Finset.card_le_card Finset.sdiff_subset
    _ ≤ (classes.map (·.1)).length := toFinset_card_le _
    _ = classes.length := length_map _

theorem sdiff_subset_of_subset {met later : List HostType} (kept : met ⊆ later) :
    (classes.map (·.1)).toFinset \ later.toFinset ⊆
      (classes.map (·.1)).toFinset \ met.toFinset := by
  apply Finset.sdiff_subset_sdiff subset_rfl
  exact fun other known => mem_toFinset.mpr (kept (mem_toFinset.mp known))

theorem unmet_cons_lt {met : List HostType} (registered : parents classes type ≠ [])
    (new : type ∉ met) : unmet classes (type :: met) < unmet classes met := by
  obtain ⟨parent, listed⟩ := exists_mem_of_ne_nil _ registered
  obtain ⟨info, member, _⟩ := Parent.exists_mem listed
  apply Finset.card_lt_card
  apply (Finset.ssubset_iff_of_subset (sdiff_subset_of_subset (subset_cons_self _ _))).mpr
  refine ⟨type, ?_, ?_⟩
  · apply Finset.mem_sdiff.mpr
    exact ⟨mem_toFinset.mpr (mem_map_of_mem member),
      fun known => new (mem_toFinset.mp known)⟩
  · intro left
    exact (Finset.mem_sdiff.mp left).2 (mem_toFinset.mpr mem_cons_self)

/-- A depth beyond the number of registered types not met yet is never used up. -/
theorem visits_walk (depth : Nat) (enough : unmet classes state.met < depth) :
    Visits classes types state
      (types.foldl (fun state type => walk classes depth type state) state) := by
  induction depth generalizing types state with
  | zero => exact absurd enough (Nat.not_lt_zero _)
  | succ depth ihDepth =>
    induction types generalizing state with
    | nil => exact .nil state
    | cons type types ihTypes =>
      rw [foldl_cons, walk]
      split
      · next known => exact .met known (ihTypes enough)
      · next new =>
        have ancestors : Visits classes (parents classes type)
            { state with met := type :: state.met }
            ((parents classes type).foldl (fun state parent => walk classes depth parent state)
              { state with met := type :: state.met }) := by
          by_cases root : parents classes type = []
          · rw [root]
            exact .nil _
          · apply ihDepth
            exact Nat.lt_of_lt_of_le (unmet_cons_lt root new) (Nat.le_of_lt_succ enough)
        obtain ⟨added, adds⟩ := ancestors.exists_adds
        apply Visits.new new ancestors
        apply ihTypes
        apply Nat.lt_of_le_of_lt _ enough
        apply Finset.card_le_card
        apply sdiff_subset_of_subset
        intro other known
        exact (adds.met_iff other).mpr (.inl (mem_cons_of_mem _ known))

theorem exists_visits_ancestry (classes : ClassTable) (type : HostType) :
    ∃ final, Visits classes [type] ⟨[], []⟩ final ∧ final.listed = ancestry classes type := by
  refine ⟨_, visits_walk (classes.length + 2) ?_, rfl⟩
  exact Nat.lt_of_le_of_lt (unmet_le_length _) (by omega)

/-!
## Parents first
-/

/-- A type of which the visit began and did not end. -/
def Walk.Open (state : Walk) (type : HostType) : Prop :=
  type ∈ state.met ∧ type ∉ state.listed

/-- Each parent of a listed type is listed before it, unless the type descends from itself. -/
def ParentsFirst (classes : ClassTable) (listed : List HostType) : Prop :=
  ∀ before type after, listed = before ++ type :: after →
    ∀ parent ∈ parents classes type, parent ∈ before ∨ Descends classes type type

theorem ParentsFirst.snoc {listed : List HostType} (first : ParentsFirst classes listed)
    (last : ∀ parent ∈ parents classes type, parent ∈ listed ∨ Descends classes type type) :
    ParentsFirst classes (listed ++ [type]) := by
  intro before other after split
  cases after using List.reverseRecOn with
  | nil =>
    obtain ⟨rfl, same⟩ := append_inj' split rfl
    cases same
    exact last
  | append_singleton after final =>
    rw [← cons_append, ← append_assoc] at split
    exact first before other after (append_inj' split rfl).1

theorem Visits.parentsFirst (visit : Visits classes types state final)
    (leads : ∀ pending, state.Open pending → ∀ type ∈ types, Reaches classes pending type)
    (first : ParentsFirst classes state.listed) : ParentsFirst classes final.listed := by
  induction visit with
  | nil state => exact first
  | met known _ ih =>
    apply ih _ first
    exact fun pending opened other member => leads pending opened other (.tail _ member)
  | @new type types state above final new ancestors rest ihAncestors ihRest =>
    obtain ⟨added, adds⟩ := ancestors.exists_adds
    have stays (pending : HostType) (opened : above.Open pending) :
        pending = type ∨ state.Open pending := by
      obtain ⟨known, unlisted⟩ := opened
      rw [adds.listed, mem_append, not_or] at unlisted
      rcases (adds.met_iff pending).mp known with known | listed
      · exact (mem_cons.mp known).imp_right fun known => ⟨known, unlisted.1⟩
      · exact absurd listed unlisted.2
    have leadsHere (pending : HostType) (opened : state.Open pending) :
        Reaches classes pending type := leads pending opened type mem_cons_self
    have firstAbove : ParentsFirst classes above.listed := by
      apply ihAncestors _ first
      rintro pending ⟨known, unlisted⟩ parent listed
      rcases mem_cons.mp known with rfl | known
      · exact .single listed
      · exact (leadsHere pending ⟨known, unlisted⟩).tail listed
    apply ihRest
    · rintro pending ⟨known, unlisted⟩ other member
      rw [mem_append, mem_singleton, not_or] at unlisted
      obtain opened := (stays pending ⟨known, unlisted.1⟩).resolve_left unlisted.2
      exact leads pending opened other (.tail _ member)
    · apply firstAbove.snoc
      intro parent listed
      by_cases done : parent ∈ above.listed
      · exact .inl done
      · right
        -- the parent is open, so it leads back to the type
        rcases stays parent ⟨adds.visited parent listed, done⟩ with rfl | opened
        · exact .single listed
        · exact .head' listed (leadsHere parent opened)

/-!
## Linear orders of a hierarchy
-/

/-- A list holds those types that a type leads to and a condition picks, each once; bases stand
before their descendants, where none descends from itself. -/
structure Linearises (classes : ClassTable) (type : HostType) (picked : HostType → Prop)
    (types : List HostType) : Prop where
  nodup : types.Nodup
  mem_iff : ∀ other, other ∈ types ↔ Reaches classes type other ∧ picked other
  baseFirst : Acyclic classes type → ∀ before other after, types = before ++ other :: after →
    ∀ ancestor ∈ types, Descends classes other ancestor → ancestor ∈ before

theorem ParentsFirst.ancestor_mem (first : ParentsFirst classes types)
    (acyclic : ∀ other ∈ types, ¬ Descends classes other other)
    {before after : List HostType} {other ancestor : HostType}
    (split : types = before ++ other :: after) (descends : Descends classes other ancestor) :
    ancestor ∈ before := by
  have parentBefore {before after : List HostType} {other parent : HostType}
      (split : types = before ++ other :: after) (listed : Parent classes other parent) :
      parent ∈ before := by
    apply (first before other after split parent listed).resolve_right
    exact acyclic other (split ▸ mem_append_right _ mem_cons_self)
  induction descends using Relation.TransGen.head_induction_on generalizing before after with
  | single listed => exact parentBefore split listed
  | head listed _ ih =>
    obtain ⟨start, rest, rfl⟩ := append_of_mem (parentBefore split listed)
    rw [append_assoc, cons_append] at split
    exact mem_append_left _ (ih split)

theorem linearises_ancestry (classes : ClassTable) (type : HostType) :
    Linearises classes type (fun _ => True) (ancestry classes type) := by
  obtain ⟨final, visit, same⟩ := exists_visits_ancestry classes type
  obtain ⟨added, adds⟩ := visit.exists_adds
  obtain rfl : final.listed = added := adds.listed
  rw [← same]
  have metIff (other : HostType) : other ∈ final.met ↔ other ∈ final.listed := by
    rw [adds.met_iff, mem_nil_iff, false_or]
  have memIff (other : HostType) : other ∈ final.listed ↔ Reaches classes type other := by
    constructor
    · intro member
      obtain ⟨root, listed, path⟩ := adds.reached other member
      exact mem_singleton.mp listed ▸ path
    · intro path
      induction path with
      | refl => exact (metIff type).mp (adds.visited type mem_cons_self)
      | tail _ listed ih => exact (metIff _).mp (adds.closed _ ih _ listed)
  constructor
  · exact adds.nodup
  · intro other
    rw [and_true]
    exact memIff other
  · intro acyclic before other after split ancestor _ descends
    have first : ParentsFirst classes final.listed := by
      apply visit.parentsFirst
      · exact fun pending opened => absurd opened.1 not_mem_nil
      · intro before other after split
        cases before <;> cases split
    exact first.ancestor_mem (fun other member => acyclic other ((memIff other).mp member)) split
      descends

theorem getLast?_ancestry (classes : ClassTable) (type : HostType) :
    (ancestry classes type).getLast? = some type := by
  obtain ⟨final, visit, same⟩ := exists_visits_ancestry classes type
  rw [← same]
  cases visit with
  | met known _ => cases known
  | new _ _ rest =>
    cases rest
    exact List.getLast?_concat

theorem Linearises.filter (linear : Linearises classes type (fun _ => True) types)
    (picked : HostType → Bool) :
    Linearises classes type (fun other => picked other = true) (types.filter picked) := by
  constructor
  · exact linear.nodup.filter _
  · intro other
    rw [mem_filter, linear.mem_iff, and_true]
  · intro acyclic before other after split ancestor member descends
    obtain ⟨start, rest, rfl, kept, found⟩ := filter_eq_append_iff.mp split
    obtain ⟨skipped, after, rfl, none, _, _⟩ := filter_eq_cons_iff.mp found
    obtain ⟨member, chosen⟩ := mem_filter.mp member
    have earlier : ancestor ∈ start ++ skipped := by
      apply linear.baseFirst acyclic _ other after _ ancestor member descends
      rw [append_assoc]
    rw [← kept]
    apply mem_filter.mpr
    refine ⟨(mem_append.mp earlier).resolve_right ?_, chosen⟩
    exact fun passed => none ancestor passed chosen

/-!
## The tests of a class
-/

def hooks (classes : ClassTable) (type : HostType) :
    List (HostType × (Value → Except Failure Unit)) :=
  (ancestry classes type).filterMap fun ancestor => (hook? classes ancestor).map (ancestor, ·)

theorem map_fst_hooks (classes : ClassTable) (type : HostType) :
    (hooks classes type).map (·.1) =
      (ancestry classes type).filter fun ancestor => (hook? classes ancestor).isSome := by
  rw [hooks, map_filterMap, ← filterMap_eq_filter]
  congr 1
  funext ancestor
  cases found : hook? classes ancestor <;> simp [Option.guard, found]

theorem hook?_of_mem_hooks {hook : HostType × (Value → Except Failure Unit)}
    (member : hook ∈ hooks classes type) : hook? classes hook.1 = some hook.2 := by
  obtain ⟨ancestor, _, found⟩ := mem_filterMap.mp member
  obtain ⟨test, own, rfl⟩ := Option.map_eq_some_iff.mp found
  exact own

theorem runTests_eq_forM (value : Value) (types : List HostType) :
    runTests classes value types =
      (types.filterMap fun ancestor => (hook? classes ancestor).map (ancestor, ·)).forM
        fun hook => hook.2 value := by
  induction types with
  | nil => rfl
  | cons type types ih =>
    have unfolded : runTests classes value (type :: types) =
        (do (hook? classes type).elim (.ok ()) (· value); runTests classes value types) := rfl
    rw [unfolded, ih, filterMap_cons]
    cases hook? classes type <;> rfl

theorem testClass_eq_forM {host : Host} {value : Value} {own : HostType}
    (typed : value.type? = some own)
    (belongs : Reaches classes own type ∨
      type.isInterface = true ∧ host.implements own type = true) :
    World.testClass ⟨host, classes⟩ type value =
      (hooks classes type).forM fun hook => hook.2 value := by
  have accepted : (own = type || (type.isInterface && host.implements own type)
      || descends classes own type) = true := by
    rw [Bool.or_eq_true, Bool.or_eq_true, Bool.and_eq_true]
    rcases belongs with reaches | implements
    · right
      apply decide_eq_true
      exact ((linearises_ancestry classes own).mem_iff type).mpr ⟨reaches, trivial⟩
    · exact .inl (.inr implements)
  rw [World.testClass, typed]
  exact (if_pos accepted).trans (runTests_eq_forM value _)

/-- Whatever the registered parents, the visits of an ancestry end; they list each type that the
class leads to once, the class last, bases first where no type descends from itself. The tests of a
class are those of its ancestry, run in that order. -/
theorem ancestry_linearises_hierarchy (classes : ClassTable) (type : HostType) :
    (∃ final, Visits classes [type] ⟨[], []⟩ final ∧ final.listed = ancestry classes type) ∧
      Linearises classes type (fun _ => True) (ancestry classes type) ∧
      (ancestry classes type).getLast? = some type ∧
      Linearises classes type (fun other => (hook? classes other).isSome = true)
        ((hooks classes type).map (·.1)) ∧
      (∀ hook ∈ hooks classes type, hook? classes hook.1 = some hook.2) ∧
      ∀ (host : Host) (value : Value) (own : HostType), value.type? = some own →
        Reaches classes own type ∨ type.isInterface = true ∧ host.implements own type = true →
        World.testClass ⟨host, classes⟩ type value =
          (hooks classes type).forM fun hook => hook.2 value := by
  refine ⟨exists_visits_ancestry classes type, linearises_ancestry classes type,
    getLast?_ancestry classes type, ?_, fun hook => hook?_of_mem_hooks,
    fun host value own => testClass_eq_forM⟩
  rw [map_fst_hooks]
  exact (linearises_ancestry classes type).filter _

def shape (name : String) : HostType := .named (Text.ofString name) .struct

/-- A class with one base above both its parents; one parent is repeated and one of theirs is not
registered. -/
def diamond : ClassTable :=
  [(shape "leaf", ⟨[shape "left", shape "right", shape "left"], some fun _ => .ok (), none⟩),
    (shape "left", ⟨[shape "base"], none, none⟩),
    (shape "right", ⟨[shape "base", shape "other"], none, none⟩),
    (shape "base", ⟨[], some fun _ => .ok (), none⟩)]

theorem ancestry_linearises_hierarchy_diamond :
    Acyclic diamond (shape "leaf") ∧ Descends diamond (shape "leaf") (shape "base") ∧
      ancestry diamond (shape "leaf") =
        [shape "base", shape "left", shape "other", shape "right"] ++ [shape "leaf"] ∧
      shape "base" ∈ [shape "base", shape "left", shape "other", shape "right"] ∧
      World.testClass ⟨Sample.host, diamond⟩ (shape "base") (.record (shape "leaf") []) =
        (hooks diamond (shape "base")).forM fun hook => hook.2 (.record (shape "leaf") []) := by
  have acyclic : Acyclic diamond (shape "leaf") :=
    acyclic_of_rank (fun type => if type = shape "leaf" then 2 else
      if type = shape "left" ∨ type = shape "right" then 1 else 0) (by decide)
  have descends : Descends diamond (shape "leaf") (shape "base") :=
    .tail (.single (show shape "left" ∈ parents diamond (shape "leaf") by decide))
      (show shape "base" ∈ parents diamond (shape "left") by decide)
  have listed : ancestry diamond (shape "leaf") =
      [shape "base", shape "left", shape "other", shape "right"] ++ [shape "leaf"] := by decide
  refine ⟨acyclic, descends, listed, ?_, ?_⟩
  · obtain ⟨_, linear, _⟩ := ancestry_linearises_hierarchy diamond (shape "leaf")
    exact linear.baseFirst acyclic _ _ [] listed (shape "base") (by decide) descends
  · obtain ⟨_, _, _, _, _, runs⟩ := ancestry_linearises_hierarchy diamond (shape "base")
    exact runs Sample.host _ (shape "leaf") rfl (.inl descends.to_reflTransGen)

example : ancestry [(shape "egg", ⟨[shape "hen"], none, none⟩),
    (shape "hen", ⟨[shape "egg"], none, none⟩)] (shape "hen") = [shape "egg", shape "hen"] := by
  decide

/-!
## Inherited tests
-/

/-- A class accepts a value that belongs to it if every test that the class leads to does. -/
theorem testClass_eq_ok_iff {host : Host} {value : Value} {own : HostType}
    (typed : value.type? = some own) (belongs : Reaches classes own type) :
    World.testClass ⟨host, classes⟩ type value = .ok () ↔
      ∀ other, Reaches classes type other → ∀ hook, hook? classes other = some hook →
        hook value = .ok () := by
  have listed (other : HostType) : other ∈ ancestry classes type ↔ Reaches classes type other :=
    ((linearises_ancestry classes type).mem_iff other).trans (and_iff_left trivial)
  rw [testClass_eq_forM typed (.inl belongs), forM_eq_ok_iff]
  constructor
  · intro accepted other reached hook found
    apply accepted (other, hook)
    exact mem_filterMap.mpr ⟨other, (listed other).mpr reached, by simp [found]⟩
  · intro accepted hook member
    obtain ⟨other, inside, found⟩ := mem_filterMap.mp member
    obtain ⟨test, known, rfl⟩ := Option.map_eq_some_iff.mp found
    exact accepted other ((listed other).mp inside) test known

/-- The tests of a class are its own and those of its parents, however the classes inherit from each
other. So a value that a class accepts is accepted by everything the class descends from. -/
theorem class_tests_inherited (world : World) {child own : HostType} {value : Value}
    (typed : value.type? = some own) (belongs : Reaches world.classes own child) :
    ((Predicate.generic child).test world value = .ok () ↔
      (∀ hook, hook? world.classes child = some hook → hook value = .ok ()) ∧
        ∀ parent, Parent world.classes child parent →
          (Predicate.generic parent).test world value = .ok ()) ∧
      ∀ ancestor, Descends world.classes child ancestor →
        (Predicate.generic child).test world value = .ok () →
          (Predicate.generic ancestor).test world value = .ok () := by
  have accepts {type : HostType} (reached : Reaches world.classes child type) :
      (Predicate.generic type).test world value = .ok () ↔
        ∀ other, Reaches world.classes type other → ∀ hook, hook? world.classes other = some hook →
          hook value = .ok () := by
    rw [Predicate.test]
    exact testClass_eq_ok_iff typed (belongs.trans reached)
  refine ⟨⟨?_, ?_⟩, ?_⟩
  · intro accepted
    refine ⟨(accepts .refl).mp accepted child .refl, ?_⟩
    intro parent listed
    have reached := Relation.ReflTransGen.single listed
    exact (accepts reached).mpr fun other path =>
      (accepts .refl).mp accepted other (reached.trans path)
  · intro ⟨own, inherited⟩
    refine (accepts .refl).mpr fun other path => ?_
    obtain rfl | ⟨parent, listed, path⟩ := path.cases_head
    · exact own
    · exact (accepts (.single listed)).mp (inherited parent listed) other path
  · intro ancestor descends accepted
    have reached := descends.to_reflTransGen
    exact (accepts reached).mpr fun other path =>
      (accepts .refl).mp accepted other (reached.trans path)

def refuseEmpty : Value → Except Failure Unit
  | .record _ [] => .error (.crash "empty")
  | _ => .ok ()

/-- Two classes that inherit from each other, and one from both of them. -/
def coop : ClassTable :=
  [(shape "egg", ⟨[shape "hen"], some refuseEmpty, none⟩),
    (shape "hen", ⟨[shape "egg"], none, none⟩),
    (shape "chick", ⟨[shape "hen", shape "egg"], some fun _ => .ok (), none⟩)]

theorem class_tests_inherited_coop :
    Descends coop (shape "chick") (shape "egg") ∧ Descends coop (shape "egg") (shape "egg") ∧
      (Predicate.generic (shape "chick")).test ⟨Sample.host, coop⟩
        (.record (shape "chick") [.nil]) = .ok () ∧
      (Predicate.generic (shape "egg")).test ⟨Sample.host, coop⟩
        (.record (shape "chick") [.nil]) = .ok () := by
  have hatched : Parent coop (shape "chick") (shape "hen") := by unfold Parent; decide
  have laid : Parent coop (shape "hen") (shape "egg") := by unfold Parent; decide
  have bred : Parent coop (shape "egg") (shape "hen") := by unfold Parent; decide
  have accepted : (Predicate.generic (shape "chick")).test ⟨Sample.host, coop⟩
      (.record (shape "chick") [.nil]) = .ok () := by rfl
  have descends : Descends coop (shape "chick") (shape "egg") := .tail (.single hatched) laid
  have law := @class_tests_inherited ⟨Sample.host, coop⟩ (shape "chick") (shape "chick")
    (.record (shape "chick") [.nil]) rfl .refl
  exact ⟨descends, .tail (.single bred) laid, accepted, law.2 (shape "egg") descends accepted⟩

end Covenant.ClassTable
