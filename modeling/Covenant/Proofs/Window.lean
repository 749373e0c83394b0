import Covenant.Proofs.Effects
import Covenant.Proofs.Postcondition
import Covenant.Sample

/-!
# The window of temporal postconditions

Calls of one function run side by side. Only their guarded ends exclude one another, and accepted
calls are numbered in the order of these ends. Within a distance of the cache limit, every temporal
postcondition is truthy of all of them, in every order: the remembered calls always end with the
latest accepted ones, and the arrangements of one guarded end cover all roles.
-/

set_option autoImplicit false

namespace Covenant.Contract.Interleaving

open List

/-- A call that returned without failure, and the memory in which its postconditions held. -/
structure Accepted where
  call : Record
  memory : Memory

/-- What the calls of one function share, with the calls accepted so far. -/
structure State where
  memory : Memory
  remembered : List Record
  accepted : List Accepted

/-- One step of calls that run side by side. -/
inductive Event where
  /-- A whole call that nothing interrupts. -/
  | call (bound : Bindings)
  /-- Calls work outside their guarded ends, on themselves or on shared objects. -/
  | outside (memory : Memory)
  /-- A call that got through everything else runs its guarded end. -/
  | guarded (bound : Bindings) (returned : Value)

section

variable (world : World) (contract : Contract) (snapshot : Snapshot)

def State.recall (state : State) : Contract :=
  { contract with remembered := state.remembered }

@[simp] theorem State.recall_remembered (state : State) :
    (state.recall contract).remembered = state.remembered := rfl

def State.conclude (state : State) (current : Record) (memory : Memory) : State :=
  let ended := Contract.conclude world (state.recall contract) snapshot current memory
  { memory := ended.memory
    remembered := ended.remembered
    accepted := match ended.outcome with
      | .ok _ => state.accepted ++ [⟨current, memory⟩]
      | .error _ => state.accepted }

/-- The state after one event. A whole call is one run of the contract; it is accepted when it
returns a value. -/
def State.step (state : State) : Event → State
  | .outside memory => { state with memory := memory }
  | .guarded bound returned =>
    state.conclude world contract snapshot (record bound returned) state.memory
  | .call bound =>
    let called := Contract.run world (state.recall contract) snapshot bound state.memory
    let prepared := (prepare world (state.recall contract) snapshot bound).run state.memory
    { memory := called.memory
      remembered := called.remembered
      accepted := match called.outcome with
        | .ok returned => state.accepted ++ [⟨record bound returned, prepared.2⟩]
        | .error _ => state.accepted }

def State.after (state : State) (events : List Event) : State :=
  events.foldl (State.step world contract snapshot) state

/-- Every clause about one other call is truthy of all ordered pairs of accepted calls whose numbers
are at most the cache limit apart: the second one has the backticked names. It is read in the memory
in which the later call was accepted. -/
def PairsHold (accepted : List Accepted) : Prop :=
  ∀ clause ∈ contract.ensures, clause.depth = 1 →
    ∀ (i j : Nat) (first second : Accepted),
      accepted[i]? = some first → accepted[j]? = some second → i ≠ j →
      ((i : Int) - j).natAbs ≤ snapshot.maxCache →
      ∃ latest, accepted[max i j]? = some latest ∧
        clause.Truthy world (outerScope snapshot) latest.memory
          (Record.backticked second.call ++ first.call)

/-- Every clause about two other calls is truthy of all ordered triples of different accepted
calls whose least and greatest numbers are at most the cache limit apart. -/
def TriplesHold (accepted : List Accepted) : Prop :=
  ∀ clause ∈ contract.ensures, clause.depth = 2 →
    ∀ (i j k : Nat) (first second third : Accepted),
      accepted[i]? = some first → accepted[j]? = some second → accepted[k]? = some third →
      i ≠ j → j ≠ k → i ≠ k →
      (max i (max j k) : Int) - min i (min j k) ≤ snapshot.maxCache →
      ∃ latest, accepted[max i (max j k)]? = some latest ∧
        clause.Truthy world (outerScope snapshot) latest.memory
          (Record.doubleBackticked third.call ++ (Record.backticked second.call ++ first.call))

/-- The remembered calls end with the latest accepted calls, as many as the limit allows. -/
def Recent (state : State) : Prop :=
  (state.accepted.map Accepted.call).rtake snapshot.maxCache.toNat <:+ state.remembered

end

/-!
## The remembered calls
-/

theorem getElem?_of_rtake_suffix {α : Type} {elements kept : List α} {limit place : Nat}
    (suffix : elements.rtake limit <:+ kept) (inside : place < elements.length)
    (near : elements.length ≤ place + limit) :
    elements.length - place ≤ kept.length ∧
      kept[kept.length - (elements.length - place)]? = elements[place]? := by
  obtain ⟨older, rfl⟩ := suffix
  have length : (elements.rtake limit).length = elements.length - (elements.length - limit) := by
    simp [List.rtake.eq_def]
  constructor
  · rw [length_append, length]
    omega
  · rw [List.getElem?_append_right (by rw [length_append, length]; omega),
      List.rtake.eq_def, List.getElem?_drop]
    congr 1
    rw [length_append, length_drop]
    omega

theorem rtake_append_singleton_suffix {α : Type} {elements kept : List α} {limit : Nat}
    (suffix : elements.rtake limit <:+ kept) (latest : α) :
    (elements ++ [latest]).rtake limit <:+ (kept ++ [latest]).rtake limit := by
  cases limit with
  | zero => simp
  | succ limit =>
    rw [rtake_concat_succ, rtake_concat_succ]
    have front : elements.reverse.take (limit + 1) <+: kept.reverse := by
      rw [rtake_eq_reverse_take_reverse, ← reverse_prefix,
        reverse_reverse] at suffix
      exact suffix
    have shorter : elements.reverse.take limit <+: kept.reverse.take limit :=
      prefix_take_iff.mpr
        ⟨(take_prefix_take_left (Nat.le_succ limit)).trans front, length_take_le ..⟩
    obtain ⟨older, split⟩ := reverse_suffix.mpr shorter
    refine ⟨older, ?_⟩
    rw [← append_assoc, rtake_eq_reverse_take_reverse,
      rtake_eq_reverse_take_reverse, split]

/-!
## One guarded end
-/

section

variable {world : World} {contract : Contract} {snapshot : Snapshot}

/-- What an accepted guarded end leaves behind: the call is remembered as the latest, and each
clause was truthy in each of its arrangements. A negative limit is met by no two calls, so what is
remembered under it does not matter. -/
theorem State.conclude_cases (temporal : contract.isTemporal = true)
    (free : ∀ clause ∈ contract.ensures, clause.SideEffectFree world) (state : State)
    (current : Record) (memory : Memory) :
    ((state.conclude world contract snapshot current memory).accepted = state.accepted ∧
      ((state.conclude world contract snapshot current memory).remembered = state.remembered ∨
        snapshot.maxCache < 0)) ∨
    ((state.conclude world contract snapshot current memory).accepted =
        state.accepted ++ [⟨current, memory⟩] ∧
      ((state.conclude world contract snapshot current memory).remembered =
        (state.remembered ++ [current]).rtake snapshot.maxCache.toNat ∨ snapshot.maxCache < 0) ∧
      ∀ clause ∈ contract.ensures,
        ∀ arrangement ∈ arrangements clause.depth current state.remembered,
          clause.Truthy world (outerScope snapshot) memory arrangement.bindings) := by
  have sameTemporal : (state.recall contract).isTemporal = true := temporal
  have sameFree : ∀ clause ∈ (state.recall contract).ensures, clause.SideEffectFree world := free
  have truthy {final : Memory} (passed : (checkEnsures world (state.recall contract)
      (outerScope snapshot) current).run memory = (.ok (), final)) :=
    ((checkEnsures_run_eq_ok_iff sameFree).mp passed).2
  rcases Contract.conclude_cases world (state.recall contract) snapshot current memory with
    ⟨failure, final, _, ended⟩ | ⟨final, passed, plain | evicting | crashing⟩
  · exact .inl ⟨by simp [State.conclude, ended], .inl (by simp [State.conclude, ended])⟩
  · simp [sameTemporal] at plain
  · obtain ⟨_, _, ended⟩ := evicting
    exact .inr ⟨by simp [State.conclude, ended], .inl (by simp [State.conclude, ended]),
      truthy passed⟩
  · obtain ⟨_, negative, ended⟩ := crashing
    cases remembering :
        (remember snapshot.maxCache (state.recall contract).remembered current).1 with
    | error failure =>
      rw [remembering] at ended
      exact .inl ⟨by simp [State.conclude, ended, Except.map], .inr negative⟩
    | ok calls =>
      rw [remembering] at ended
      exact .inr ⟨by simp [State.conclude, ended, Except.map], .inr negative, truthy passed⟩

/-- An uninterrupted call is one way to interleave: its guarded end runs when it gets there. -/
theorem State.step_call (enabled : snapshot.enabled = true) (state : State) (bound : Bindings) :
    (∃ memory, state.step world contract snapshot (.call bound) =
      state.step world contract snapshot (.outside memory)) ∨
    (∃ memory returned, state.step world contract snapshot (.call bound) =
      state.after world contract snapshot [.outside memory, .guarded bound returned]) := by
  cases prepared : (prepare world (state.recall contract) snapshot bound).run state.memory with
  | mk outcome memory =>
    cases outcome with
    | error failure =>
      refine .inl ⟨memory, ?_⟩
      simp [State.step, Contract.run, enabled, prepared]
    | ok returned =>
      refine .inr ⟨memory, returned, ?_⟩
      have ran : Contract.run world (state.recall contract) snapshot bound state.memory =
          let ended := Contract.conclude world (state.recall contract) snapshot
            (record bound returned) memory
          ⟨ended.outcome.map (fun _ => returned), ended.memory, ended.remembered⟩ := by
        simp [Contract.run, enabled, prepared]
      have sameContract : ({ state with memory := memory } : State).recall contract =
          state.recall contract := rfl
      simp only [State.step, State.after, State.conclude, ran, prepared, sameContract,
        foldl_cons, foldl_nil]
      cases (Contract.conclude world (state.recall contract) snapshot
        (record bound returned) memory).outcome <;> rfl

/-!
## What one more accepted call adds
-/

/-- An accepted call within the limit of the next number is remembered, at its distance from the
end. -/
theorem remembered_of_near {accepted : List Accepted} {remembered : List Record}
    (recent : (accepted.map Accepted.call).rtake snapshot.maxCache.toNat <:+ remembered)
    {place : Nat} {earlier : Accepted} (found : accepted[place]? = some earlier)
    (near : (accepted.length : Int) - place ≤ snapshot.maxCache) :
    accepted.length - place ≤ remembered.length ∧
      remembered[remembered.length - (accepted.length - place)]? = some earlier.call := by
  have inside : place < accepted.length := (List.getElem?_eq_some_iff.mp found).1
  have insideCalls : place < (accepted.map Accepted.call).length := by simpa using inside
  have kept := getElem?_of_rtake_suffix recent insideCalls (by rw [length_map]; omega)
  simpa [found] using kept

theorem getElem?_append_singleton_cases {α : Type} {elements : List α} {latest element : α}
    {place : Nat} (found : (elements ++ [latest])[place]? = some element) :
    (place < elements.length ∧ elements[place]? = some element) ∨
      (place = elements.length ∧ element = latest) := by
  rcases Nat.lt_trichotomy place elements.length with inside | rfl | beyond
  · rw [List.getElem?_append_left inside] at found
    exact .inl ⟨inside, found⟩
  · simp at found
    exact .inr ⟨rfl, found.symm⟩
  · rw [List.getElem?_eq_none (by simp; omega)] at found
    cases found

section

variable {accepted : List Accepted} {remembered : List Record} {current : Record}
  {memory : Memory}
  (recent : (accepted.map Accepted.call).rtake snapshot.maxCache.toNat <:+ remembered)
  (truthy : ∀ clause ∈ contract.ensures,
    ∀ arrangement ∈ arrangements clause.depth current remembered,
      clause.Truthy world (outerScope snapshot) memory arrangement.bindings)

include recent truthy

theorem pairsHold_append (before : PairsHold world contract snapshot accepted) :
    PairsHold world contract snapshot (accepted ++ [⟨current, memory⟩]) := by
  intro clause member depth i j first second firstAt secondAt different near
  have inBothOrders (other : Record) (known : other ∈ remembered) :
      clause.Truthy world (outerScope snapshot) memory (Record.backticked other ++ current) ∧
        clause.Truthy world (outerScope snapshot) memory (Record.backticked current ++ other) := by
    have each := truthy clause member
    rw [depth] at each
    constructor
    · simpa using each ⟨[current, other], 0⟩ (mem_flatMap.mpr ⟨other, known, by simp⟩)
    · simpa using each ⟨[other, current], 1⟩ (mem_flatMap.mpr ⟨other, known, by simp⟩)
  rcases getElem?_append_singleton_cases firstAt with ⟨iInside, firstAt⟩ | ⟨rfl, rfl⟩
  · rcases getElem?_append_singleton_cases secondAt with ⟨jInside, secondAt⟩ | ⟨rfl, rfl⟩
    · obtain ⟨latest, latestAt, holds⟩ :=
        before clause member depth i j first second firstAt secondAt different near
      exact ⟨latest, by rwa [List.getElem?_append_left (by omega)], holds⟩
    · obtain ⟨_, known⟩ := remembered_of_near recent firstAt (by omega)
      refine ⟨⟨current, memory⟩, ?_, (inBothOrders _ (mem_of_getElem? known)).2⟩
      rw [Nat.max_eq_right (by omega)]
      simp
  · rcases getElem?_append_singleton_cases secondAt with ⟨jInside, secondAt⟩ | ⟨same, _⟩
    · obtain ⟨_, known⟩ := remembered_of_near recent secondAt (by omega)
      refine ⟨⟨current, memory⟩, ?_, (inBothOrders _ (mem_of_getElem? known)).1⟩
      rw [Nat.max_eq_left (by omega)]
      simp
    · exact absurd same.symm different

theorem triplesHold_append (before : TriplesHold world contract snapshot accepted) :
    TriplesHold world contract snapshot (accepted ++ [⟨current, memory⟩]) := by
  intro clause member depth i j k first second third firstAt secondAt thirdAt
    firstSecond secondThird firstThird near
  -- Two earlier calls within the limit are remembered at different places, so they are an ordered
  -- pair of remembered calls and meet the current call in all three roles.
  have inAllRoles (p q : Nat) (one other : Accepted) (oneAt : accepted[p]? = some one)
      (otherAt : accepted[q]? = some other) (different : p ≠ q)
      (oneNear : (accepted.length : Int) - p ≤ snapshot.maxCache)
      (otherNear : (accepted.length : Int) - q ≤ snapshot.maxCache) :
      clause.Truthy world (outerScope snapshot) memory
          (Record.doubleBackticked other.call ++ (Record.backticked one.call ++ current)) ∧
        clause.Truthy world (outerScope snapshot) memory
          (Record.doubleBackticked other.call ++ (Record.backticked current ++ one.call)) ∧
        clause.Truthy world (outerScope snapshot) memory
          (Record.doubleBackticked current ++ (Record.backticked other.call ++ one.call)) := by
    obtain ⟨oneKept, oneKnown⟩ := remembered_of_near recent oneAt oneNear
    obtain ⟨otherKept, otherKnown⟩ := remembered_of_near recent otherAt otherNear
    have oneInside : p < accepted.length := (List.getElem?_eq_some_iff.mp oneAt).1
    have otherInside : q < accepted.length := (List.getElem?_eq_some_iff.mp otherAt).1
    have paired : (one.call, other.call) ∈ orderedPairs remembered :=
      mem_orderedPairs_iff.mpr ⟨_, _, by omega, oneKnown, otherKnown⟩
    have each := truthy clause member
    rw [depth] at each
    refine ⟨?_, ?_, ?_⟩
    · simpa using each ⟨[current, one.call, other.call], 0⟩
        (mem_flatMap.mpr ⟨_, paired, by simp⟩)
    · simpa using each ⟨[one.call, current, other.call], 1⟩
        (mem_flatMap.mpr ⟨_, paired, by simp⟩)
    · simpa using each ⟨[one.call, other.call, current], 2⟩
        (mem_flatMap.mpr ⟨_, paired, by simp⟩)
  have latestAt : (accepted ++ [⟨current, memory⟩])[accepted.length]? = some ⟨current, memory⟩ := by
    simp
  rcases getElem?_append_singleton_cases firstAt with ⟨iInside, firstAt⟩ | ⟨iLast, firstLast⟩ <;>
    rcases getElem?_append_singleton_cases secondAt with
      ⟨jInside, secondAt⟩ | ⟨jLast, secondLast⟩ <;>
    rcases getElem?_append_singleton_cases thirdAt with
      ⟨kInside, thirdAt⟩ | ⟨kLast, thirdLast⟩ <;>
    try omega
  · obtain ⟨latest, latestAt, holds⟩ := before clause member depth i j k first second third
      firstAt secondAt thirdAt firstSecond secondThird firstThird near
    exact ⟨latest, by rwa [List.getElem?_append_left (by omega)], holds⟩
  · have greatest : max i (max j k) = accepted.length := by omega
    rw [greatest, thirdLast]
    exact ⟨_, latestAt, (inAllRoles i j first second firstAt secondAt firstSecond
      (by omega) (by omega)).2.2⟩
  · have greatest : max i (max j k) = accepted.length := by omega
    rw [greatest, secondLast]
    exact ⟨_, latestAt, (inAllRoles i k first third firstAt thirdAt firstThird
      (by omega) (by omega)).2.1⟩
  · have greatest : max i (max j k) = accepted.length := by omega
    rw [greatest, firstLast]
    exact ⟨_, latestAt, (inAllRoles j k second third secondAt thirdAt secondThird
      (by omega) (by omega)).1⟩

end

/-!
## Whole runs
-/

/-- What every state of a run keeps. -/
structure Covered (world : World) (contract : Contract) (snapshot : Snapshot) (state : State) :
    Prop where
  recent : Recent snapshot state
  pairs : PairsHold world contract snapshot state.accepted
  triples : TriplesHold world contract snapshot state.accepted

theorem Covered.of_fresh {state : State} (fresh : state.accepted = []) :
    Covered world contract snapshot state := by
  refine ⟨?_, ?_, ?_⟩
  · simp [Recent, fresh]
  · intro clause _ _ i j first second firstAt
    simp [fresh] at firstAt
  · intro clause _ _ i j k first second third firstAt
    simp [fresh] at firstAt

theorem Covered.conclude (temporal : contract.isTemporal = true)
    (free : ∀ clause ∈ contract.ensures, clause.SideEffectFree world) {state : State}
    (covered : Covered world contract snapshot state) (current : Record) (memory : Memory) :
    Covered world contract snapshot (state.conclude world contract snapshot current memory) := by
  obtain ⟨recent, pairs, triples⟩ := covered
  rcases state.conclude_cases temporal free current memory with
    ⟨acceptedSame, rememberedSame⟩ | ⟨acceptedMore, rememberedMore, truthy⟩
  · refine ⟨?_, by rwa [acceptedSame], by rwa [acceptedSame]⟩
    rcases rememberedSame with same | negative
    · rwa [Recent, acceptedSame, same]
    · rw [Recent, Int.toNat_of_nonpos (by omega), rtake_zero]
      exact nil_suffix
  · refine ⟨?_, ?_, ?_⟩
    · rcases rememberedMore with kept | negative
      · rw [Recent, acceptedMore, kept, map_append]
        exact rtake_append_singleton_suffix recent current
      · rw [Recent, Int.toNat_of_nonpos (by omega), rtake_zero]
        exact nil_suffix
    · rw [acceptedMore]
      exact pairsHold_append recent truthy pairs
    · rw [acceptedMore]
      exact triplesHold_append recent truthy triples

theorem Covered.step (enabled : snapshot.enabled = true) (temporal : contract.isTemporal = true)
    (free : ∀ clause ∈ contract.ensures, clause.SideEffectFree world) {state : State}
    (covered : Covered world contract snapshot state) (event : Event) :
    Covered world contract snapshot (state.step world contract snapshot event) := by
  have outside (memory : Memory) :
      Covered world contract snapshot (state.step world contract snapshot (.outside memory)) :=
    ⟨covered.recent, covered.pairs, covered.triples⟩
  cases event with
  | outside memory => exact outside memory
  | guarded bound returned => exact covered.conclude temporal free _ _
  | call bound =>
    rcases state.step_call enabled bound with ⟨memory, stopped⟩ | ⟨memory, returned, ended⟩
    · rw [stopped]
      exact outside memory
    · rw [ended]
      exact (outside memory).conclude temporal free _ _

theorem Covered.after (enabled : snapshot.enabled = true) (temporal : contract.isTemporal = true)
    (free : ∀ clause ∈ contract.ensures, clause.SideEffectFree world) {state : State}
    (covered : Covered world contract snapshot state) (events : List Event) :
    Covered world contract snapshot (state.after world contract snapshot events) := by
  induction events generalizing state with
  | nil => exact covered
  | cons event events ih => exact ih (covered.step enabled temporal free event)

theorem isTemporal_of_mem {clause : Condition} (member : clause ∈ contract.ensures)
    (deep : 0 < clause.depth) : contract.isTemporal = true :=
  any_eq_true.mpr ⟨clause, member, by simpa using deep⟩

end

/-- In any run of calls under one contract and one setting, however they are interleaved outside
their guarded ends, every temporal postcondition is truthy of all accepted calls whose numbers are
within the cache limit of one another, in all orders. Nothing is assumed about the calls that the
contract remembered before, and failed calls are not numbered. -/
theorem temporal_window_complete (world : World) (contract : Contract) (snapshot : Snapshot)
    (enabled : snapshot.enabled = true)
    (free : ∀ clause ∈ contract.ensures, clause.SideEffectFree world)
    (start : State) (fresh : start.accepted = []) (events : List Event) :
    PairsHold world contract snapshot (start.after world contract snapshot events).accepted ∧
      TriplesHold world contract snapshot
        (start.after world contract snapshot events).accepted := by
  constructor
  · intro clause member depth
    have temporal := isTemporal_of_mem member (by omega)
    exact ((Covered.of_fresh fresh).after enabled temporal free events).pairs clause member depth
  · intro clause member depth
    have temporal := isTemporal_of_mem member (by omega)
    exact ((Covered.of_fresh fresh).after enabled temporal free events).triples clause member depth

/-!
## A run of doublings
-/

/-- Doubling keeps the order of any two calls, and of any call with the sum of two others. -/
def doubling : Contract :=
  (Contract.wrap Sample.host (.function Sample.intFunction (.host "Double"))
    [.parameters ["n"], .ensures "n <= n` --> return <= return`",
      .ensures "n + n` <= n`` --> return + return` <= return``"]).toOption.get
    (by decide +kernel)

def sampleWorld : World := ⟨Sample.host, []⟩

def twoRemembered : Snapshot := ⟨true, 0, 2, []⟩

def untouched : State := ⟨.empty, [], []⟩

/-- Six calls. One is refused for its argument, one was interrupted, and one returns a value that
breaks the order. -/
def sixCalls : List Event :=
  [.call [("n", .ofWord 3)], .call [("n", .ofText "three")], .call [("n", .ofWord 1)],
    .outside ⟨[], 7⟩, .guarded [("n", .ofWord 5)] (.ofWord 10),
    .guarded [("n", .ofWord 4)] (.ofWord 0), .call [("n", .ofWord 2)]]

theorem doubling_sideEffectFree :
    ∀ clause ∈ doubling.ensures, clause.SideEffectFree sampleWorld := by
  have arithmetic : doubling.ensures.all (fun clause => clause.expr.isArithmetic) = true := by
    decide +kernel
  intro clause member
  exact Condition.sideEffectFree_of_isArithmetic sampleWorld
    (all_eq_true.mp arithmetic clause member)

theorem temporal_window_complete_doubling :
    twoRemembered.enabled = true ∧
      (∀ clause ∈ doubling.ensures, clause.SideEffectFree sampleWorld) ∧
      untouched.accepted = [] ∧
      (untouched.after sampleWorld doubling twoRemembered sixCalls).accepted.length = 4 ∧
      PairsHold sampleWorld doubling twoRemembered
        (untouched.after sampleWorld doubling twoRemembered sixCalls).accepted ∧
      TriplesHold sampleWorld doubling twoRemembered
        (untouched.after sampleWorld doubling twoRemembered sixCalls).accepted := by
  refine ⟨rfl, doubling_sideEffectFree, rfl, by decide +kernel, ?_⟩
  exact temporal_window_complete sampleWorld doubling twoRemembered rfl doubling_sideEffectFree
    untouched rfl sixCalls

end Covenant.Contract.Interleaving
