import Covenant.Failure
import Mathlib.Data.List.Forall2

/-!
# Outcomes that succeed

When a computation that may fail succeeds, its steps did: for a sequence, a fold, a traversal and a
test of every element.
-/

set_option autoImplicit false

namespace Covenant

open List

variable {α β ε γ : Type} {first : Except Failure Unit} {result : Except ε α} {items : List α}

theorem bind_eq_ok_iff {first : Except ε α} {next : α → Except ε β} {result : β} :
    (first >>= next) = .ok result ↔ ∃ value, first = .ok value ∧ next value = .ok result := by
  cases first with
  | error failure =>
    constructor
    · intro succeeded
      cases succeeded
    · rintro ⟨_, succeeded, _⟩
      cases succeeded
  | ok value =>
    constructor
    · intro succeeded
      exact ⟨value, rfl, succeeded⟩
    · rintro ⟨_, same, succeeded⟩
      cases same
      exact succeeded

theorem bind_eq_error_iff {first : Except ε α} {next : α → Except ε β} {failure : ε} :
    (first >>= next) = .error failure ↔
      first = .error failure ∨ ∃ value, first = .ok value ∧ next value = .error failure := by
  cases first <;> simp [bind, Except.bind]

theorem andThen_eq_ok_iff {next : Except Failure β} {result : β} :
    (do first; next) = .ok result ↔ first = .ok () ∧ next = .ok result :=
  bind_eq_ok_iff.trans
    ⟨fun ⟨_, passed, succeeded⟩ => ⟨passed, succeeded⟩,
      fun ⟨passed, succeeded⟩ => ⟨(), passed, succeeded⟩⟩

theorem map_eq_ok_iff {change : α → β} {value : β} :
    change <$> result = .ok value ↔ ∃ found, result = .ok found ∧ change found = value := by
  cases result with
  | error failure =>
    constructor
    · intro succeeded
      cases succeeded
    · rintro ⟨_, succeeded, _⟩
      cases succeeded
  | ok found =>
    constructor
    · intro succeeded
      cases succeeded
      exact ⟨found, rfl, rfl⟩
    · rintro ⟨_, same, rfl⟩
      cases same
      rfl

theorem foldlM_keeps {step : α → β → Except Failure α} {view : α → γ}
    (keeps : ∀ found item next, step found item = .ok next → view next = view found)
    {items : List β} {start last : α} (folded : items.foldlM step start = .ok last) :
    view last = view start := by
  induction items generalizing start with
  | nil =>
    cases folded
    rfl
  | cons item items ih =>
    rw [foldlM_cons] at folded
    obtain ⟨middle, first, others⟩ := bind_eq_ok_iff.mp folded
    exact (ih others).trans (keeps start item middle first)

theorem mapM_keeps {change : α → Except Failure β} {view : α → γ} {viewAfter : β → γ}
    (keeps : ∀ item changed, change item = .ok changed → viewAfter changed = view item)
    {changed : List β} (mapped : items.mapM change = .ok changed) :
    changed.map viewAfter = items.map view := by
  induction items generalizing changed with
  | nil =>
    cases mapped
    rfl
  | cons item items ih =>
    rw [mapM_cons] at mapped
    obtain ⟨first, firstChanged, mapped⟩ := bind_eq_ok_iff.mp mapped
    obtain ⟨rest, restChanged, mapped⟩ := bind_eq_ok_iff.mp mapped
    cases mapped
    rw [map_cons, map_cons, keeps item first firstChanged, ih restChanged]

theorem map_eq_error_iff {change : α → β} {failure : ε} :
    change <$> result = .error failure ↔ result = .error failure := by
  cases result with
  | error cause => constructor <;> (intro same; cases same; rfl)
  | ok value => exact ⟨nofun, nofun⟩

theorem mapError_eq_ok_iff {δ : Type} {change : ε → δ} {value : α} :
    result.mapError change = .ok value ↔ result = .ok value := by
  cases result with
  | error failure => exact ⟨nofun, nofun⟩
  | ok found => constructor <;> (intro same; cases same; rfl)

theorem mapError_eq_error_iff {δ : Type} {change : ε → δ} {failure : δ} :
    result.mapError change = .error failure ↔
      ∃ cause, result = .error cause ∧ change cause = failure := by
  cases result with
  | error cause =>
    constructor
    · intro same
      exact ⟨cause, rfl, Except.error.inj same⟩
    · rintro ⟨_, same, rfl⟩
      cases same
      rfl
  | ok value => exact ⟨nofun, nofun⟩

section

variable {refusal : Option α} {explain : α → ε}

theorem elim_eq_ok_iff :
    refusal.elim (.ok ()) (fun cause => .error (explain cause)) = Except.ok () ↔
      refusal = none := by
  cases refusal <;> simp

theorem elim_eq_error_iff {failure : ε} :
    refusal.elim (.ok ()) (fun cause => .error (explain cause)) = Except.error failure ↔
      ∃ cause, refusal = some cause ∧ explain cause = failure := by
  cases refusal <;> simp

end

theorem isOk_iff {result : Except Failure Unit} : result.isOk = true ↔ result = .ok () := by
  cases result with
  | error failure => exact ⟨nofun, nofun⟩
  | ok => exact ⟨fun _ => rfl, fun _ => rfl⟩

theorem eq_ok_get_toOption (succeeded : result.toOption.isSome = true) :
    result = .ok (result.toOption.get succeeded) := by
  cases result with
  | error failure => cases succeeded
  | ok value => rfl

theorem isOk_andThen {next : Except Failure Unit} :
    (do first; next).isOk = (first.isOk && next.isOk) := by
  cases first <;> rfl

theorem forM_eq_ok_iff {test : α → Except Failure Unit} :
    items.forM test = .ok () ↔ ∀ item ∈ items, test item = .ok () := by
  induction items with
  | nil => exact ⟨nofun, fun _ => rfl⟩
  | cons item items ih =>
    rw [forall_mem_cons, ← ih]
    exact andThen_eq_ok_iff

theorem exists_mem_of_forM_eq_error {test : α → Except Failure Unit}
    {failure : Failure} (failed : items.forM test = .error failure) :
    ∃ item ∈ items, test item = .error failure := by
  induction items with
  | nil => cases failed
  | cons item items ih =>
    have failed : (do test item; items.forM test) = .error failure := failed
    cases tested : test item with
    | error first =>
      rw [tested] at failed
      cases failed
      exact ⟨item, mem_cons_self, tested⟩
    | ok =>
      rw [tested] at failed
      obtain ⟨other, member, refused⟩ := ih failed
      exact ⟨other, mem_cons_of_mem item member, refused⟩

theorem mapM_eq_ok_iff {step : α → Except ε β} {results : List β} :
    items.mapM step = .ok results ↔
      List.Forall₂ (fun item result => step item = .ok result) items results := by
  induction items generalizing results with
  | nil =>
    rw [mapM_nil, forall₂_nil_left_iff]
    constructor
    · intro mapped
      cases mapped
      rfl
    · intro none
      rw [none]
      rfl
  | cons item items ih =>
    rw [mapM_cons, forall₂_cons_left_iff]
    constructor
    · intro mapped
      obtain ⟨first, stepped, mapped⟩ := bind_eq_ok_iff.mp mapped
      obtain ⟨rest, others, mapped⟩ := bind_eq_ok_iff.mp mapped
      cases mapped
      exact ⟨first, rest, stepped, ih.mp others, rfl⟩
    · intro mapped
      obtain ⟨first, rest, stepped, others, same⟩ := mapped
      rw [same]
      exact bind_eq_ok_iff.mpr ⟨first, stepped, bind_eq_ok_iff.mpr ⟨rest, ih.mpr others, rfl⟩⟩

theorem exists_mem_of_forall₂ {relation : α → β → Prop} {others : List β}
    (related : List.Forall₂ relation items others) {item : α} (member : item ∈ items) :
    ∃ other ∈ others, relation item other := by
  induction related with
  | nil => cases member
  | cons own _ ih =>
    cases member with
    | head => exact ⟨_, mem_cons_self, own⟩
    | tail _ later =>
      obtain ⟨other, inside, found⟩ := ih later
      exact ⟨other, mem_cons_of_mem _ inside, found⟩

theorem exists_mem_of_mapM_eq_ok {step : α → Except ε β} {results : List β}
    (mapped : items.mapM step = .ok results) {result : β} (member : result ∈ results) :
    ∃ item ∈ items, step item = .ok result :=
  exists_mem_of_forall₂ (mapM_eq_ok_iff.mp mapped).flip member

end Covenant
