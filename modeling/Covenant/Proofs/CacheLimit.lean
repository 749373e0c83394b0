import Covenant.Proofs.Remembering
import Covenant.Proofs.SettingsHistory

/-!
# The cache limit that is in force

A cache size of any integer kind is taken into a word, and a large one turns negative. Under a
negative limit every call that is to be remembered crashes, or, where not even the number of calls
to be forgotten fits a word, all calls are kept.
-/

set_option autoImplicit false

namespace Covenant

/-!
## Sizes as words
-/

theorem IntKind.lt_of_holds {kind : IntKind} {count : Int} (held : kind.holds count = true) :
    count < 0x10000000000000000 := by
  have bounded : kind.greatest < 0x10000000000000000 := by cases kind <;> decide
  simp only [holds, Bool.and_eq_true, decide_eq_true_eq] at held
  omega

theorem IntKind.wrap_int {count : Int} (nonnegative : 0 ≤ count)
    (below : count < 0x10000000000000000) :
    IntKind.int.wrap count =
      if count < 0x8000000000000000 then count else count - 0x10000000000000000 := by
  have modulus : IntKind.int.wrap count = count.bmod 0x10000000000000000 := rfl
  rw [modulus, Int.bmod]
  have same : count % ((0x10000000000000000 : Nat) : Int) = count :=
    Int.emod_eq_of_lt nonnegative (by omega)
  rw [same]
  split <;> split <;> omega

/-!
## The size in force
-/

namespace Setting

/-- What was given in the last accepted attempt to assign a setting. -/
def given? (name : Text) (attempts : Bindings) : Option Value :=
  ((attempts.filter (fun attempt => (refusal? attempt).isNone)).filter
    (fun attempt => attempt.1 == name)).getLast?.map (·.2)

theorem latest?_eq_bind (name : Text) (attempts : Bindings) :
    latest? name attempts =
      (given? name attempts).bind (fun value => (accepted? (name, value)).map Setting.value) := by
  induction attempts using List.reverseRecOn with
  | nil => rfl
  | append_singleton attempts attempt ih =>
    unfold latest? given? at ih ⊢
    rw [List.filterMap_append, List.filter_append, List.filter_append, List.filter_append]
    rcases read_cases attempt with
      ⟨setting, read, accepted, noRefusal⟩ | ⟨failure, _, unaccepted, refused⟩
    · have label : setting.name = attempt.1 := name_of_read read
      by_cases same : attempt.1 = name
      · subst same
        simp [accepted, noRefusal, label]
      · have other : (attempt.1 == name) = false := beq_false_of_ne same
        simpa [accepted, noRefusal, label, other] using ih
    · simpa [unaccepted, refused] using ih

theorem accepted?_maxCache {value : Value} {setting : Setting} :
    accepted? ("max_cache", value) = some setting ↔
      ∃ type count, value = .int type count ∧ 0 ≤ count ∧
        setting = .maxCache (IntKind.int.wrap count) := by
  have reads : accepted? ("max_cache", value) = (readCache? value).map Setting.maxCache := by
    change (((readCache? value).map Setting.maxCache).elim _ Except.ok).toOption = _
    cases readCache? value <;> rfl
  rw [reads, Option.map_eq_some_iff]
  constructor
  · rintro ⟨word, found, rfl⟩
    unfold readCache? at found
    split at found
    · next type count =>
      split at found
      · cases found
      · next nonnegative =>
        cases found
        exact ⟨type, count, rfl, by omega, rfl⟩
    · cases found
  · rintro ⟨type, count, rfl, nonnegative, rfl⟩
    exact ⟨_, if_neg (by omega), rfl⟩

theorem exists_accepted_of_given {name : Text} {attempts : Bindings} {value : Value}
    (given : given? name attempts = some value) :
    ∃ setting, accepted? (name, value) = some setting := by
  unfold given? at given
  obtain ⟨⟨label, supplied⟩, isLast, rfl⟩ := Option.map_eq_some_iff.mp given
  have member := List.mem_of_getLast? isLast
  simp only [List.mem_filter, beq_iff_eq, Option.isNone_iff_eq_none] at member
  obtain ⟨⟨_, noRefusal⟩, rfl⟩ := member
  rcases read_cases (label, supplied) with ⟨setting, _, accepted, _⟩ | ⟨_, _, _, refused⟩
  · exact ⟨setting, accepted⟩
  · rw [noRefusal] at refused
    cases refused

end Setting

theorem Snapshot.maxCache_of_ofValues? {values : Text → Option Value} {snapshot : Snapshot}
    (made : Snapshot.ofValues? values = some snapshot) :
    (values "max_cache").bind Value.plainWord? = some snapshot.maxCache := by
  unfold Snapshot.ofValues? at made
  simp only [Option.bind_eq_bind, Option.bind_eq_some_iff, Option.pure_def,
    Option.some.injEq] at made
  obtain ⟨_, _, _, _, count, found, _, _, rfl⟩ := made
  exact Option.bind_eq_some_iff.mpr found

namespace Workspace.Attempts

/-- The cache size in force as it was given: by the overlay, or else by the store, or else the one
before any assignment. -/
def cacheGiven (attempts : Attempts) (store overlay : Text) : Value :=
  ((Setting.given? "max_cache" (attempts.overlays overlay)).or
    (Setting.given? "max_cache" (attempts.stores store))).getD (.ofWord 2)

/-- The last accepted cache size is an integer that is not negative, and it leaves a word. -/
theorem latest?_maxCache (tries : Bindings) :
    (Setting.given? "max_cache" tries = none ∧ Setting.latest? "max_cache" tries = none) ∨
    ∃ type count, Setting.given? "max_cache" tries = some (.int type count) ∧ 0 ≤ count ∧
      Setting.latest? "max_cache" tries = some (.ofWord (IntKind.int.wrap count)) := by
  rw [Setting.latest?_eq_bind]
  cases given : Setting.given? "max_cache" tries with
  | none => exact .inl ⟨rfl, rfl⟩
  | some value =>
    obtain ⟨setting, accepted⟩ := Setting.exists_accepted_of_given given
    obtain ⟨type, count, rfl, nonnegative, rfl⟩ := Setting.accepted?_maxCache.mp accepted
    refine .inr ⟨type, count, rfl, nonnegative, ?_⟩
    rw [Option.bind_some, accepted]
    rfl

theorem Explain.maxCache {attempts : Attempts} {workspace : Workspace}
    (explain : attempts.Explain workspace) (store overlay : Text) :
    ∃ type count, attempts.cacheGiven store overlay = .int type count ∧ 0 ≤ count ∧
      ((workspace.settingsOf store).resolve (workspace.overlayOf overlay)).maxCache =
        IntKind.int.wrap count := by
  have word := Snapshot.maxCache_of_ofValues? (explain.resolve store overlay)
  unfold cacheGiven
  rcases latest?_maxCache (attempts.overlays overlay) with
    ⟨notGiven, notLatest⟩ | ⟨type, count, given, nonnegative, latest⟩
  · rw [notLatest, Option.none_or] at word
    rw [notGiven, Option.none_or]
    rcases latest?_maxCache (attempts.stores store) with
      ⟨notGiven, notLatest⟩ | ⟨type, count, given, nonnegative, latest⟩
    · rw [notLatest, Option.none_or] at word
      rw [notGiven]
      exact ⟨_, 2, rfl, by decide, (Option.some.inj word).symm⟩
    · rw [latest, Option.some_or] at word
      rw [given]
      exact ⟨type, count, rfl, nonnegative, (Option.some.inj word).symm⟩
  · rw [latest, Option.some_or, Option.some_or] at word
    rw [given, Option.some_or]
    exact ⟨type, count, rfl, nonnegative, (Option.some.inj word).symm⟩

end Workspace.Attempts

/-!
## Forgetting calls
-/

namespace Contract

variable {world : World} {contract : Contract} {snapshot : Snapshot}

/-- Under a negative limit, a call that is to be remembered crashes unless the number of calls to be
forgotten does not fit a word. -/
theorem conclude_of_neg (negative : snapshot.maxCache < 0) (temporal : contract.isTemporal = true)
    {current : Record} {memory final : Memory}
    (passed : (checkEnsures world contract (outerScope snapshot) current).run memory =
      (.ok (), final)) :
    (conclude world contract snapshot current memory).remembered =
        contract.remembered ++ [current] ∧
      ((∃ reason, (conclude world contract snapshot current memory).outcome =
          .error (.crash reason)) ↔
        (contract.remembered.length : Int) + 1 - snapshot.maxCache < 0x8000000000000000) := by
  rcases conclude_cases world contract snapshot current memory with
    ⟨failure, _, ran, _⟩ | ⟨_, _, plain | evicting | crashing⟩
  · rw [passed] at ran
    cases ran
  · rw [temporal] at plain
    cases plain.1
  · exact absurd negative (by omega)
  · obtain ⟨_, _, ended⟩ := crashing
    rw [ended]
    refine ⟨rfl, ?_⟩
    rcases remember_of_neg negative contract.remembered current with
      ⟨fits, reason, crashed⟩ | ⟨tooLarge, kept⟩
    · rw [crashed]
      exact iff_of_true ⟨reason, rfl⟩ fits
    · rw [kept]
      refine iff_of_false ?_ (by omega)
      rintro ⟨reason, crashed⟩
      cases crashed

end Contract

namespace Workspace

/-- Whatever was assigned before, the cache size in force was given as an integer that is not
negative. The limit of a call is that integer, and is not negative, exactly when the integer is
below `2 ^ 63`. Then no call fails for the calls that are forgotten. A larger integer, which only
unsigned kinds of 64 bits have, becomes a negative limit: calls that pass their postconditions and
are to be remembered crash until so many are remembered that their surplus does not fit a word,
and none is forgotten. -/
theorem cache_limit_kept_iff_below_word (workspace : Workspace) (changes : List SettingsChange)
    (store overlay : Text) :
    let fresh : Workspace := { workspace with stores := [], overlays := [] }
    let reached := fresh.afterChanges changes
    let attempts := changes.foldl (Attempts.after workspace.memory) .initial
    let snapshot := (reached.settingsOf store).resolve (reached.overlayOf overlay)
    ∃ type count, attempts.cacheGiven store overlay = .int type count ∧ 0 ≤ count ∧
      ∀ kind : IntKind, type.underlying = .int kind → kind.holds count = true →
        (snapshot.maxCache = count ↔ count < 0x8000000000000000) ∧
        (0 ≤ snapshot.maxCache ↔ count < 0x8000000000000000) ∧
        (count < 0x8000000000000000 → ∀ (world : World) (contract : Contract) (current : Record)
          (memory : Memory),
          (contract.conclude world snapshot current memory).outcome =
            ((contract.checkEnsures world (Contract.outerScope snapshot) current).run memory).1) ∧
        (0x8000000000000000 ≤ count → snapshot.maxCache = count - 0x10000000000000000 ∧
          ∀ (world : World) (contract : Contract) (current : Record) (memory final : Memory),
            contract.isTemporal = true →
            (contract.checkEnsures world (Contract.outerScope snapshot) current).run memory =
              (.ok (), final) →
            (contract.conclude world snapshot current memory).remembered =
              contract.remembered ++ [current] ∧
            ((∃ reason, (contract.conclude world snapshot current memory).outcome =
              .error (.crash reason)) ↔
                (contract.remembered.length : Int) + 1 + (0x10000000000000000 - count) <
                  0x8000000000000000)) := by
  intro fresh reached attempts snapshot
  have explain : attempts.Explain reached := (Attempts.explain_initial workspace).run changes
  obtain ⟨type, count, given, nonnegative, wrapped⟩ := explain.maxCache store overlay
  refine ⟨type, count, given, nonnegative, ?_⟩
  intro kind _ held
  have limit : snapshot.maxCache =
      if count < 0x8000000000000000 then count else count - 0x10000000000000000 :=
    wrapped.trans (IntKind.wrap_int nonnegative (IntKind.lt_of_holds held))
  have bounded := IntKind.lt_of_holds held
  refine ⟨?_, ?_, ?_, ?_⟩
  · rw [limit]
    split <;> omega
  · rw [limit]
    split <;> omega
  · intro below world contract current memory
    rw [if_pos below] at limit
    exact Contract.conclude_outcome (limit ▸ nonnegative) current memory
  · intro large
    rw [if_neg (by omega)] at limit
    refine ⟨limit, ?_⟩
    intro world contract current memory final temporal passed
    obtain ⟨added, crashes⟩ := Contract.conclude_of_neg (by omega) temporal passed
    rw [limit] at crashes
    exact ⟨added, crashes.trans (by omega)⟩

theorem cache_limit_kept_iff_below_word_sample :
    let reached := (initial Sample.host).afterChanges sampleChanges
    let snapshot := (reached.settingsOf "global").resolve (reached.overlayOf "third")
    snapshot.maxCache = 7 ∧
      ∀ (world : World) (contract : Contract) (current : Record) (memory : Memory),
        (contract.conclude world snapshot current memory).outcome =
          ((contract.checkEnsures world (Contract.outerScope snapshot) current).run memory).1 := by
  obtain ⟨type, count, given, _, kept⟩ :=
    cache_limit_kept_iff_below_word (initial Sample.host) sampleChanges "global" "third"
  have small : (sampleChanges.foldl (Attempts.after (initial Sample.host).memory)
      .initial).cacheGiven "global" "third" = .int (.int .uint8) 7 := rfl
  rw [small] at given
  cases given
  obtain ⟨same, _, ends, _⟩ := kept .uint8 rfl rfl
  exact ⟨same.mpr (by decide), ends (by decide)⟩

/-- The greatest unsigned integer of 64 bits is accepted as a cache size and makes the limit
negative: the first call that is to be remembered crashes. -/
theorem greatest_cache_size_crashes :
    let changes := [SettingsChange.set "global" "max_cache"
      (.int (.int .uint64) 0xFFFFFFFFFFFFFFFF)]
    let reached := doublingWorkspace.afterChanges changes
    ((Workspace.set "global" "max_cache" (.int (.int .uint64) 0xFFFFFFFFFFFFFFFF)).run
      doublingWorkspace).1.isOk = true ∧
    ((reached.settingsOf "global").resolve .empty).maxCache = -1 ∧
    (((Workspace.call "double" [.ofWord 3] []).run reached).1.map (fun _ => ())).mapError
      Failure.message = .error "runtime error: slice bounds out of range [2:1]" := by
  intro changes reached
  exact ⟨by decide +kernel, by decide +kernel, by decide +kernel⟩

end Workspace

end Covenant
