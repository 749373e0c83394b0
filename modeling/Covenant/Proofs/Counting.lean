import Covenant.Condition.Builtins
import Covenant.Proofs.WholeArithmetic

/-!
# Counting within 64 bits

`range` counts by adding the step within 64 bits, where a sum past one end comes in again at the
other. It gives the numbers of this loop, and none exactly where the loop does not end. They are the
arithmetic progression exactly when a number of the progression that is past the stop can still be
represented.
-/

set_option autoImplicit false

namespace Covenant.Condition

open List

variable {start stop step number : Int} {numbers : List Int}

/-!
## The loop
-/

/-- The condition on which counting goes on. -/
def GoesOn (stop step number : Int) : Prop :=
  (0 < step ∧ number < stop) ∨ (step < 0 ∧ stop < number)

instance : Decidable (GoesOn stop step number) := inferInstanceAs (Decidable (_ ∨ _))

theorem not_goesOn_iff_of_pos (ascends : 0 < step) :
    ¬ GoesOn stop step number ↔ stop ≤ number := by
  rw [GoesOn]
  omega

theorem not_goesOn_iff_of_neg (descends : step < 0) :
    ¬ GoesOn stop step number ↔ number ≤ stop := by
  rw [GoesOn]
  omega

/-- The loop ends, and these are the numbers that it meets. -/
inductive Counts (stop step : Int) : Int → List Int → Prop where
  | reached {number : Int} (ended : ¬ GoesOn stop step number) : Counts stop step number []
  | next {number : Int} {numbers : List Int} (short : GoesOn stop step number)
      (rest : Counts stop step (wrap (number + step)) numbers) :
      Counts stop step number (number :: numbers)

theorem counts_iff_of_goesOn (short : GoesOn stop step number) :
    Counts stop step number numbers ↔
      ∃ rest, numbers = number :: rest ∧ Counts stop step (wrap (number + step)) rest := by
  constructor
  · intro counts
    cases counts with
    | reached ended => exact absurd short ended
    | next _ rest => exact ⟨_, rfl, rest⟩
  · rintro ⟨rest, rfl, counts⟩
    exact .next short counts

theorem counts_iff_of_reached (ended : ¬ GoesOn stop step number) :
    Counts stop step number numbers ↔ numbers = [] := by
  constructor
  · intro counts
    cases counts with
    | reached => rfl
    | next short => exact absurd short ended
  · rintro rfl
    exact .reached ended

theorem Counts.unique {others : List Int} (counts : Counts stop step number numbers)
    (again : Counts stop step number others) : numbers = others := by
  induction counts generalizing others with
  | reached ended => exact ((counts_iff_of_reached ended).mp again).symm
  | next short _ ih =>
    obtain ⟨rest, rfl, counted⟩ := (counts_iff_of_goesOn short).mp again
    rw [ih counted]

theorem wrap_wrap_add (left right : Int) : wrap (wrap left + right) = wrap (left + right) :=
  wrap_congr ((wrap_modEq left).add_right right)

theorem wrap_add_succ_mul (count : Nat) :
    wrap (wrap (start + step) + count * step) = wrap (start + (count + 1 : Nat) * step) := by
  rw [wrap_wrap_add, Nat.cast_add, Nat.cast_one, add_mul, one_mul, add_right_comm, add_assoc start]

theorem Counts.ended (startFits : fits start = true) (counts : Counts stop step start numbers) :
    ¬ GoesOn stop step (wrap (start + numbers.length * step)) := by
  induction counts with
  | reached ended => rwa [length_nil, Nat.cast_zero, zero_mul, add_zero, wrap_of_fits startFits]
  | next _ _ ih => rw [length_cons, ← wrap_add_succ_mul]; exact ih (fits_wrap _)

theorem exists_counts_of_ended (startFits : fits start = true) {count : Nat}
    (ended : ¬ GoesOn stop step (wrap (start + count * step))) :
    ∃ numbers, Counts stop step start numbers ∧ numbers.length ≤ count := by
  induction count generalizing start with
  | zero =>
    rw [Nat.cast_zero, zero_mul, add_zero, wrap_of_fits startFits] at ended
    exact ⟨[], .reached ended, Nat.le_refl 0⟩
  | succ count ih =>
    by_cases short : GoesOn stop step start
    · rw [← wrap_add_succ_mul] at ended
      obtain ⟨numbers, counts, bounded⟩ := ih (fits_wrap _) ended
      exact ⟨_, .next short counts, Nat.succ_le_succ bounded⟩
    · exact ⟨[], .reached short, Nat.zero_le _⟩

/-- After as many steps as there are words the loop would be where it began, so it ends before. -/
theorem Counts.length_lt (startFits : fits start = true)
    (counts : Counts stop step start numbers) : numbers.length < 0x10000000000000000 := by
  have reduced : ((numbers.length % 0x10000000000000000 : Nat) : Int) ≡ numbers.length
      [ZMOD 0x10000000000000000] := by
    rw [Int.natCast_mod]
    exact Int.mod_modEq _ _
  have ended := counts.ended startFits
  rw [← wrap_congr ((reduced.mul_right step).add_left start)] at ended
  obtain ⟨others, again, bounded⟩ := exists_counts_of_ended startFits ended
  rw [counts.unique again] at bounded ⊢
  omega

/-!
## Where the loop ends
-/

/-- Counting meets the numbers that differ from the first one by a multiple of the common divisor of
the step and the number of words. -/
theorem exists_wrap_eq_iff (numberFits : fits number = true) :
    (∃ count : Nat, wrap (start + count * step) = number) ↔
      (Nat.gcd step.natAbs 0x10000000000000000 : Int) ∣ number - start := by
  have onStep : (Nat.gcd step.natAbs 0x10000000000000000 : Int) ∣ step :=
    Int.gcd_dvd_left step 0x10000000000000000
  have onWords : (Nat.gcd step.natAbs 0x10000000000000000 : Int) ∣ 0x10000000000000000 :=
    Int.gcd_dvd_right step 0x10000000000000000
  constructor
  · rintro ⟨count, rfl⟩
    have sum := (wrap_modEq (start + count * step)).symm.dvd
    have split : wrap (start + count * step) - start =
        (wrap (start + count * step) - (start + count * step)) + count * step := by ring
    rw [split]
    exact dvd_add (onWords.trans sum) (onStep.mul_left _)
  · rintro ⟨multiple, apart⟩
    have bezout : (Nat.gcd step.natAbs 0x10000000000000000 : Int) =
        step * step.gcdA 0x10000000000000000 +
          0x10000000000000000 * step.gcdB 0x10000000000000000 :=
      Int.gcd_eq_gcd_ab step 0x10000000000000000
    generalize step.gcdA 0x10000000000000000 = factor at bezout
    generalize step.gcdB 0x10000000000000000 = words at bezout
    have nonnegative : 0 ≤ factor * multiple % 0x10000000000000000 :=
      Int.emod_nonneg _ (by decide)
    refine ⟨(factor * multiple % 0x10000000000000000).toNat, ?_⟩
    rw [Int.toNat_of_nonneg nonnegative, ← wrap_of_fits numberFits]
    apply wrap_congr
    have reduced : factor * multiple % 0x10000000000000000 ≡ factor * multiple
        [ZMOD 0x10000000000000000] := Int.mod_modEq _ _
    calc start + factor * multiple % 0x10000000000000000 * step
        ≡ start + factor * multiple * step [ZMOD 0x10000000000000000] :=
          (reduced.mul_right step).add_left start
      _ ≡ number [ZMOD 0x10000000000000000] := by
          rw [bezout] at apart
          rw [Int.modEq_iff_dvd]
          exact ⟨words * multiple, by linear_combination apart⟩

theorem mul_le_sub_emod {stride room multiple : Int} (positive : 0 < stride)
    (inside : stride * multiple ≤ room) : stride * multiple ≤ room - room % stride := by
  have quotient : multiple ≤ room / stride :=
    (Int.le_ediv_iff_mul_le positive).mpr (by rwa [mul_comm])
  have whole := Int.emod_add_mul_ediv room stride
  have bound := Int.mul_le_mul_of_nonneg_left quotient positive.le
  omega

theorem sub_emod_of_nonneg {stride room : Int} (positive : 0 < stride) (nonnegative : 0 ≤ room) :
    ∃ multiple, room - room % stride = stride * multiple ∧ 0 ≤ stride * multiple := by
  have whole := Int.emod_add_mul_ediv room stride
  have quotient := Int.mul_nonneg positive.le (Int.ediv_nonneg nonnegative positive.le)
  exact ⟨room / stride, by omega, quotient⟩

/-- Of the numbers at a multiple of the stride, the greatest decides whether the stop is reached
from below, and the least whether from above. -/
theorem exists_past_iff {stride : Int} (positive : 0 < stride) (startFits : fits start = true) :
    ((∃ number, fits number = true ∧ stride ∣ number - start ∧ stop ≤ number) ↔
      stop ≤ 0x7fffffffffffffff - (0x7fffffffffffffff - start) % stride) ∧
    ((∃ number, fits number = true ∧ stride ∣ number - start ∧ number ≤ stop) ↔
      -0x8000000000000000 + (start - -0x8000000000000000) % stride ≤ stop) := by
  rw [fits_iff] at startFits
  simp only [fits_iff]
  refine ⟨⟨?_, fun below => ?_⟩, ⟨?_, fun above => ?_⟩⟩
  · rintro ⟨number, inside, ⟨multiple, apart⟩, past⟩
    have bound := mul_le_sub_emod positive
      (by omega : stride * multiple ≤ 0x7fffffffffffffff - start)
    omega
  · obtain ⟨multiple, whole, nonnegative⟩ := sub_emod_of_nonneg positive
      (by omega : 0 ≤ 0x7fffffffffffffff - start)
    have rest := Int.emod_nonneg (0x7fffffffffffffff - start) positive.ne'
    exact ⟨_, by omega, ⟨multiple, by omega⟩, below⟩
  · rintro ⟨number, inside, ⟨multiple, apart⟩, past⟩
    have opposite : stride * -multiple = start - number := by rw [mul_neg, ← apart, neg_sub]
    have bound := mul_le_sub_emod positive
      (by omega : stride * -multiple ≤ start - -0x8000000000000000)
    omega
  · obtain ⟨multiple, whole, nonnegative⟩ := sub_emod_of_nonneg positive
      (by omega : 0 ≤ start - -0x8000000000000000)
    have rest := Int.emod_nonneg (start - -0x8000000000000000) positive.ne'
    exact ⟨_, by omega, ⟨-multiple, by rw [mul_neg]; omega⟩, above⟩

theorem countingEnds_iff (startFits : fits start = true) (nonzero : step ≠ 0) :
    countingEnds start stop step = true ↔ ∃ numbers, Counts stop step start numbers := by
  have positive : (0 : Int) < Nat.gcd step.natAbs 0x10000000000000000 :=
    Int.natCast_pos.mpr (Nat.gcd_pos_of_pos_right _ (by decide))
  have met : (∃ count : Nat, ¬ GoesOn stop step (wrap (start + count * step))) ↔
      ∃ number, fits number = true ∧
        (Nat.gcd step.natAbs 0x10000000000000000 : Int) ∣ number - start ∧
          ¬ GoesOn stop step number := by
    constructor
    · rintro ⟨count, ended⟩
      exact ⟨_, fits_wrap _, (exists_wrap_eq_iff (fits_wrap _)).mp ⟨count, rfl⟩, ended⟩
    · rintro ⟨number, inside, apart, ended⟩
      obtain ⟨count, rfl⟩ := (exists_wrap_eq_iff inside).mpr apart
      exact ⟨count, ended⟩
  obtain ⟨upward, downward⟩ := @exists_past_iff start stop _ positive startFits
  have ends : (∃ numbers, Counts stop step start numbers) ↔
      ∃ count : Nat, ¬ GoesOn stop step (wrap (start + count * step)) :=
    ⟨fun ⟨_, counts⟩ => ⟨_, counts.ended startFits⟩,
      fun ⟨_, ended⟩ => (exists_counts_of_ended startFits ended).imp fun _ both => both.1⟩
  rw [ends, met, countingEnds]
  split
  · next ascends =>
    simp only [not_goesOn_iff_of_pos ascends]
    exact decide_eq_true_iff.trans upward.symm
  · next descends =>
    simp only [not_goesOn_iff_of_neg (lt_of_le_of_ne (Int.not_lt.mp descends) nonzero)]
    exact decide_eq_true_iff.trans downward.symm

/-!
## Passes
-/

/-- What `range` counts with. -/
structure RangeBounds (start stop step : Int) : Prop where
  startFits : fits start = true
  stopFits : fits stop = true
  stepFits : fits step = true
  nonzero : step ≠ 0

theorem lt_stepCount_iff (nonzero : step ≠ 0) {index : Nat} :
    index < stepCount start stop step ↔ GoesOn stop step (start + index * step) := by
  rw [stepCount, GoesOn]
  split
  · next ascends =>
    have counted := @Int.le_ediv_iff_mul_le (index + 1) (stop - start + step - 1) step ascends
    rw [add_mul, one_mul] at counted
    omega
  · next descends =>
    have counted := @Int.le_ediv_iff_mul_le (index + 1) (start - stop - step - 1) (-step) (by omega)
    rw [add_mul, one_mul, mul_neg] at counted
    omega

theorem not_goesOn_firstPast (nonzero : step ≠ 0) :
    ¬ GoesOn stop step (firstPast start stop step) := by
  rw [firstPast, ← lt_stepCount_iff nonzero]
  exact Nat.lt_irrefl _

/-- The sum past the end comes in again at the other end, from where counting goes on. -/
theorem goesOn_wrap_of_unfit (numberFits : fits number = true) (stepFits : fits step = true)
    (short : GoesOn stop step number) (outside : fits (number + step) = false) :
    GoesOn stop step (wrap (number + step)) := by
  rw [← Bool.not_eq_true, fits_iff] at outside
  rw [fits_iff] at numberFits stepFits
  have cut (sum words : Int) (inside : fits (sum + words * 0x10000000000000000) = true) :
      wrap sum = sum + words * 0x10000000000000000 := by
    rw [← wrap_of_fits inside]
    exact wrap_congr (Int.modEq_iff_dvd.mpr ⟨words, by ring⟩)
  rcases short with ⟨ascends, below⟩ | ⟨descends, above⟩
  · rw [cut _ (-1) (fits_iff.mpr (by omega)), GoesOn]
    omega
  · rw [cut _ 1 (fits_iff.mpr (by omega)), GoesOn]
    omega

namespace RangeBounds

variable (bounds : RangeBounds start stop step)

include bounds

theorem fits_of_goesOn {index : Nat}
    (short : GoesOn stop step (start + index * step)) : fits (start + index * step) = true := by
  obtain ⟨startFits, stopFits, _, _⟩ := bounds
  rw [fits_iff] at *
  rw [GoesOn] at short
  rcases short with ⟨ascends, below⟩ | ⟨descends, above⟩
  · have moved : 0 ≤ index * step := Int.mul_nonneg (by omega) (by omega)
    omega
  · have moved : index * step ≤ 0 := Int.mul_nonpos_of_nonneg_of_nonpos (by omega) (by omega)
    omega

theorem counts_pass_iff {count : Nat}
    (short : ∀ index < count, GoesOn stop step (start + (index : Nat) * step)) :
    Counts stop step start numbers ↔
      ∃ rest, numbers = (List.range count).map (fun (index : Nat) => start + index * step) ++ rest ∧
        Counts stop step (wrap (start + count * step)) rest := by
  induction count generalizing numbers with
  | zero => simp [wrap_of_fits bounds.startFits]
  | succ count ih =>
    have last := short count (by omega)
    have inside := bounds.fits_of_goesOn last
    rw [ih fun index below => short index (by omega)]
    simp only [wrap_of_fits inside, counts_iff_of_goesOn last, range_succ, map_append, map_cons,
      map_nil, append_assoc, singleton_append]
    have further : start + (count : Int) * step + step = start + (count + 1 : Nat) * step := by
      push_cast
      ring
    rw [further]
    constructor
    · rintro ⟨_, rfl, rest, rfl, counts⟩
      exact ⟨rest, rfl, counts⟩
    · rintro ⟨rest, rfl, counts⟩
      exact ⟨_, rfl, rest, rfl, counts⟩

theorem counts_progression_iff :
    Counts stop step start numbers ↔
      ∃ rest, numbers = progression start stop step ++ rest ∧
        Counts stop step (wrap (firstPast start stop step)) rest :=
  bounds.counts_pass_iff fun _ below => (lt_stepCount_iff bounds.nonzero).mp below

theorem counts_iff_of_fits (inside : fits (firstPast start stop step) = true) :
    Counts stop step start numbers ↔ numbers = progression start stop step := by
  rw [bounds.counts_progression_iff]
  simp only [wrap_of_fits inside, counts_iff_of_reached (not_goesOn_firstPast bounds.nonzero),
    ↓existsAndEq, append_nil, and_true]

/-- A pass that does not reach the stop met numbers, and so does the next one. -/
theorem pass_of_unfit (outside : fits (firstPast start stop step) = false) :
    progression start stop step ≠ [] ∧ GoesOn stop step (wrap (firstPast start stop step)) := by
  rw [firstPast] at outside ⊢
  cases counted : stepCount start stop step with
  | zero => simp [counted, bounds.startFits] at outside
  | succ count =>
    have last : GoesOn stop step (start + count * step) :=
      (lt_stepCount_iff bounds.nonzero).mp (by omega)
    rw [counted, Nat.cast_add, Nat.cast_one, add_mul, one_mul, ← add_assoc] at outside
    rw [Nat.cast_add, Nat.cast_one, add_mul, one_mul, ← add_assoc]
    refine ⟨by simp [progression, counted], ?_⟩
    exact goesOn_wrap_of_unfit (bounds.fits_of_goesOn last) bounds.stepFits last outside

theorem countPasses_eq {passes : Nat}
    (counts : Counts stop step start numbers) (enough : numbers.length < passes) :
    countPasses stop step passes start = numbers := by
  induction passes generalizing start numbers with
  | zero => exact absurd enough (Nat.not_lt_zero _)
  | succ passes ih =>
    rw [countPasses]
    cases within : fits (firstPast start stop step) with
    | true => exact ((bounds.counts_iff_of_fits within).mp counts).symm
    | false =>
      obtain ⟨rest, rfl, continued⟩ := bounds.counts_progression_iff.mp counts
      have met := length_pos_iff.mpr (bounds.pass_of_unfit within).1
      rw [length_append] at enough
      simp only [Bool.false_eq_true, if_false]
      rw [ih { bounds with startFits := fits_wrap _ } continued (by omega)]

/-!
## The range
-/

theorem countedRange_of_counts (counts : Counts stop step start numbers) :
    countedRange start stop step = .ok (.ofList (numbers.map .ofInt)) := by
  have ends := (countingEnds_iff bounds.startFits bounds.nonzero).mpr ⟨numbers, counts⟩
  rw [countedRange, if_neg bounds.nonzero, if_pos ends,
    bounds.countPasses_eq counts (counts.length_lt bounds.startFits)]

theorem countedRange_of_endless (endless : ¬ ∃ numbers, Counts stop step start numbers) :
    countedRange start stop step = .error .unending := by
  rw [countedRange, if_neg bounds.nonzero,
    if_neg (mt (countingEnds_iff bounds.startFits bounds.nonzero).mp endless)]

theorem countedRange_eq_ok_iff :
    countedRange start stop step = .ok (.ofList (numbers.map .ofInt)) ↔
      Counts stop step start numbers := by
  refine ⟨fun given => ?_, bounds.countedRange_of_counts⟩
  by_cases ends : ∃ others, Counts stop step start others
  · obtain ⟨others, counts⟩ := ends
    rw [bounds.countedRange_of_counts counts] at given
    have injective : Function.Injective Value.ofInt := fun left right same => by cases same; rfl
    have same : others.map Value.ofInt = numbers.map Value.ofInt := by
      injection given with list
      injection list
    rwa [← injective.list_map same]
  · rw [bounds.countedRange_of_endless ends] at given
    cases given

end RangeBounds

/-- The terms of the arithmetic progression before the stop, in order and all of them. -/
def Progresses (start stop step : Int) (numbers : List Int) : Prop :=
  ∀ (index : Nat) (number : Int), numbers[index]? = some number ↔
    number = start + index * step ∧ GoesOn stop step number

theorem progresses_iff (nonzero : step ≠ 0) :
    Progresses start stop step numbers ↔ numbers = progression start stop step := by
  have progresses : Progresses start stop step (progression start stop step) := by
    intro index number
    rw [progression, List.getElem?_map]
    by_cases below : index < stepCount start stop step
    · have short := (lt_stepCount_iff nonzero).mp below
      rw [List.getElem?_range below, Option.map_some, Option.some.injEq, eq_comm,
        and_iff_left_of_imp]
      rintro rfl
      exact short
    · have ended := mt (lt_stepCount_iff nonzero).mpr below
      rw [List.getElem?_eq_none (by simpa using below), Option.map_none]
      refine iff_of_false nofun ?_
      rintro ⟨rfl, short⟩
      exact ended short
  constructor
  · intro same
    refine ext_getElem? fun index => Option.ext fun number => ?_
    exact (same index number).trans (progresses index number).symm
  · rintro rfl
    exact progresses

/-- Counting stays in the progression exactly when a term past the stop can be represented. -/
theorem RangeBounds.counts_progression_iff_exists (bounds : RangeBounds start stop step) :
    Counts stop step start (progression start stop step) ↔
      ∃ index : Nat, fits (start + index * step) = true ∧
        ¬ GoesOn stop step (start + index * step) := by
  constructor
  · intro counts
    cases inside : fits (firstPast start stop step) with
    | true => exact ⟨_, inside, not_goesOn_firstPast bounds.nonzero⟩
    | false =>
      obtain ⟨_, short⟩ := bounds.pass_of_unfit inside
      obtain ⟨rest, same, continued⟩ := bounds.counts_progression_iff.mp counts
      rw [self_eq_append_right.mp same, counts_iff_of_goesOn short] at continued
      obtain ⟨_, impossible, _⟩ := continued
      cases impossible
  · rintro ⟨index, inside, ended⟩
    refine (bounds.counts_iff_of_fits ?_).mpr rfl
    obtain ⟨startFits, _, _, nonzero⟩ := bounds
    have within : stepCount start stop step ≤ index :=
      Nat.le_of_not_lt (mt (lt_stepCount_iff nonzero).mp ended)
    rw [firstPast, fits_iff]
    rw [fits_iff] at startFits inside
    rcases Int.lt_or_gt_of_ne nonzero with descends | ascends
    · have least := Int.mul_le_mul_of_nonpos_right (Int.ofNat_le.mpr within) descends.le
      have most := Int.mul_nonpos_of_nonneg_of_nonpos
        (Int.natCast_nonneg (stepCount start stop step)) descends.le
      omega
    · have most := Int.mul_le_mul_of_nonneg_right (Int.ofNat_le.mpr within) ascends.le
      have least := Int.mul_nonneg (Int.natCast_nonneg (stepCount start stop step)) ascends.le
      omega

theorem fits_toWord (real : Float) : fits (Number.toWord real) = true := by
  unfold Number.toWord
  split
  · split
    · next inside => exact fits_iff.mpr (by simpa using inside)
    · rfl
  · rfl

theorem fits_of_toInt? {value : Value} (whole : toInt? value = some number) :
    fits number = true := by
  unfold toInt? toNum? at whole
  split at whole
  · next found =>
    cases whole
    split at found
    · split at found <;> cases found <;> rfl
    · split at found
      · next inside =>
        cases found
        exact inside
      · cases found
    · cases found
    · cases found
  · next real found =>
    split at whole
    · cases whole
      exact fits_toWord real
    · cases whole
  · cases whole

/-- A range counts by one unless a step is given, and from zero unless a start is. -/
theorem callBuiltin_range {first second third : Value} (starts : toInt? first = some start)
    (stops : toInt? second = some stop) (steps : toInt? third = some step) :
    callBuiltin .range [second] = countedRange 0 stop 1 ∧
      callBuiltin .range [first, second] = countedRange start stop 1 ∧
      callBuiltin .range [first, second, third] = countedRange start stop step := by
  refine ⟨?_, ?_, ?_⟩ <;> simp only [callBuiltin, range, rangeBounds, starts, stops, steps] <;> rfl

/-- The numbers of a range are those of the loop, and it has none where the loop does not end. They
are the arithmetic progression before the stop exactly when a term past the stop can be
represented. -/
theorem range_exact_iff_past_stop_fits {first second third : Value}
    (starts : toInt? first = some start) (stops : toInt? second = some stop)
    (steps : toInt? third = some step) :
    callBuiltin .range [second] = callBuiltin .range [.ofInt 0, second, .ofInt 1] ∧
    callBuiltin .range [first, second] = callBuiltin .range [first, second, .ofInt 1] ∧
    (step = 0 → callBuiltin .range [first, second, third] =
      fail .value "range() arg 3 must not be zero") ∧
    (step ≠ 0 →
      (∀ numbers, callBuiltin .range [first, second, third] =
        .ok (.ofList (numbers.map .ofInt)) ↔ Counts stop step start numbers) ∧
      (callBuiltin .range [first, second, third] = .error .unending ↔
        ¬ ∃ numbers, Counts stop step start numbers) ∧
      ((∃ numbers, Progresses start stop step numbers ∧
        callBuiltin .range [first, second, third] = .ok (.ofList (numbers.map .ofInt))) ↔
        ∃ index : Nat, fits (start + index * step) = true ∧
          ¬ GoesOn stop step (start + index * step))) := by
  obtain ⟨whole, fromStart, byStep⟩ := callBuiltin_range starts stops steps
  rw [whole, fromStart, byStep, (callBuiltin_range rfl stops rfl).2.2,
    (callBuiltin_range starts stops rfl).2.2]
  refine ⟨rfl, rfl, fun zero => if_pos zero, fun nonzero => ?_⟩
  have bounds : RangeBounds start stop step :=
    ⟨fits_of_toInt? starts, fits_of_toInt? stops, fits_of_toInt? steps, nonzero⟩
  have given (numbers : List Int) :=
    @RangeBounds.countedRange_eq_ok_iff start stop step numbers bounds
  refine ⟨given, ?_, ?_⟩
  · refine ⟨?_, bounds.countedRange_of_endless⟩
    rintro unending ⟨numbers, counts⟩
    rw [(given numbers).mpr counts] at unending
    cases unending
  · rw [← bounds.counts_progression_iff_exists]
    simp only [progresses_iff nonzero, given, ↓existsAndEq, true_and]

/-- Counting down by threes reaches the stop, so the range is the progression. -/
theorem range_exact_iff_past_stop_fits_down :
    ∃ numbers, Progresses 10 0 (-3) numbers ∧
      callBuiltin .range [.ofInt 10, .ofInt 0, .ofInt (-3)] =
        .ok (.ofList (numbers.map .ofInt)) := by
  have exact := @range_exact_iff_past_stop_fits 10 0 (-3) (.ofInt 10) (.ofInt 0) (.ofInt (-3))
    rfl rfl rfl
  exact (exact.2.2.2 (by decide)).2.2.mpr ⟨4, rfl, by decide⟩

/-- From 2 by the greatest integer the first sum is cut, and counting comes to 0 before the stop. -/
theorem range_leaves_progression :
    callBuiltin .range [.ofInt 2, .ofInt 0x7fffffffffffffff, .ofInt 0x7fffffffffffffff] =
        .ok (.ofList [.ofInt 2, .ofInt (-0x7fffffffffffffff), .ofInt 0]) ∧
      ¬ ∃ numbers, Progresses 2 0x7fffffffffffffff 0x7fffffffffffffff numbers ∧
        callBuiltin .range [.ofInt 2, .ofInt 0x7fffffffffffffff, .ofInt 0x7fffffffffffffff] =
          .ok (.ofList (numbers.map .ofInt)) := by
  have counts : Counts 0x7fffffffffffffff 0x7fffffffffffffff 2 [2, -0x7fffffffffffffff, 0] :=
    .next (by decide) (.next (by decide) (.next (by decide) (.reached (by decide))))
  have bounds : RangeBounds 2 0x7fffffffffffffff 0x7fffffffffffffff := ⟨rfl, rfl, rfl, by decide⟩
  rw [(callBuiltin_range rfl rfl rfl).2.2]
  refine ⟨bounds.countedRange_of_counts counts, ?_⟩
  rintro ⟨numbers, progresses, given⟩
  have same := (bounds.countedRange_eq_ok_iff.mp given).unique counts
  have second := (progresses 1 (-0x7fffffffffffffff)).mp (by rw [same]; rfl)
  exact absurd second.1 (by decide)

end Covenant.Condition
