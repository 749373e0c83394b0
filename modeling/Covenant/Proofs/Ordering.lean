import Covenant.Proofs.Acceptance
import Covenant.Proofs.Equality
import Covenant.Proofs.Order
import Covenant.Proofs.Rounding

/-!
# The order of values

Two values that are swapped have the opposite order. Numbers have places among the doubles, and
values of one shape have ranks that say both how they are ordered and when they are equal.
-/

set_option autoImplicit false

namespace Covenant

open List

open Float.Model (UnpackedFloat)

namespace Number

/-!
## Places of doubles
-/

/-- The place of a double among the others, as lists are ordered. -/
def place? : UnpackedFloat → Option (List Int)
  | .notANumber => none
  | .infinity .negative => some [-2]
  | .finite .negative mantissa exponent _ => some [-1, -exponent, -mantissa]
  | .zero _ => some [0]
  | .finite .positive mantissa exponent _ => some [1, exponent, mantissa]
  | .infinity .positive => some [2]

theorem compare_neg (left right : Int) : compare (-left) (-right) = (compare left right).swap := by
  rw [Int.compare_swap]
  simp [compare, compareOfLessAndEq, eq_comm]

theorem compare_cast (left right : Nat) : compare (left : Int) right = compare left right := by
  simp [compare, compareOfLessAndEq]

theorem compare_unpacked (left right : UnpackedFloat) : left.compare right =
    (place? left).bind fun left => (place? right).map (compare left) := by
  cases left with
  | notANumber => rfl
  | zero sign =>
    cases right with
    | finite other | infinity other => cases other <;> rfl
    | _ => rfl
  | infinity sign =>
    cases right with
    | finite other | infinity other => cases sign <;> cases other <;> rfl
    | _ => cases sign <;> rfl
  | finite sign mantissa exponent positive =>
    cases right with
    | finite other =>
      cases sign <;> cases other <;>
        simp [UnpackedFloat.compare, place?, compare_neg, compare_cast, Ordering.swap_then]
      all_goals rfl
    | infinity other => cases sign <;> cases other <;> rfl
    | _ => cases sign <;> rfl

/-- Of two normal mantissas the one with the higher power of two belongs to the higher number. -/
theorem compare_normal {left right places others : Nat} (least : 2 ^ 52 ≤ left)
    (greatest : left < 2 ^ 53) (leastRight : 2 ^ 52 ≤ right) (greatestRight : right < 2 ^ 53) :
    (compare ((places : Int) - 52) ((others : Int) - 52)).then (compare left right) =
      compare (left * 2 ^ places) (right * 2 ^ others) := by
  have higher {low high fewer more : Nat} (less : fewer < more) (below : low < 2 ^ 53)
      (above : 2 ^ 52 ≤ high) : low * 2 ^ fewer < high * 2 ^ more := by
    have first := Nat.mul_lt_mul_of_pos_right below (Nat.two_pow_pos fewer)
    have second := Nat.mul_le_mul above (Nat.pow_le_pow_right Nat.two_pos less)
    rw [Nat.pow_succ] at second
    omega
  obtain less | rfl | more := lt_trichotomy places others
  · rw [Int.compare_eq_lt.mpr (by omega), Nat.compare_eq_lt.mpr (higher less greatest leastRight)]
    rfl
  · simp [compare, compareOfLessAndEq]
  · rw [Int.compare_eq_gt.mpr (by omega), Nat.compare_eq_gt.mpr (higher more greatestRight least)]
    rfl

/-- Integers up to 2^53 are ordered as their doubles are. -/
theorem compare_ofInt {left right : Int} (small : left.natAbs ≤ 2 ^ 53)
    (smallRight : right.natAbs ≤ 2 ^ 53) :
    (ofInt left).toModel.unpack.compare (ofInt right).toModel.unpack =
      some (compare left right) := by
  have unpacked {number : Int} (different : number ≠ 0) (small : number.natAbs ≤ 2 ^ 53) :=
    unpack_ofInt different (by omega : number.natAbs ≤ 2 ^ 63)
  by_cases zero : left = 0
  · subst zero
    by_cases zeroRight : right = 0
    · subst zeroRight
      rfl
    · obtain ⟨mantissa, places, positive, found, _⟩ := unpacked zeroRight smallRight
      rw [found, unpack_ofInt_zero]
      by_cases negative : right < 0
      · simp [negative, signOf, UnpackedFloat.compare, Int.compare_eq_gt.mpr negative]
      · have above : 0 < right := by omega
        simp [negative, signOf, UnpackedFloat.compare, Int.compare_eq_lt.mpr above]
  obtain ⟨mantissa, places, positive, found, least, greatest, value⟩ := unpacked zero small
  rw [kept_of_le small] at value
  rw [found]
  by_cases zeroRight : right = 0
  · subst zeroRight
    rw [unpack_ofInt_zero]
    by_cases negative : left < 0
    · simp [negative, signOf, UnpackedFloat.compare, Int.compare_eq_lt.mpr negative]
    · have above : 0 < left := by omega
      simp [negative, signOf, UnpackedFloat.compare, Int.compare_eq_gt.mpr above]
  obtain ⟨other, others, otherPositive, otherFound, otherLeast, otherGreatest, otherValue⟩ :=
    unpacked zeroRight smallRight
  rw [kept_of_le smallRight] at otherValue
  have normal := @compare_normal mantissa other places others least greatest otherLeast
    otherGreatest
  rw [value, otherValue] at normal
  rw [otherFound]
  by_cases negative : left < 0 <;> by_cases negativeRight : right < 0 <;>
    simp only [negative, negativeRight, decide_true, decide_false, signOf, UnpackedFloat.compare,
      normal]
  all_goals
    simp only [compare, compareOfLessAndEq]
    split_ifs <;> first | rfl | omega

end Number

namespace Condition

/-!
## The order of two values
-/

def Order.swap : Order → Order
  | .known ordering => .known ordering.swap
  | .unordered => .unordered
  | .mismatched left right => .mismatched right left

def Num.place? (number : Num) : Option (List Int) := Number.place? number.toFloat.toModel.unpack

/-- Numbers are ordered by the places of their doubles, unless both are integers. -/
theorem orderNums_eq {left right : Num}
    (mixed : ∀ first second, (left, right) ≠ (.int first, .int second)) : orderNums left right =
      ((left.place?.bind fun left => right.place?.map (compare left)).elim .unordered .known) := by
  have forth := Number.compare_unpacked left.toFloat.toModel.unpack right.toFloat.toModel.unpack
  have back := Number.compare_unpacked right.toFloat.toModel.unpack left.toFloat.toModel.unpack
  have falls : orderNums left right =
      (if left.toFloat < right.toFloat then Order.known .lt
        else if right.toFloat < left.toFloat then .known .gt
        else if left.toFloat == right.toFloat then .known .eq else .unordered) := by
    cases left <;> cases right <;> first | rfl | exact absurd rfl (mixed _ _)
  simp only [falls, Number.lt_iff_unpack, Number.beq_iff_unpack, UnpackedFloat.lt,
    UnpackedFloat.beq, forth, back, Num.place?]
  cases Number.place? left.toFloat.toModel.unpack with
  | none => cases Number.place? right.toFloat.toModel.unpack <;> simp
  | some first =>
    cases Number.place? right.toFloat.toModel.unpack with
    | none => simp
    | some second =>
      rw [Option.bind_some, Option.map_some, Option.bind_some, Option.map_some,
        Std.OrientedOrd.eq_swap (a := second)]
      cases compare first second <;> simp

theorem orderNums_swap (left right : Num) : orderNums right left = (orderNums left right).swap := by
  have mixed (other : ∀ first second, (left, right) ≠ (.int first, .int second)) :
      orderNums right left = (orderNums left right).swap := by
    have flipped : ∀ first second, (right, left) ≠ (.int first, .int second) := by grind
    rw [orderNums_eq other, orderNums_eq flipped]
    cases left.place? <;> cases right.place? <;> simp [Order.swap]
    exact Std.OrientedOrd.eq_swap
  cases left with
  | int first =>
    cases right with
    | int second => exact congrArg Order.known (Int.compare_swap first second).symm
    | float => exact mixed nofun
  | float => exact mixed nofun

section

variable {left right value : Value} {items others : List Value} {heap : Heap}

theorem orderScalars_swap (left right : Value) :
    orderScalars right left = (orderScalars left right).swap := by
  unfold orderScalars
  cases toNum? left <;> cases toNum? right
  case some.some first second => exact orderNums_swap first second
  all_goals
    cases left.plainText? <;> cases right.plainText? <;> simp [Order.swap, Text.compare]
    exact Std.OrientedOrd.eq_swap

theorem order_of_scalar (scalar : sequence? left = none ∨ sequence? right = none) :
    order left right = orderScalars left right := by
  rw [order.eq_def]
  split
  · obtain found | found := scalar
    · cases found
    · simp [found, orderScalars, toNum?, Value.plainText?]
  all_goals
    split
    · simp_all
    · rfl

theorem orderItems_nil : orderItems [] others = .known (compare 0 others.length) := by
  cases others <;> rfl

theorem order_of_sequences (found : sequence? left = some items)
    (foundRight : sequence? right = some others) : order left right = orderItems items others := by
  obtain ⟨type, object, rfl⟩ | ⟨shape, type, object, rfl⟩ |
    ⟨rfl, ⟨type, rfl⟩ | ⟨shape, data, rfl, bare⟩⟩ := sequence?_cases found
  · simp [order, foundRight]
  · simp [order, found, foundRight]
  · simp [order, found, foundRight, orderItems_nil]
  · cases data with
    | list type object items => exact absurd rfl (bare type object items)
    | _ => simp [order, found, foundRight, orderItems_nil]

/-- Items are compared in pairs up to the first that differ. -/
theorem orderItems_swap (live : ∀ item ∈ items, item.Lives heap)
    (liveOthers : ∀ item ∈ others, item.Lives heap)
    (inner : ∀ item ∈ items, ∀ other, other.Lives heap →
      order other item = (order item other).swap) :
    orderItems others items = (orderItems items others).swap := by
  induction items generalizing others with
  | nil => cases others <;> simp [orderItems, Order.swap, Nat.compare_swap]
  | cons item items ih =>
    cases others with
    | nil => simp [orderItems, Order.swap, Nat.compare_swap]
    | cons other others =>
      obtain ⟨lives, live⟩ := forall_mem_cons.mp live
      obtain ⟨livesOther, liveOthers⟩ := forall_mem_cons.mp liveOthers
      obtain ⟨innerItem, inner⟩ := forall_mem_cons.mp inner
      simp only [orderItems, equal_comm livesOther lives]
      split
      · exact ih live liveOthers inner
      · exact innerItem other livesOther

theorem order_swap (left right : Value) (lives : left.Lives heap) (livesRight : right.Lives heap) :
    order right left = (order left right).swap := by
  cases found : sequence? left with
  | none => rw [order_of_scalar (.inl found), order_of_scalar (.inr found), orderScalars_swap]
  | some items =>
    cases foundRight : sequence? right with
    | none =>
      rw [order_of_scalar (.inl foundRight), order_of_scalar (.inr foundRight), orderScalars_swap]
    | some others =>
      rw [order_of_sequences found foundRight, order_of_sequences foundRight found]
      have live := lives_of_sequence lives found
      apply orderItems_swap live (lives_of_sequence livesRight foundRight)
      intro item member other livesOther
      have := sizeOf_lt_of_sequence found member
      exact order_swap item other (live item member) livesOther
termination_by sizeOf left

end

/-!
## Values that are ordered alike
-/

/-- Values whose order is that of their ranks, and which are equal if these are. -/
def Ranked (holds : Value → Prop) : Prop :=
  ∃ (α : Type) (_ : Ord α) (_ : Std.TransOrd α) (rank : Value → α),
    ∀ left right, holds left → holds right →
      order left right = .known (compare (rank left) (rank right)) ∧
        (Same left right ↔ compare (rank left) (rank right) = .eq)

/-- A number that is not NaN and, if it is an integer, has a double of its own. -/
def Num.Exact : Num → Prop
  | .int number => number.natAbs ≤ 2 ^ 53
  | .float number => number.toModel.unpack ≠ .notANumber

inductive Shape where
  | text
  | number
  | sequence (inner : Shape)

def Shape.Fits : Shape → Value → Prop
  | .text, value => ∃ text, value.plainText? = some text
  | .number, value => ∃ number : Num, toNum? value = some number ∧ number.Exact
  | .sequence inner, value =>
    ∃ items, sequence? value = some items ∧ ∀ item ∈ items, inner.Fits item

theorem kind_of_text {value : Value} {text : Text} (read : value.plainText? = some text) :
    toNum? value = none ∧ sequence? value = none ∧ kind value = .text text := by
  obtain ⟨_, views⟩ | ⟨_, views⟩ | ⟨_, views⟩ | views := kind_cases value <;> simp_all

theorem kind_of_number {value : Value} {number : Num} (counted : toNum? value = some number) :
    sequence? value = none ∧ kind value = .number number.toFloat := by
  obtain ⟨_, views⟩ | ⟨_, views⟩ | ⟨_, views⟩ | views := kind_cases value <;> simp_all

theorem Num.Exact.placed {number : Num} (precise : number.Exact) :
    ∃ place, number.place? = some place := by
  cases number with
  | int number =>
    have self := Number.compare_ofInt precise precise
    rw [Number.compare_unpacked] at self
    obtain ⟨place, placed, _⟩ := Option.bind_eq_some_iff.mp self
    exact ⟨place, placed⟩
  | float number =>
    change number.toModel.unpack ≠ .notANumber at precise
    rw [place?, Num.toFloat]
    cases unpacked : number.toModel.unpack with
    | notANumber => exact absurd unpacked precise
    | zero => exact ⟨_, rfl⟩
    | infinity sign | finite sign => cases sign <;> exact ⟨_, rfl⟩

theorem ranked_number : Ranked Shape.number.Fits := by
  refine ⟨List Int, inferInstance, inferInstance,
    fun value => ((toNum? value).bind Num.place?).getD [], ?_⟩
  intro left right ⟨number, counted, precise⟩ ⟨other, countedOther, preciseOther⟩
  obtain ⟨scalar, views⟩ := kind_of_number counted
  obtain ⟨_, viewsOther⟩ := kind_of_number countedOther
  obtain ⟨place, placed⟩ := precise.placed
  obtain ⟨placeOther, placedOther⟩ := preciseOther.placed
  have compared : number.toFloat.toModel.unpack.compare other.toFloat.toModel.unpack =
      some (compare place placeOther) := by
    rw [Number.compare_unpacked, ← Num.place?, ← Num.place?, placed, placedOther]
    rfl
  have orders : orderNums number other = .known (compare place placeOther) := by
    by_cases integers : ∃ first second, (number, other) = (.int first, .int second)
    · obtain ⟨first, second, same⟩ := integers
      cases same
      have exactly := (Number.compare_ofInt precise preciseOther).symm.trans compared
      exact congrArg Order.known (Option.some.inj exactly)
    · have mixed := orderNums_eq fun first second same => integers ⟨first, second, same⟩
      rw [mixed, placed, placedOther]
      rfl
  simp [order_of_scalar (.inl scalar), orderScalars, counted, countedOther, placed, placedOther,
    orders, same_iff_alike, views, viewsOther, Kind.Alike, Number.beq_iff_unpack,
    UnpackedFloat.beq, compared]

theorem ranked_text : Ranked Shape.text.Fits := by
  refine ⟨Text, inferInstance, inferInstance, fun value => value.plainText?.getD [], ?_⟩
  intro left right ⟨text, read⟩ ⟨other, readOther⟩
  obtain ⟨uncounted, scalar, views⟩ := kind_of_text read
  obtain ⟨_, _, viewsOther⟩ := kind_of_text readOther
  simp [order_of_scalar (.inl scalar), orderScalars, uncounted, read, readOther, Text.compare,
    same_iff_alike, views, viewsOther, Kind.Alike]

theorem orderItems_ranked {α : Type} [Ord α] {holds : Value → Prop} {rank : Value → α}
    (ranked : ∀ left right, holds left → holds right →
      order left right = .known (compare (rank left) (rank right)) ∧
        (Same left right ↔ compare (rank left) (rank right) = .eq)) {items others : List Value}
    (held : ∀ item ∈ items, holds item) (heldOthers : ∀ other ∈ others, holds other) :
    orderItems items others = .known (compare (items.map rank) (others.map rank)) ∧
      (List.Forall₂ Same items others ↔
        compare (items.map rank) (others.map rank) = .eq) := by
  induction items generalizing others with
  | nil => cases others <;> simp [orderItems, Nat.compare_eq_lt]
  | cons item items ih =>
    cases others with
    | nil => simp [orderItems, Nat.compare_eq_gt]
    | cons other others =>
      obtain ⟨own, held⟩ := forall_mem_cons.mp held
      obtain ⟨ownOther, heldOthers⟩ := forall_mem_cons.mp heldOthers
      obtain ⟨orders, equals⟩ := ranked item other own ownOther
      obtain ⟨rest, restEquals⟩ := ih held heldOthers
      simp only [orderItems, map_cons, List.compare_cons_cons, forall₂_cons, orders,
        equals, rest, restEquals, Ordering.then_eq_eq, and_true]
      cases compare (rank item) (rank other) <;> rfl

theorem Ranked.sequence {inner : Shape} (ranked : Ranked inner.Fits) :
    Ranked (Shape.sequence inner).Fits := by
  obtain ⟨α, _, _, rank, ranked⟩ := ranked
  refine ⟨List α, inferInstance, inferInstance,
    fun value => ((sequence? value).getD []).map rank, ?_⟩
  intro left right ⟨items, found, held⟩ ⟨others, foundOthers, heldOthers⟩
  have both := orderItems_ranked ranked held heldOthers
  simp [order_of_sequences found foundOthers, both, Same, equal_of_sequence found, found,
    foundOthers, equalItems_iff]

theorem Shape.ranked (shape : Shape) : Ranked shape.Fits := by
  induction shape with
  | text => exact ranked_text
  | number => exact ranked_number
  | sequence inner ih => exact ih.sequence

end Condition

end Covenant
