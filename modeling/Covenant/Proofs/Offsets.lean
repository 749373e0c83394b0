import Covenant.Condition.Eval
import Covenant.Proofs.Layout

/-!
# Offsets and scopes

The tree of a phrase that stands somewhere else differs only in the offsets of its names, and these
play no part in evaluation. Neither does what a scope holds under names that are not free in the
tree.
-/

set_option autoImplicit false

namespace Covenant.Condition

open List

mutual

def Expr.moved (distance : Nat) : Expr → Expr
  | .name label offset => .name label (offset + distance)
  | .literal value => .literal value
  | .unary op operand => .unary op (operand.moved distance)
  | .binary op left right => .binary op (left.moved distance) (right.moved distance)
  | .logic op left right => .logic op (left.moved distance) (right.moved distance)
  | .comparison first links => .comparison (first.moved distance) (Expr.movedLinks distance links)
  | .conditional thenBranch test elseBranch =>
    .conditional (thenBranch.moved distance) (test.moved distance) (elseBranch.moved distance)
  | .call function arguments => .call (function.moved distance) (Expr.movedAll distance arguments)
  | .index container position => .index (container.moved distance) (position.moved distance)
  | .attribute object label => .attribute (object.moved distance) label
  | .list items => .list (Expr.movedAll distance items)
  | .tuple items => .tuple (Expr.movedAll distance items)
  | .comprehension element targets iterable conditions =>
    .comprehension (element.moved distance) targets (iterable.moved distance)
      (Expr.movedAll distance conditions)

def Expr.movedAll (distance : Nat) : List Expr → List Expr
  | [] => []
  | expr :: exprs => expr.moved distance :: Expr.movedAll distance exprs

def Expr.movedLinks (distance : Nat) : List (CompareOp × Expr) → List (CompareOp × Expr)
  | [] => []
  | (op, operand) :: links => (op, operand.moved distance) :: Expr.movedLinks distance links

end

theorem Expr.movedAll_eq_map (distance : Nat) (exprs : List Expr) :
    Expr.movedAll distance exprs = exprs.map (Expr.moved distance) := by
  induction exprs with
  | nil => rfl
  | cons expr exprs ih => exact congrArg (expr.moved distance :: ·) ih

theorem Expr.movedLinks_eq_map (distance : Nat) (links : List (CompareOp × Expr)) :
    Expr.movedLinks distance links = links.map fun link => (link.1, link.2.moved distance) := by
  induction links with
  | nil => rfl
  | cons link links ih => exact congrArg ((link.1, link.2.moved distance) :: ·) ih

/-!
## Free names
-/

mutual

/-- The names that an expression takes from its scope. Targets of a comprehension are bound in its
element and its conditions, not in its source. -/
def Expr.free : Expr → List Text
  | .name label _ => [label]
  | .literal _ => []
  | .unary _ operand | .attribute operand _ => operand.free
  | .binary _ left right | .logic _ left right | .index left right => left.free ++ right.free
  | .comparison first links => first.free ++ Expr.linksFree links
  | .conditional consequence test alternative => consequence.free ++ test.free ++ alternative.free
  | .call function arguments => function.free ++ Expr.allFree arguments
  | .list elements | .tuple elements => Expr.allFree elements
  | .comprehension element targets source conditions =>
    source.free ++ (element.free ++ Expr.allFree conditions).filter (· ∉ targets)

def Expr.allFree : List Expr → List Text
  | [] => []
  | expr :: exprs => expr.free ++ Expr.allFree exprs

def Expr.linksFree : List (CompareOp × Expr) → List Text
  | [] => []
  | (_, operand) :: links => operand.free ++ Expr.linksFree links

end

namespace Scope

/-- Two scopes resolve each of the names to the same value, or both do not know it. -/
def AgreeOn (names : List Text) (one other : Scope) : Prop :=
  ∀ name ∈ names, one.find? name = other.find? name

/-- The scopes resolve alike what a layer inside leaves to them. -/
def AgreeBeyond (layer : Bindings) (names : List Text) (one other : Scope) : Prop :=
  ∀ name ∈ names, layer.lookup name = none → one.find? name = other.find? name

variable {names others : List Text} {one other : Scope}

theorem agreeOn_append :
    AgreeOn (names ++ others) one other ↔ AgreeOn names one other ∧ AgreeOn others one other :=
  forall_mem_append

theorem find?_push (scope : Scope) (layer : Bindings) (name : Text) :
    (scope.push layer).find? name = (layer.lookup name).or (scope.find? name) := by
  rw [push, find?, List.findSome?_cons]
  cases layer.lookup name <;> rfl

theorem AgreeBeyond.push {layer : Bindings} (agree : AgreeBeyond layer names one other) :
    AgreeOn names (one.push layer) (other.push layer) := by
  intro name member
  rw [find?_push, find?_push]
  cases found : layer.lookup name with
  | none => exact agree name member found
  | some value => rfl

end Scope

variable {item : Value} {layer : Bindings} {targets : List Text}

theorem lookup_ne_none_of_bindTargets (bound : bindTargets targets item = .ok layer) {target : Text}
    (member : target ∈ targets) : layer.lookup target ≠ none := by
  have covered : layer.map Prod.fst = targets ∨ layer.map Prod.fst = targets.reverse := by
    unfold bindTargets at bound
    split at bound
    · cases bound
      exact .inl rfl
    · split at bound
      · next parts _ =>
        split at bound
        · next counted =>
          cases bound
          rw [map_reverse, map_fst_zip (Nat.le_of_eq counted.symm)]
          exact .inr rfl
        · cases bound
      · cases bound
  have named : target ∈ layer.map Prod.fst := by
    rcases covered with same | same <;> rw [same]
    · exact member
    · exact mem_reverse.mpr member
  obtain ⟨entry, inside, rfl⟩ := mem_map.mp named
  intro missing
  have unequal := lookup_eq_none_iff.mp missing entry inside
  exact absurd rfl (bne_iff_ne.mp unequal)

theorem Scope.AgreeOn.pushTargets {names : List Text} {one other : Scope}
    (agree : AgreeOn (names.filter (· ∉ targets)) one other)
    (bound : bindTargets targets item = .ok layer) :
    AgreeOn names (one.push layer) (other.push layer) := by
  apply AgreeBeyond.push
  intro name member missing
  apply agree
  have outside : name ∉ targets := fun target => lookup_ne_none_of_bindTargets bound target missing
  exact mem_filter.mpr ⟨member, decide_eq_true outside⟩

theorem Evaluation.ofExcept_bind_congr {α β : Type} {result : Except Failure α}
    {next next' : α → Evaluation β}
    (same : ∀ value, result = .ok value → next value = next' value) :
    Evaluation.ofExcept result >>= next = Evaluation.ofExcept result >>= next' := by
  cases result with
  | error failure => rfl
  | ok value => exact same value rfl

/-!
## Evaluation
-/

open Scope (AgreeOn agreeOn_append)

section

variable (world : World) (distance : Nat)

-- The scopes may differ in names that are not free, and the trees in offsets; evaluation follows
-- both trees in step.
mutual

theorem Expr.eval_moved_of_agreeOn {one other : Scope} :
    ∀ expr : Expr, AgreeOn expr.free one other →
      (expr.moved distance).eval world one = expr.eval world other
  | .name label _, agree => by
    rw [Expr.moved, Expr.eval, Expr.eval, agree label mem_cons_self]
  | .literal _, _ => rfl
  | .unary _ operand, agree | .attribute operand _, agree => by
    rw [Expr.moved, Expr.eval, Expr.eval, operand.eval_moved_of_agreeOn agree]
  | .binary _ left right, agree | .logic _ left right, agree | .index left right, agree => by
    obtain ⟨onLeft, onRight⟩ := agreeOn_append.mp agree
    rw [Expr.moved, Expr.eval, Expr.eval, left.eval_moved_of_agreeOn onLeft,
      right.eval_moved_of_agreeOn onRight]
  | .comparison first links, agree => by
    obtain ⟨onFirst, onLinks⟩ := agreeOn_append.mp agree
    rw [Expr.moved, Expr.eval, Expr.eval, first.eval_moved_of_agreeOn onFirst]
    exact bind_congr fun left => Expr.evalLinks_moved_of_agreeOn links left onLinks
  | .conditional consequence test alternative, agree => by
    obtain ⟨onOthers, onAlternative⟩ := agreeOn_append.mp agree
    obtain ⟨onConsequence, onTest⟩ := agreeOn_append.mp onOthers
    rw [Expr.moved, Expr.eval, Expr.eval, consequence.eval_moved_of_agreeOn onConsequence,
      test.eval_moved_of_agreeOn onTest, alternative.eval_moved_of_agreeOn onAlternative]
  | .call function arguments, agree => by
    obtain ⟨onFunction, onArguments⟩ := agreeOn_append.mp agree
    rw [Expr.moved, Expr.eval, Expr.eval, function.eval_moved_of_agreeOn onFunction,
      Expr.evalAll_moved_of_agreeOn arguments onArguments]
  | .list elements, agree | .tuple elements, agree => by
    rw [Expr.moved, Expr.eval, Expr.eval, Expr.evalAll_moved_of_agreeOn elements agree]
  | .comprehension element targets source conditions, agree => by
    obtain ⟨onSource, onInner⟩ := agreeOn_append.mp agree
    rw [Expr.moved, Expr.eval, Expr.eval, source.eval_moved_of_agreeOn onSource]
    refine bind_congr fun _ => bind_congr fun _ => bind_congr fun items => ?_
    congr 2
    funext item
    -- The layer of the item has all targets, so the scopes inside agree on every free name there.
    refine bind_congr fun _ => Evaluation.ofExcept_bind_congr fun layer bound => ?_
    obtain ⟨onElement, onConditions⟩ := agreeOn_append.mp (onInner.pushTargets bound)
    dsimp only
    rw [element.eval_moved_of_agreeOn onElement,
      Expr.evalConditions_moved_of_agreeOn conditions onConditions]

theorem Expr.evalAll_moved_of_agreeOn {one other : Scope} :
    ∀ exprs : List Expr, AgreeOn (Expr.allFree exprs) one other →
      Expr.evalAll world one (Expr.movedAll distance exprs) = Expr.evalAll world other exprs
  | [], _ => rfl
  | expr :: exprs, agree => by
    obtain ⟨onFirst, onOthers⟩ := agreeOn_append.mp agree
    rw [Expr.movedAll, Expr.evalAll, Expr.evalAll, expr.eval_moved_of_agreeOn onFirst,
      Expr.evalAll_moved_of_agreeOn exprs onOthers]

theorem Expr.evalConditions_moved_of_agreeOn {one other : Scope} :
    ∀ exprs : List Expr, AgreeOn (Expr.allFree exprs) one other →
      Expr.evalConditions world one (Expr.movedAll distance exprs) =
        Expr.evalConditions world other exprs
  | [], _ => rfl
  | expr :: exprs, agree => by
    obtain ⟨onFirst, onOthers⟩ := agreeOn_append.mp agree
    rw [Expr.movedAll, Expr.evalConditions, Expr.evalConditions, expr.eval_moved_of_agreeOn onFirst,
      Expr.evalConditions_moved_of_agreeOn exprs onOthers]

theorem Expr.evalLinks_moved_of_agreeOn {one other : Scope} :
    ∀ (links : List (CompareOp × Expr)) (left : Value), AgreeOn (Expr.linksFree links) one other →
      Expr.evalLinks world one left (Expr.movedLinks distance links) =
        Expr.evalLinks world other left links
  | [], _, _ => rfl
  | (op, operand) :: links, left, agree => by
    obtain ⟨onOperand, onLinks⟩ := agreeOn_append.mp agree
    rw [Expr.movedLinks, Expr.evalLinks, Expr.evalLinks, operand.eval_moved_of_agreeOn onOperand]
    apply bind_congr
    intro right
    rw [Expr.evalLinks_moved_of_agreeOn links right onLinks]

end

end

theorem Expr.eval_moved (world : World) (distance : Nat) (scope : Scope) (expr : Expr) :
    (expr.moved distance).eval world scope = expr.eval world scope :=
  expr.eval_moved_of_agreeOn world distance fun _ _ => rfl

section

variable {distance : Nat} {tokens : List Token}

theorem map_kind_moved :
    (tokens.map (Token.moved distance)).map Token.kind = tokens.map Token.kind := by
  rw [map_map]
  rfl

theorem flatMap_literal_moved :
    (tokens.map (Token.moved distance)).flatMap Token.literal = tokens.flatMap Token.literal := by
  rw [flatMap_map]
  rfl

def Marked.moved (distance : Nat) (item : Marked) : Marked :=
  ⟨item.mark.map (Token.moved distance), item.body.map (Token.moved distance),
    item.tree.moved distance⟩

theorem Marked.tokens_moved (item : Marked) :
    (item.moved distance).tokens = item.tokens.map (Token.moved distance) :=
  map_append.symm

theorem Marked.flatMap_tokens_moved (items : List Marked) :
    (items.map (Marked.moved distance)).flatMap Marked.tokens =
      (items.flatMap Marked.tokens).map (Token.moved distance) := by
  rw [flatMap_map, map_flatMap]
  simp only [Marked.tokens_moved]

theorem Marked.map_tree_moved (items : List Marked) :
    (items.map (Marked.moved distance)).map Marked.tree =
      Expr.movedAll distance (items.map Marked.tree) := by
  rw [Expr.movedAll_eq_map, map_map, map_map]
  rfl

theorem TargetNames.moved {names : List Text} (targets : TargetNames tokens names) :
    TargetNames (tokens.map (Token.moved distance)) names := by
  induction targets with
  | one kind => exact .one kind
  | more kind comma _ ih => exact .more kind comma ih

theorem CommasBetween.moved {items : List Marked} {last : List Token}
    (between : CommasBetween items last) :
    CommasBetween (items.map (Marked.moved distance)) (last.map (Token.moved distance)) := by
  cases items with
  | nil =>
    obtain rfl := between
    rfl
  | cons first others =>
    obtain ⟨noMark, commas, lastComma⟩ := between
    refine ⟨?_, forall_mem_map.mpr fun item member => ?_, ?_⟩
    · exact congrArg (List.map _) noMark
    · exact map_kind_moved.trans (commas item member)
    · rw [map_kind_moved, map_eq_nil_iff]
      exact lastComma

end

variable {kind : TokenKind} {phrase : Phrase}

theorem Phrase.infixed?_moved {node : Expr → Expr → Expr} (joins : phrase.infixed? kind = some node)
    (distance : Nat) (left right : Expr) :
    (node left right).moved distance = node (left.moved distance) (right.moved distance) := by
  cases phrase <;> cases kind <;> cases joins <;> rfl

theorem Phrase.prefixed?_moved {node : Expr → Expr} (leads : phrase.prefixed? kind = some node)
    (distance : Nat) (operand : Expr) :
    (node operand).moved distance = node (operand.moved distance) := by
  cases phrase <;> cases kind <;> cases leads <;> rfl

theorem Derives.moved {tokens : List Token} {tree : Expr} (derived : Derives phrase tokens tree)
    (distance : Nat) :
    Derives phrase (tokens.map (Token.moved distance)) (tree.moved distance) := by
  induction derived with
  | looser next _ ih => exact .looser next ih
  | conditional _ ifKind _ elseKind _ thenIh testIh elseIh =>
    simp only [map_append, map_cons]
    exact .conditional thenIh ifKind testIh elseKind elseIh
  | infixed next _ joins _ leftIh rightIh =>
    rw [map_append, map_cons, Phrase.infixed?_moved joins]
    exact .infixed next leftIh joins rightIh
  | prefixed leads _ ih =>
    rw [map_cons, Phrase.prefixed?_moved leads]
    exact .prefixed leads ih
  | @chain firstTokens first links _ several spelled _ firstIh ih =>
    have derived := @Derives.chain _ _ (links.map fun link => (link.1, link.2.moved distance))
      firstIh (by simpa using several)
      (forall_mem_map.mpr fun link member => map_kind_moved.trans (spelled link member))
      (forall_mem_map.mpr ih)
    rw [flatMap_map, map_map] at derived
    rw [map_append, map_flatMap, Expr.moved, Expr.movedLinks_eq_map, map_map]
    simp only [Marked.tokens_moved] at derived
    exact derived
  | power _ kind _ baseIh exponentIh =>
    simp only [map_append, map_cons]
    exact .power baseIh kind exponentIh
  | index _ openingKind _ closingKind baseIh positionIh =>
    simp only [map_append, map_cons, map_nil]
    exact .index baseIh openingKind positionIh closingKind
  | member _ dotKind labelKind ih =>
    simp only [map_append, map_cons, map_nil]
    exact .member ih dotKind labelKind
  | call _ openingKind between _ closingKind functionIh ih =>
    simp only [map_append, map_cons, map_nil, ← Marked.flatMap_tokens_moved]
    rw [Expr.moved, ← Marked.map_tree_moved]
    exact .call functionIh openingKind between.moved (forall_mem_map.mpr ih) closingKind
  | generatorCall _ openingKind _ closingKind functionIh ih =>
    simp only [map_append, map_cons, map_nil]
    exact .generatorCall functionIh openingKind ih closingKind
  | constant stands => exact .constant stands
  | texts nonempty each =>
    rw [Expr.moved, ← flatMap_literal_moved]
    exact .texts (by simpa using nonempty) (forall_mem_map.mpr each)
  | name kind => exact .name kind
  | group openingKind _ closingKind ih =>
    simp only [map_append, map_cons, map_nil]
    exact .group openingKind ih closingKind
  | generator openingKind _ closingKind ih =>
    simp only [map_append, map_cons, map_nil]
    exact .generator openingKind ih closingKind
  | tuple openingKind between single _ closingKind ih =>
    simp only [map_append, map_cons, map_nil, ← Marked.flatMap_tokens_moved]
    rw [Expr.moved, ← Marked.map_tree_moved]
    refine .tuple openingKind between.moved ?_ (forall_mem_map.mpr ih) closingKind
    simpa using single
  | list openingKind between _ closingKind ih =>
    simp only [map_append, map_cons, map_nil, ← Marked.flatMap_tokens_moved]
    rw [Expr.moved, ← Marked.map_tree_moved]
    exact .list openingKind between.moved (forall_mem_map.mpr ih) closingKind
  | listed openingKind _ closingKind ih =>
    simp only [map_append, map_cons, map_nil]
    exact .listed openingKind ih closingKind
  | comprehension _ forKind bound inKind _ words _ elementIh iterableIh ih =>
    simp only [map_append, map_cons, ← Marked.flatMap_tokens_moved]
    rw [Expr.moved, ← Marked.map_tree_moved]
    refine .comprehension elementIh forKind bound.moved inKind iterableIh
      (forall_mem_map.mpr fun condition member => ?_) (forall_mem_map.mpr ih)
    exact map_kind_moved.trans (words condition member)

end Covenant.Condition
