import Offside.Proofs.Syntax.Arena

/-! # Nodes that hold tokens only

Calls that come later leave a finished node as it is. So a node that is started, given some tokens
and finished has these tokens for its children in the end, whatever comes before and after, and it
reaches from the first of them to the last.
-/

namespace Offside.Syntax

open Source Token

/-- A walk through a node of leaves meets it and the leaves. -/
theorem Tree.walk_of_leaves {tree : Tree} {id depth : Nat}
    (leaves : ∀ leaf ∈ tree.children id, (tree.token? leaf).isSome)
    (deep : (tree.children id).length < depth) : tree.walk depth id = id :: tree.children id := by
  obtain ⟨below, rfl⟩ := Nat.exists_eq_add_of_le' (Nat.zero_lt_of_lt deep)
  have each : ∀ leaf ∈ tree.children id, tree.walk below leaf = [leaf] := by
    intro leaf member
    have some : 0 < (tree.children id).length := List.length_pos_of_mem member
    obtain ⟨further, rfl⟩ := Nat.exists_eq_add_of_le' (show 1 ≤ below by omega)
    rw [walk, children_of_token? (leaves leaf member), List.flatMap_nil]
  rw [walk, List.flatMap_congr each]
  simp

/-- A node that is started, given some tokens and finished holds these tokens, and reaches from the
first of them to the last. -/
theorem Tree.ofCalls_leaves (before rest : List Call) (kind : Kind) (tokens : List Placed) :
    let opened := before.foldl Builder.call .empty
    let id := opened.tree.size
    let tree := (ofCalls (before ++ .start kind :: (tokens.map .token ++ .finish :: rest))).1
    tree.kind? id = some kind ∧ tree.children id = List.range' (id + 1) tokens.length ∧
      (tree.children id).map tree.token? = tokens.map some ∧
      tree.parent? id = opened.unfinished.head? ∧ tree.range? id = rangeOf tokens := by
  intro opened id tree
  have adds : (Call.start kind).content? = some (.node kind #[]) := rfl
  obtain ⟨there, isKind, -, parent⟩ :=
    ofCalls_call adds before (tokens.map .token ++ .finish :: rest)
  let started := opened.call (.start kind)
  let filled := (tokens.map Call.token).foldl Builder.call started
  have added : Builder.AddsBelow id started filled (List.range' started.tree.size tokens.length) :=
    Builder.addsBelow_tokens (Builder.AddsBelow.isCurrent_start opened kind) tokens
  have size : started.tree.size = id + 1 := opened.size_start kind
  have built : tree = (rest.foldl Builder.call (filled.call .finish)).finish.1 := by
    simp only [tree, ofCalls, filled, started, opened, List.foldl_append, List.foldl_cons]
  have children : tree.children id = List.range' (id + 1) tokens.length := by
    have done : (filled.call .finish).IsDone id := by
      refine ⟨Nat.lt_of_lt_of_le (size ▸ Nat.lt_succ_self id) added.size_le, fun member => ?_⟩
      change id ∈ filled.unfinished.tail at member
      rw [added.unfinished, Builder.unfinished_start] at member
      exact Nat.lt_irrefl id ((isInOrder_calls before).lt_size_of_mem member)
    have none : started.tree.children id = [] := opened.children_add_last (.node kind #[])
    rw [built, Builder.children_finish, Builder.children_calls done, ← size]
    change filled.tree.children id = _
    rw [added.children_node, none, List.nil_append]
  have leaves : (tree.children id).map tree.token? = tokens.map some := by
    have filledIn := Builder.map_token?_tokens started tokens (.finish :: rest)
    rw [List.foldl_append] at filledIn
    rw [children, ← size, ← filledIn, built]
    exact List.map_congr_left fun leaf _ => Builder.token?_finish _ leaf
  refine ⟨isKind, children, leaves, parent, ?_⟩
  have deep : (tree.children id).length < tree.size := by
    have filledSize : filled.tree.size = id + 1 + tokens.length := by
      rw [Builder.size_tokens, size]
    have grown := (filled.call .finish).size_le_calls rest
    change filled.tree.size ≤ _ at grown
    rw [children, List.length_range', built, Builder.size_finish]
    omega
  have covers : tree.range? id = rangeOf ((tree.walk tree.size id).filterMap tree.token?) :=
    range?_ofCalls there
  rw [covers, walk_of_leaves (Builder.isSome_of_map_eq leaves) deep,
    List.filterMap_cons_none (token?_of_kind? isKind), Builder.filterMap_of_map_eq leaves]

/-- Such a node lies between what comes before and what comes behind, and its tokens between their
tokens. -/
theorem Tree.ofCalls_leaves_between (before rest : List Call) (kind : Kind)
    (tokens : List Placed) :
    let id := (before.foldl Builder.call .empty).tree.size
    let tree := (ofCalls (before ++ .start kind :: (tokens.map .token ++ .finish :: rest))).1
    ∃ front back, tree.preorder = front ++ tree.walk tree.size id ++ back ∧
      front.filterMap tree.token? = before.filterMap Call.token? ∧
      (tree.walk tree.size id).filterMap tree.token? = tokens ∧
      back.filterMap tree.token? = rest.filterMap Call.token? := by
  intro id tree
  let own : List Call := .start kind :: (tokens.map .token ++ [.finish])
  have split : before ++ .start kind :: (tokens.map .token ++ .finish :: rest) =
      before ++ own ++ rest := by simp [own]
  have size : ((before ++ own).foldl Builder.call .empty).tree.size = id + (tokens.length + 1) := by
    simp only [own, List.foldl_append, List.foldl_cons, List.foldl_nil]
    change ((tokens.map Call.token).foldl Builder.call _).tree.size = _
    rw [Builder.size_tokens, Builder.size_start, Nat.add_right_comm, Nat.add_assoc]
  obtain ⟨isKind, children, leaves, -, -⟩ := ofCalls_leaves before rest kind tokens
  have front := (tokens_upTo before (.start kind :: (tokens.map .token ++ .finish :: rest))).2
  have whole := (tokens_upTo (before ++ own) rest).1
  have back := tokens_from (before ++ own) rest
  rw [← split, size] at whole back
  change (tree.children id).map tree.token? = _ at leaves
  change tree.children id = _ at children
  change id + (tokens.length + 1) ≤ tree.size at whole
  have walk : tree.walk tree.size id = id :: tree.children id := by
    refine walk_of_leaves (Builder.isSome_of_map_eq leaves) ?_
    rw [children, List.length_range']
    omega
  refine ⟨List.range id, _, ?_, front, ?_, back⟩
  · have upTo : List.range (id + (tokens.length + 1)) =
        List.range id ++ List.range' id (tokens.length + 1) := by
      rw [range_of_le (Nat.le_add_right id _), Nat.add_sub_cancel_left]
    rw [walk, children, ← List.range'_succ, ← upTo]
    exact range_of_le whole
  · rw [walk, List.filterMap_cons_none (token?_of_kind? isKind), Builder.filterMap_of_map_eq leaves]

/-- Behind nested calls under a root, with only tokens to come, it is the last node below the
root. -/
theorem Tree.last_childNode_ofCalls {calls : List Call} (nested : Nested Call.role calls)
    (root kind : Kind) (tokens behind : List Placed) (errors : List Error) :
    let before := .start root :: calls
    let tree := (ofCalls (before ++ .start kind :: (tokens.map .token ++
      .finish :: (behind.map .token ++ .finish :: errors.map .report)))).1
    (tree.childNodes 0).getLast? = some (before.foldl Builder.call .empty).tree.size := by
  intro before tree
  let first := before.foldl Builder.call .empty
  let second := (Call.start kind :: (tokens.map .token ++ [.finish])).foldl Builder.call first
  let rest := Call.finish :: errors.map .report
  let whole := (behind.map Call.token ++ rest).foldl Builder.call second
  have built : tree = whole.finish.1 := by
    simp only [tree, ofCalls, whole, rest, second, first, List.foldl_append, List.foldl_cons,
      List.foldl_nil]
  have current : (Builder.empty.call (.start root)).IsCurrent 0 :=
    Builder.AddsBelow.isCurrent_start .empty root
  obtain ⟨added, addsFirst⟩ := Builder.AddsBelow.of_nested nested current
  change Builder.AddsBelow 0 _ first added at addsFirst
  have currentFirst := addsFirst.isCurrent current
  have addsSecond : Builder.AddsBelow 0 first second [first.tree.size] := by
    have around := Builder.AddsBelow.around currentFirst kind
      (Builder.addsBelow_tokens (Builder.AddsBelow.isCurrent_start first kind) tokens)
    simpa only [second, List.foldl_cons, List.foldl_append, List.foldl_nil] using around
  have addsRest := Builder.addsBelow_tokens (addsSecond.isCurrent currentFirst) behind
  have sameTree : whole.tree = ((behind.map Call.token).foldl Builder.call second).tree := by
    simp only [whole, rest, List.foldl_append, List.foldl_cons, Builder.tree_report]
    rfl
  have children : tree.children 0 =
      added ++ [first.tree.size] ++ List.range' second.tree.size behind.length := by
    rw [built, whole.children_finish, sameTree, addsRest.children_node, addsSecond.children_node,
      addsFirst.children_node]
    rfl
  have leaves : ∀ child ∈ List.range' second.tree.size behind.length,
      ¬(tree.kind? child).isSome = true := by
    intro child member
    have isToken : (whole.tree.token? child).isSome :=
      Builder.isSome_of_map_eq (Builder.map_token?_tokens second behind rest) child member
    rw [kind?_of_token? (by rwa [built, whole.token?_finish])]
    exact Bool.false_ne_true
  have isNode : tree.kind? first.tree.size = some kind := (ofCalls_leaves before _ kind tokens).1
  rw [childNodes, children, List.filter_append, List.filter_eq_nil_iff.mpr leaves, List.append_nil,
    List.filter_append]
  simp [isNode, first]

/-- Whether there is a token at an index or below. -/
def Tree.HasToken (tree : Tree) (id : Nat) : Prop :=
  ∃ leaf ∈ tree.walk tree.size id, (tree.token? leaf).isSome

/-- A node without children has no token. -/
theorem Tree.HasToken.children_ne_nil {tree : Tree} {id : Nat} {kind : Kind}
    (some : tree.HasToken id) (isKind : tree.kind? id = .some kind) : tree.children id ≠ [] := by
  intro none
  obtain ⟨leaf, member, isToken⟩ := some
  cases size : tree.size with
  | zero =>
    rw [size] at member
    cases member
  | succ depth =>
    rw [size, walk, none] at member
    obtain rfl := List.mem_singleton.mp member
    rw [token?_of_kind? isKind] at isToken
    cases isToken

/-- Such a node starts where the first of the tokens does, if there is a token below it. -/
theorem Tree.ofCalls_leaves_of_hasToken (before rest : List Call) (kind : Kind)
    (tokens : List Placed) :
    let id := (before.foldl Builder.call .empty).tree.size
    let tree := (ofCalls (before ++ .start kind :: (tokens.map .token ++ .finish :: rest))).1
    tree.HasToken id → ∃ first range, tokens.head? = some first ∧ rangeOf tokens = some range ∧
      range.start = first.start ∧ tree.span? id = some range.span := by
  intro id tree some
  obtain ⟨isKind, children, -, -, range⟩ := ofCalls_leaves before rest kind tokens
  change tree.kind? id = .some kind at isKind
  cases tokens with
  | nil => exact absurd children (some.children_ne_nil isKind)
  | cons first others =>
    obtain ⟨last, ends⟩ := Option.isSome_iff_exists.mp
      (List.getLast?_isSome.mpr (List.cons_ne_nil first others))
    have covered : rangeOf (first :: others) = .some (first.range.through last.range) := by
      rw [rangeOf, ends]
      rfl
    refine ⟨first, _, rfl, covered, rfl, ?_⟩
    change (tree.range? id).map Range.span = _
    rw [show tree.range? id = _ from range, covered]
    rfl

end Offside.Syntax
