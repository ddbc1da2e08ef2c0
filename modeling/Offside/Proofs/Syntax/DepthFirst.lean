import Mathlib.Data.Nat.Find
import Mathlib.Logic.Relation
import Offside.Proofs.Syntax.Calls

/-! # Trees in depth-first order

In a tree that lies depth first, the entry before a child is the node it belongs to or lies below
that node. So what lies below an entry comes in one piece right behind it: a walk down from the
entry goes through this piece in order, and a range that is made up of the ranges of the children
reaches from the first token in it to the last.
-/

namespace Offside.Syntax

open Source Token

namespace Tree

/-- An entry is another one or lies below it. -/
def IsWithin (tree : Tree) : Nat → Nat → Prop :=
  Relation.ReflTransGen fun child parent => tree.parent? child = some parent

/-- An entry lies below another one. -/
def IsBelow (tree : Tree) : Nat → Nat → Prop :=
  Relation.TransGen fun child parent => tree.parent? child = some parent

/-- Entries lie depth first. -/
structure IsDepthFirst (tree : Tree) : Prop where
  parent_lt : ∀ {child parent : Nat}, tree.parent? child = some parent → parent < child
  /-- A child comes right behind its parent or something below it. -/
  previous : ∀ {id parent : Nat}, tree.parent? (id + 1) = some parent → tree.IsWithin id parent
  /-- The children of a node are the entries whose parent it is, in order. -/
  children : ∀ id, tree.children id =
    tree.preorder.filter fun child => tree.parent? child = some id

/-- The entries below another one are those behind it up to some index. -/
structure EndsAt (tree : Tree) (id stop : Nat) : Prop where
  lt : id < stop
  /-- The index is that of an entry, or of the end. -/
  le : stop ≤ tree.size
  /-- All entries in between lie below, and no others. -/
  isBelow_iff : ∀ other, tree.IsBelow other id ↔ id < other ∧ other < stop

/-- What lies below an entry further down ends no later. -/
theorem EndsAt.stop_le_of_isBelow {tree : Tree} {id stop other next : Nat}
    (ends : tree.EndsAt id stop) (below : tree.IsBelow other id) (own : tree.EndsAt other next) :
    next ≤ stop := by
  by_contra past
  have inside := (ends.isBelow_iff other).mp below
  have last : tree.IsBelow stop id := ((own.isBelow_iff stop).mpr ⟨inside.2, by omega⟩).trans below
  exact Nat.lt_irrefl _ ((ends.isBelow_iff stop).mp last).2

namespace IsDepthFirst

variable {tree : Tree} (depthFirst : tree.IsDepthFirst)

include depthFirst

theorem lt_of_isBelow {other id : Nat} (below : tree.IsBelow other id) : id < other := by
  induction below with
  | single parent => exact depthFirst.parent_lt parent
  | tail _ parent ih => exact Nat.lt_trans (depthFirst.parent_lt parent) ih

/-- Between an entry and one below it, everything lies below. -/
theorem isBelow_between {id other last : Nat} (below : tree.IsBelow last id) (first : id < other)
    (before : other ≤ last) : tree.IsBelow other id := by
  induction last with
  | zero => omega
  | succ last ih =>
    rcases Nat.eq_or_lt_of_le before with rfl | earlier
    · exact below
    obtain ⟨parent, isParent, within⟩ := Relation.TransGen.head'_iff.mp below
    have within : tree.IsWithin last id := (depthFirst.previous isParent).trans within
    rcases Relation.reflTransGen_iff_eq_or_transGen.mp within with same | below
    · omega
    · exact ih below (by omega)

theorem exists_endsAt {id : Nat} (there : id < tree.size) : ∃ stop, tree.EndsAt id stop := by
  classical
  have last : id < tree.size ∧ ¬tree.IsBelow tree.size id := by
    refine ⟨there, fun below => ?_⟩
    obtain ⟨parent, isParent, -⟩ := Relation.TransGen.head'_iff.mp below
    exact Nat.lt_irrefl _ (lt_size_of_parent? isParent)
  have outside : ∃ stop, id < stop ∧ ¬tree.IsBelow stop id := ⟨_, last⟩
  obtain ⟨behind, notBelow⟩ := Nat.find_spec outside
  refine ⟨Nat.find outside, behind, Nat.find_min' outside last, fun other => ⟨fun below => ?_,
    fun between => ?_⟩⟩
  · have first := depthFirst.lt_of_isBelow below
    refine ⟨first, Nat.lt_of_not_le fun past => notBelow ?_⟩
    exact depthFirst.isBelow_between below behind past
  · by_contra notBelow
    exact Nat.find_min outside between.2 ⟨between.1, notBelow⟩

end IsDepthFirst

end Tree

/-! ## Ranges -/

/-- From the start of the first of some ranges to the end of the last, if there are any. -/
def spanning (ranges : List Range) : Option Range := do
  return (← ranges.head?).through (← ranges.getLast?)

/-- From the start of the first of some tokens to the end of the last, if there are any. -/
def rangeOf (tokens : List Placed) : Option Range := do
  return (← tokens.head?).range.through (← tokens.getLast?).range

theorem rangeOf_eq_spanning (tokens : List Placed) :
    rangeOf tokens = spanning (tokens.map Placed.range) := by
  rw [rangeOf, spanning, List.head?_map, List.getLast?_map]
  cases tokens.head? <;> cases tokens.getLast? <;> rfl

theorem coveredBy_eq_spanning (entries : Array Entry) (children : Array Nat) :
    Builder.coveredBy entries children =
      spanning (children.toList.filterMap (Tree.mk entries).range?) := by
  have same : (fun child => do (← entries[child]?).range) = (Tree.mk entries).range? := rfl
  unfold Builder.coveredBy spanning
  rw [same]
  generalize children.toList.filterMap (Tree.mk entries).range? = ranges
  dsimp only
  cases ranges.head? <;> cases ranges.getLast? <;> rfl

theorem spanning_cons (range : Range) (ranges : List Range) :
    spanning (range :: ranges) = match spanning ranges with
      | some others => some (range.through others)
      | none => some range := by
  cases ranges with
  | nil => rfl
  | cons first rest =>
    simp only [spanning, List.head?_cons, List.getLast?_cons_cons]
    cases ends : (first :: rest).getLast? with
    | none => simp at ends
    | some last => rfl

theorem spanning_append (ranges more : List Range) :
    spanning (ranges ++ more) = match spanning ranges, spanning more with
      | some first, some last => some (first.through last)
      | some only, none => some only
      | none, last => last := by
  induction ranges with
  | nil => rfl
  | cons range rest ih =>
    rw [List.cons_append, spanning_cons, spanning_cons, ih]
    cases spanning rest <;> cases spanning more <;> rfl

/-- What pieces reach over one by one is what they reach over together. -/
theorem spanning_flatMap {α : Type} (pieces : α → List Range) (items : List α) :
    spanning (items.filterMap fun item => spanning (pieces item)) =
      spanning (items.flatMap pieces) := by
  induction items with
  | nil => rfl
  | cons item rest ih =>
    rw [List.filterMap_cons, List.flatMap_cons, spanning_append, ← ih]
    cases spanning (pieces item) with
    | none => rfl
    | some range =>
      rw [spanning_cons]
      cases spanning (rest.filterMap fun item => spanning (pieces item)) <;> rfl

namespace Tree

/-- Ranges are those of the tokens, and of nodes what their children reach over. -/
structure HasRanges (tree : Tree) : Prop where
  token : ∀ {id token}, tree.token? id = some token → tree.range? id = some token.range
  node : ∀ {id kind}, tree.kind? id = some kind →
    tree.range? id = spanning ((tree.children id).filterMap tree.range?)

/-- An entry reaches over the tokens at it and below. -/
theorem HasRanges.range?_of_endsAt {tree : Tree} (ranges : tree.HasRanges)
    (depthFirst : tree.IsDepthFirst) {id stop depth : Nat} (ends : tree.EndsAt id stop)
    (deep : stop - id ≤ depth) :
    tree.range? id = rangeOf ((tree.walk depth id).filterMap tree.token?) := by
  have afterFirst := ends.lt
  induction depth generalizing id stop with
  | zero => omega
  | succ depth ih =>
    rcases tree.isSome_kind?_or_token? (Nat.lt_of_lt_of_le ends.lt ends.le) with isNode | isToken
    · obtain ⟨kind, isKind⟩ := Option.isSome_iff_exists.mp isNode
      have each : ∀ child ∈ tree.children id,
          tree.range? child = spanning (((tree.walk depth child).filterMap tree.token?).map
            Placed.range) := fun child member => by
        rw [depthFirst.children, List.mem_filter, decide_eq_true_eq] at member
        obtain ⟨next, own⟩ := depthFirst.exists_endsAt (lt_size_of_parent? member.2)
        have inside := ends.stop_le_of_isBelow (.single member.2) own
        have behind := depthFirst.parent_lt member.2
        rw [ih own (by omega) own.lt, rangeOf_eq_spanning]
      rw [ranges.node isKind, List.filterMap_congr each, spanning_flatMap, walk,
        List.filterMap_cons_none (token?_of_kind? isKind), rangeOf_eq_spanning,
        List.filterMap_flatMap, List.map_flatMap]
    · obtain ⟨token, isToken⟩ := Option.isSome_iff_exists.mp isToken
      rw [ranges.token isToken, walk, children_of_token? (Option.isSome_of_eq_some isToken),
        List.flatMap_nil, List.filterMap_cons_some isToken]
      rfl

end Tree

end Offside.Syntax
