import Mathlib.Data.List.Chain
import Offside.Proofs.Sorting
import Offside.Proofs.Syntax.DepthFirst

/-! # Trees built by any calls

Calls need not be nested: nodes may be left open, finished too often, or missing around a token.
All the same the entries lie depth first. Whatever an entry is a child of, the entry before it is
that node or lies below it, and so what lies below a node comes in one piece right behind it. Lists
of children and ranges agree with this, though children are noted when they are added and ranges
are filled in from the last entry to the first.
-/

namespace Offside.Syntax

open Source Token

namespace Builder

variable {builder : Builder}

/-! ## The ranges of nodes -/

section

variable {entries : Array Entry} {parent : Option Nat} {kind : Kind} {children : Array Nat}
  {range : Option Range} {id : Nat}

/-- Entries that are not among those to fill in stay. -/
theorem entry_fillRanges_of_le {count : Nat} (behind : count ≤ id) :
    (fillRanges entries count)[id]? = entries[id]? := by
  induction count generalizing entries with
  | zero => rfl
  | succ last ih =>
    rw [fillRanges]
    split
    · rw [ih (Nat.le_of_succ_le behind), Array.getElem?_setIfInBounds_ne (by omega)]
    · exact ih (Nat.le_of_succ_le behind)

/-- Nodes come before their children, so these are filled in first. -/
theorem entry_fillRanges {count : Nat} (inside : id < count)
    (found : entries[id]? = some ⟨parent, .node kind children, range⟩)
    (behind : ∀ child ∈ children, id < child) :
    (fillRanges entries count)[id]? =
      some ⟨parent, .node kind children, coveredBy (fillRanges entries count) children⟩ := by
  induction count generalizing entries with
  | zero => cases inside
  | succ last ih =>
    rcases Nat.lt_or_eq_of_le (Nat.le_of_lt_succ inside) with before | rfl
    · rw [fillRanges]
      split
      · exact ih before (by rwa [Array.getElem?_setIfInBounds_ne (by omega)])
      · exact ih before found
    · have there := (Array.getElem?_eq_some_iff.mp found).1
      have filled : fillRanges entries (id + 1) =
          fillRanges (entries.setIfInBounds id
            ⟨parent, .node kind children, coveredBy entries children⟩) id := by
        rw [fillRanges, found]
      have same : coveredBy (fillRanges entries (id + 1)) children =
          coveredBy entries children := by
        rw [coveredBy_eq_spanning, coveredBy_eq_spanning]
        refine congrArg spanning (List.filterMap_congr fun child member => ?_)
        have later := behind child (Array.mem_toList_iff.mp member)
        exact congrArg (·.bind Entry.range) (entry_fillRanges_of_le later)
      rw [same, filled, entry_fillRanges_of_le (Nat.le_refl id),
        Array.getElem?_setIfInBounds_self_of_lt there]

theorem entry_fillRanges_of_token {entry : Entry} {token : Placed}
    (found : entries[id]? = some entry) (isToken : entry.content.token? = some token)
    (count : Nat) :
    (fillRanges entries count)[id]? = some entry := by
  induction count generalizing entries with
  | zero => exact found
  | succ last ih =>
    rw [fillRanges]
    split
    · next other otherKind others old there =>
      refine ih ?_
      rw [Array.getElem?_setIfInBounds_ne, found]
      rintro rfl
      obtain rfl := Option.some.inj (there.symm.trans found)
      cases isToken
    · exact ih found

end

/-! ## The tree so far -/

/-- The tree so far is in order, and the unfinished nodes are those around what comes next. -/
structure IsInOrder (builder : Builder) : Prop where
  depthFirst : builder.tree.IsDepthFirst
  range : ∀ {id token}, builder.tree.token? id = some token →
    builder.tree.range? id = some token.range
  /-- Each unfinished node is the parent of the one inside of it. -/
  chain : builder.unfinished.IsChain fun inner outer => builder.tree.parent? inner = some outer
  isNode : ∀ node ∈ builder.unfinished, (builder.tree.kind? node).isSome
  /-- The innermost is the last entry or around it. -/
  last : ∀ node, builder.unfinished.head? = some node →
    builder.tree.IsWithin (builder.tree.size - 1) node

namespace IsInOrder

theorem empty : Builder.empty.IsInOrder where
  depthFirst := {
    parent_lt := fun isParent => by cases isParent
    previous := fun isParent => by cases isParent
    children := fun _ => rfl }
  range isToken := by cases isToken
  chain := .nil
  isNode _ member := by cases member
  last _ leads := by cases leads

theorem isWithin_add (content : Content) {id top : Nat} (within : builder.tree.IsWithin id top) :
    (builder.add content).tree.IsWithin id top :=
  Relation.ReflTransGen.mono (fun _ _ isParent =>
    (builder.parent?_add content (Tree.lt_size_of_parent? isParent)).trans isParent) _ _ within

/-- The parents after an entry was added. -/
theorem parent?_add_cases (content : Content) {child parent : Nat}
    (isParent : (builder.add content).tree.parent? child = some parent) :
    child < builder.tree.size ∧ builder.tree.parent? child = some parent ∨
      child = builder.tree.size ∧ builder.unfinished.head? = some parent := by
  have there := Tree.lt_size_of_parent? isParent
  rw [size_add] at there
  rcases Nat.lt_succ_iff_lt_or_eq.mp there with old | rfl
  · exact .inl ⟨old, (builder.parent?_add content old).symm.trans isParent⟩
  · exact .inr ⟨rfl, (builder.parent?_add_last content).symm.trans isParent⟩

variable (inOrder : builder.IsInOrder)

include inOrder

theorem lt_size_of_mem {node : Nat} (member : node ∈ builder.unfinished) :
    node < builder.tree.size := by
  obtain ⟨kind, isKind⟩ := Option.isSome_iff_exists.mp (inOrder.isNode node member)
  exact Tree.lt_size_of_kind? isKind

theorem depthFirst_add {content : Content} (childless : content.children = #[]) :
    (builder.add content).tree.IsDepthFirst := by
  have parent_lt : ∀ {child parent : Nat},
      (builder.add content).tree.parent? child = some parent → parent < child := by
    intro child parent isParent
    rcases parent?_add_cases content isParent with ⟨-, old⟩ | ⟨rfl, current⟩
    · exact inOrder.depthFirst.parent_lt old
    · exact inOrder.lt_size_of_mem (List.mem_of_mem_head? current)
  refine ⟨parent_lt, fun {id parent} isParent => ?_, fun id => ?_⟩
  · rcases parent?_add_cases content isParent with ⟨-, old⟩ | ⟨last, current⟩
    · exact isWithin_add content (inOrder.depthFirst.previous old)
    · have within := inOrder.last parent current
      rw [← last, Nat.add_sub_cancel] at within
      exact isWithin_add content within
  · have old : (List.range builder.tree.size).filter
        (fun child => (builder.add content).tree.parent? child = some id) =
          builder.tree.children id := by
      rw [inOrder.depthFirst.children]
      refine List.filter_congr fun child member => ?_
      rw [builder.parent?_add content (List.mem_range.mp member)]
    rw [Tree.preorder, size_add, List.range_succ, List.filter_append, old, List.filter_singleton,
      parent?_add_last]
    rcases Nat.lt_or_ge id builder.tree.size with there | beyond
    · by_cases current : builder.unfinished.head? = some id
      · have isNode := inOrder.isNode id (List.mem_of_mem_head? current)
        rw [builder.children_add_current content there current isNode]
        simp [current]
      · rw [builder.children_add content there current]
        simp [current]
    · have notCurrent : builder.unfinished.head? ≠ some id := fun current =>
        Nat.not_lt.mpr beyond (inOrder.lt_size_of_mem (List.mem_of_mem_head? current))
      have none : (builder.add content).tree.children id = [] := by
        rcases Nat.eq_or_lt_of_le beyond with rfl | past
        · rw [children_add_last, childless]
        · exact Tree.children_of_size_le (by rw [size_add]; exact past)
      simp [none, notCurrent, Tree.children_of_size_le beyond]

theorem add {content : Content} (childless : content.children = #[]) :
    (builder.add content).IsInOrder where
  depthFirst := inOrder.depthFirst_add childless
  range {id token} isToken := by
    have there := Tree.lt_size_of_token? isToken
    rw [size_add] at there
    rcases Nat.lt_succ_iff_lt_or_eq.mp there with old | rfl
    · rw [token?_add _ _ old] at isToken
      rw [range?_add _ _ old, inOrder.range isToken]
    · rw [token?_add_last] at isToken
      rw [range?_add_last, isToken]
      rfl
  chain := inOrder.chain.imp fun _ _ isParent =>
    (builder.parent?_add content (Tree.lt_size_of_parent? isParent)).trans isParent
  isNode node member := by
    rw [kind?_add _ _ (inOrder.lt_size_of_mem member)]
    exact inOrder.isNode node member
  last node current := by
    rw [size_add, Nat.add_sub_cancel]
    exact .single ((builder.parent?_add_last content).trans current)

theorem start (kind : Kind) : (builder.call (.start kind)).IsInOrder := by
  have added := inOrder.add (show (Content.node kind #[]).children = #[] from rfl)
  have unfinished := builder.unfinished_start kind
  have isNode : (builder.call (.start kind)).tree.kind? builder.tree.size = some kind :=
    builder.kind?_add_last (.node kind #[])
  refine ⟨added.depthFirst, added.range, ?_, ?_, ?_⟩
  · rw [unfinished]
    refine List.isChain_cons.mpr ⟨fun outer current => ?_, added.chain⟩
    exact (builder.parent?_add_last (.node kind #[])).trans current
  · rw [unfinished]
    exact List.forall_mem_cons.mpr ⟨Option.isSome_of_eq_some isNode, added.isNode⟩
  · intro node current
    rw [unfinished] at current
    cases current
    rw [size_start, Nat.add_sub_cancel]
    exact .refl

theorem finish : (builder.call .finish).IsInOrder where
  depthFirst := inOrder.depthFirst
  range := inOrder.range
  chain := inOrder.chain.tail
  isNode node member := inOrder.isNode node (List.mem_of_mem_tail member)
  last node current := by
    change builder.unfinished.tail.head? = some node at current
    change builder.tree.IsWithin (builder.tree.size - 1) node
    have chain := inOrder.chain
    have last := inOrder.last
    cases unfinished : builder.unfinished with
    | nil =>
      rw [unfinished] at current
      cases current
    | cons inner rest =>
      rw [unfinished] at current chain last
      exact (last inner rfl).tail ((List.isChain_cons.mp chain).1 node current)

/-- Whatever is called, the tree stays in order. -/
theorem calls (calls : List Call) : (calls.foldl call builder).IsInOrder := by
  induction calls generalizing builder with
  | nil => exact inOrder
  | cons call rest ih =>
    refine ih ?_
    cases call with
    | start kind => exact inOrder.start kind
    | token token => exact inOrder.add rfl
    | finish => exact inOrder.finish
    | report error =>
      exact ⟨inOrder.depthFirst, inOrder.range, inOrder.chain, inOrder.isNode, inOrder.last⟩

/-- The range of a node is filled in when those of its children are. -/
theorem range?_finish {id : Nat} {kind : Kind} (isKind : builder.finish.1.kind? id = some kind) :
    builder.finish.1.range? id =
      spanning ((builder.finish.1.children id).filterMap builder.finish.1.range?) := by
  rw [kind?_finish] at isKind
  obtain ⟨⟨parent, content, range⟩, found, isKind⟩ := Option.bind_eq_some_iff.mp isKind
  cases content with
  | token => cases isKind
  | node own children =>
    have same : builder.tree.children id = children.toList := by
      rw [Tree.children, found]
      rfl
    have behind : ∀ child ∈ children, id < child := fun child member => by
      have listed := Array.mem_toList_iff.mpr member
      rw [← same, inOrder.depthFirst.children, List.mem_filter, decide_eq_true_eq] at listed
      exact inOrder.depthFirst.parent_lt listed.2
    have filledIn := entry_fillRanges (Array.getElem?_eq_some_iff.mp found).1 found behind
    rw [children_finish, same, ← coveredBy_eq_spanning]
    exact congrArg (·.bind Entry.range) filledIn

theorem hasRanges_finish : builder.finish.1.HasRanges where
  token {id token} isToken := by
    rw [token?_finish] at isToken
    have own := inOrder.range isToken
    obtain ⟨entry, found, isToken⟩ := Option.bind_eq_some_iff.mp isToken
    rw [← own]
    have filledIn := entry_fillRanges_of_token found isToken builder.entries.size
    exact congrArg (·.bind Entry.range) (filledIn.trans found.symm)
  node := inOrder.range?_finish

theorem depthFirst_finish : builder.finish.1.IsDepthFirst where
  parent_lt isParent := by
    rw [parent?_finish] at isParent
    exact inOrder.depthFirst.parent_lt isParent
  previous {id parent} isParent := by
    rw [parent?_finish] at isParent
    refine Relation.ReflTransGen.mono (fun child _ isParent => ?_) _ _
      (inOrder.depthFirst.previous isParent)
    rw [parent?_finish, isParent]
  children id := by
    rw [children_finish, inOrder.depthFirst.children, Tree.preorder, Tree.preorder, size_finish]
    exact List.filter_congr fun child _ => by rw [parent?_finish]

end IsInOrder

/-! ## Which node is current -/

/-- Nested calls come back to the node that was current. -/
theorem unfinished_of_nested {calls : List Call} (nested : Nested Call.role calls)
    (builder : Builder) : (calls.foldl call builder).unfinished = builder.unfinished := by
  induction nested generalizing builder with
  | nil => rfl
  | @item call calls inside _ ih =>
    rw [List.foldl_cons, ih]
    cases call with
    | start | finish => cases inside
    | token | report => rfl
  | @pair first last inner calls opens closes _ _ ihInner ih =>
    obtain ⟨kind, rfl⟩ := Call.eq_start_of_role opens
    obtain rfl := Call.eq_finish_of_role closes
    rw [List.foldl_cons, List.foldl_append, List.foldl_cons, ih]
    change (inner.foldl call (builder.call (.start kind))).unfinished.tail = _
    rw [ihInner, unfinished_start, List.tail_cons]

/-- The node that is current was started, and since then everything started was finished. -/
theorem exists_start_of_unfinished {calls : List Call} {node : Nat} {rest : List Nat}
    (unfinished : (calls.foldl call .empty).unfinished = node :: rest) :
    ∃ before kind inner, calls = before ++ .start kind :: inner ∧ Nested Call.role inner ∧
      (before.foldl call .empty).tree.size = node ∧
      (before.foldl call .empty).unfinished = rest := by
  induction length : calls.length using Nat.strong_induction_on generalizing calls node rest with
  | _ length_ ih =>
    subst length
    rcases List.eq_nil_or_concat' calls with rfl | ⟨calls, last, rfl⟩
    · cases unfinished
    have shorter : calls.length < (calls ++ [last]).length := by simp
    rw [List.foldl_append] at unfinished
    cases last with
    | start kind =>
      change ((calls.foldl call .empty).call (.start kind)).unfinished = _ at unfinished
      rw [unfinished_start] at unfinished
      obtain ⟨rfl, rfl⟩ := List.cons.inj unfinished
      exact ⟨calls, kind, [], rfl, .nil, rfl, rfl⟩
    | token token =>
      obtain ⟨before, kind, inner, rfl, nested, same⟩ := ih _ shorter unfinished rfl
      refine ⟨before, kind, inner ++ [.token token], ?_, nested.append (.singleton rfl), same⟩
      rw [List.append_assoc, List.cons_append]
    | report error =>
      obtain ⟨before, kind, inner, rfl, nested, same⟩ := ih _ shorter unfinished rfl
      refine ⟨before, kind, inner ++ [.report error], ?_, nested.append (.singleton rfl), same⟩
      rw [List.append_assoc, List.cons_append]
    | finish =>
      change (calls.foldl call .empty).unfinished.tail = _ at unfinished
      -- What was finished last was current before, and the node was current when it started.
      obtain ⟨inner, others⟩ :
          ∃ top, (calls.foldl call .empty).unfinished = top :: node :: rest := by
        cases all : (calls.foldl call .empty).unfinished with
        | nil =>
          rw [all] at unfinished
          cases unfinished
        | cons top others =>
          rw [all] at unfinished
          exact ⟨top, congrArg _ unfinished⟩
      obtain ⟨middle, kind, inside, rfl, nestedInside, -, outer⟩ := ih _ shorter others rfl
      obtain ⟨before, outerKind, between, rfl, nested, same⟩ := ih middle.length
        (by simp only [List.length_append, List.length_cons]; omega) outer rfl
      refine ⟨before, outerKind, between ++ .start kind :: (inside ++ [.finish]), by simp,
        nested.append (.enclosed rfl rfl nestedInside), same⟩

end Builder

namespace Tree

theorem isInOrder_calls (calls : List Call) : (calls.foldl Builder.call .empty).IsInOrder :=
  Builder.IsInOrder.empty.calls calls

theorem depthFirst_ofCalls (calls : List Call) : (ofCalls calls).1.IsDepthFirst :=
  (isInOrder_calls calls).depthFirst_finish

theorem hasRanges_ofCalls (calls : List Call) : (ofCalls calls).1.HasRanges :=
  (isInOrder_calls calls).hasRanges_finish

/-- A node or token reaches from the first token at or below it to the last. -/
theorem range?_ofCalls {calls : List Call} {id : Nat} (there : id < (ofCalls calls).1.size) :
    let tree := (ofCalls calls).1
    tree.range? id = rangeOf ((tree.walk tree.size id).filterMap tree.token?) := by
  intro tree
  have depthFirst := depthFirst_ofCalls calls
  obtain ⟨stop, ends⟩ := depthFirst.exists_endsAt there
  have last : stop ≤ tree.size := ends.le
  exact (hasRanges_ofCalls calls).range?_of_endsAt depthFirst ends (by omega)

/-- From some entry on the tokens are those that its call and later ones add. -/
theorem tokens_from (before rest : List Call) :
    let id := (before.foldl Builder.call .empty).tree.size
    let tree := (ofCalls (before ++ rest)).1
    (List.range' id (tree.size - id)).filterMap tree.token? = rest.filterMap Call.token? := by
  intro id tree
  let whole := rest.foldl Builder.call (before.foldl Builder.call .empty)
  have built : tree = whole.finish.1 := by simp only [tree, ofCalls, whole, List.foldl_append]
  have token? : tree.token? = whole.tree.token? := by
    rw [built]
    exact funext whole.token?_finish
  rw [show tree.size = whole.tree.size by rw [built, whole.size_finish], token?]
  exact Builder.tokens_added _ rest rfl (show [].foldl Builder.call whole = whole from rfl)

/-- Up to some entry they are those that earlier calls add. -/
theorem tokens_upTo (before rest : List Call) :
    let id := (before.foldl Builder.call .empty).tree.size
    let tree := (ofCalls (before ++ rest)).1
    id ≤ tree.size ∧ (List.range id).filterMap tree.token? = before.filterMap Call.token? := by
  intro id tree
  have there : id ≤ tree.size := by
    simp only [tree, ofCalls, List.foldl_append, Builder.size_finish]
    exact Builder.size_le_calls _ rest
  have all : tree.tokens = before.filterMap Call.token? ++ rest.filterMap Call.token? := by
    rw [← List.filterMap_append]
    exact tokens_ofCalls _
  rw [tokens, preorder, range_of_le there, List.filterMap_append, tokens_from before rest] at all
  exact ⟨there, List.append_cancel_right all⟩

/-- An entry belongs to the root exactly if everything else that was started is finished. -/
theorem parent?_eq_root_iff {call : Call} (adds : call.content?.isSome) (kind : Kind)
    (front after : List Call) :
    let id := ((Call.start kind :: front).foldl Builder.call .empty).tree.size
    let tree := (ofCalls (.start kind :: (front ++ call :: after))).1
    tree.parent? id = some 0 ↔ Nested Call.role front := by
  intro id tree
  obtain ⟨content, adds⟩ := Option.isSome_iff_exists.mp adds
  obtain ⟨-, -, -, parent⟩ := ofCalls_call adds (.start kind :: front) after
  rw [show tree.parent? id = _ from parent]
  constructor
  · intro current
    obtain ⟨rest, unfinished⟩ := List.head?_eq_some_iff.mp current
    obtain ⟨before, other, inner, split, nested, first, -⟩ :=
      Builder.exists_start_of_unfinished unfinished
    cases before with
    | nil =>
      obtain ⟨-, rfl⟩ := List.cons.inj split
      exact nested
    | cons root before =>
      obtain ⟨rfl, -⟩ := List.cons.inj split
      have grown := Builder.size_le_calls (Builder.empty.call (.start kind)) before
      rw [List.foldl_cons] at first
      rw [first, Builder.size_start] at grown
      cases grown
  · intro nested
    rw [List.foldl_cons, Builder.unfinished_of_nested nested, Builder.unfinished_start]
    rfl

end Tree

end Offside.Syntax
