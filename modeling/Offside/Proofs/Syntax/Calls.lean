import Offside.Proofs.Syntax.Builder

/-! # What calls add and leave alone

Every entry of a tree comes from one call, in order, and calls that come later leave it as it is but
for the children of nodes that are not finished. So what the entries that some calls add hold can be
read off these calls.
-/

namespace Offside.Syntax

open Source Token

namespace Tree

variable {tree : Tree} {id : Nat}

theorem lt_size_of_parent? {parent : Nat} (isParent : tree.parent? id = some parent) :
    id < tree.size := by
  obtain ⟨entry, found, -⟩ := Option.bind_eq_some_iff.mp isParent
  exact (Array.getElem?_eq_some_iff.mp found).1

theorem lt_size_of_kind? {kind : Kind} (isKind : tree.kind? id = some kind) : id < tree.size := by
  obtain ⟨entry, found, -⟩ := Option.bind_eq_some_iff.mp isKind
  exact (Array.getElem?_eq_some_iff.mp found).1

theorem lt_size_of_token? {token : Placed} (isToken : tree.token? id = some token) :
    id < tree.size := by
  obtain ⟨entry, found, -⟩ := Option.bind_eq_some_iff.mp isToken
  exact (Array.getElem?_eq_some_iff.mp found).1

theorem token?_of_kind? {kind : Kind} (isKind : tree.kind? id = some kind) :
    tree.token? id = none := by
  obtain ⟨⟨parent, content, range⟩, found, isKind⟩ := Option.bind_eq_some_iff.mp isKind
  rw [Tree.token?, found]
  cases content with
  | node => rfl
  | token => cases isKind

theorem kind?_of_token? (isToken : (tree.token? id).isSome) : tree.kind? id = none := by
  cases isKind : tree.kind? id with
  | none => rfl
  | some kind =>
    rw [token?_of_kind? isKind] at isToken
    cases isToken

/-- An entry holds a node or a token. -/
theorem isSome_kind?_or_token? (there : id < tree.size) :
    (tree.kind? id).isSome ∨ (tree.token? id).isSome := by
  have found : tree.entries[id]? = some tree.entries[id] := Array.getElem?_eq_getElem there
  rw [kind?, token?, found]
  generalize tree.entries[id] = entry
  obtain ⟨parent, content, range⟩ := entry
  cases content with
  | node => exact .inl rfl
  | token => exact .inr rfl

theorem children_of_size_le (beyond : tree.size ≤ id) : tree.children id = [] := by
  rw [children, Array.getElem?_eq_none beyond]

/-- Nothing lies below a token. -/
theorem children_of_token? (isToken : (tree.token? id).isSome) : tree.children id = [] := by
  obtain ⟨token, isToken⟩ := Option.isSome_iff_exists.mp isToken
  obtain ⟨⟨parent, content, range⟩, found, isToken⟩ := Option.bind_eq_some_iff.mp isToken
  rw [Tree.children, found]
  cases content with
  | node => cases isToken
  | token => rfl

theorem mem_nodesOfKind {kind : Kind} : id ∈ tree.nodesOfKind kind ↔ tree.kind? id = some kind := by
  rw [Tree.nodesOfKind, List.mem_filter, beq_iff_eq, Tree.preorder, List.mem_range,
    and_iff_right_iff_imp]
  exact lt_size_of_kind?

/-- Indices up to one size, and from there up to another. -/
theorem range_of_le {size later : Nat} (grown : size ≤ later) :
    List.range later = List.range size ++ List.range' size (later - size) := by
  conv => lhs; rw [List.range_eq_range', ← Nat.add_sub_cancel' grown, ← List.range'_append_1]
  rw [← List.range_eq_range', Nat.zero_add]

/-- What the entries hold, in order, as long as the nodes have no children. -/
def contents (tree : Tree) : List (Option Kind × Option Placed) :=
  tree.preorder.map fun id => (tree.kind? id, tree.token? id)

end Tree

namespace Builder

variable {builder : Builder} {id : Nat}

theorem size_start (builder : Builder) (kind : Kind) :
    (builder.call (.start kind)).tree.size = builder.tree.size + 1 :=
  builder.size_add (.node kind #[])

theorem size_token (builder : Builder) (token : Placed) :
    (builder.call (.token token)).tree.size = builder.tree.size + 1 :=
  builder.size_add (.token token)

theorem size_le_call (builder : Builder) (call : Call) :
    builder.tree.size ≤ (builder.call call).tree.size := by
  cases call with
  | start kind => exact builder.size_start kind ▸ Nat.le_succ _
  | token token => exact builder.size_token token ▸ Nat.le_succ _
  | finish | report => exact Nat.le_refl _

theorem size_le_calls (builder : Builder) (calls : List Call) :
    builder.tree.size ≤ (calls.foldl call builder).tree.size := by
  induction calls generalizing builder with
  | nil => exact Nat.le_refl _
  | cons call rest ih => exact Nat.le_trans (builder.size_le_call call) (ih _)

/-! ## What later calls leave alone -/

/-- What is the same about an entry when another is added stays. -/
private theorem same_calls {α : Type} (observe : Tree → α)
    (same : ∀ (builder : Builder) (content : Content), id < builder.tree.size →
      observe (builder.add content).tree = observe builder.tree)
    (there : id < builder.tree.size) (calls : List Call) :
    observe (calls.foldl call builder).tree = observe builder.tree := by
  induction calls generalizing builder with
  | nil => rfl
  | cons call rest ih =>
    refine (ih (Nat.lt_of_lt_of_le there (builder.size_le_call call))).trans ?_
    cases call with
    | start kind => exact same builder (.node kind #[]) there
    | token token => exact same builder (.token token) there
    | finish | report => rfl

theorem kind?_calls (there : id < builder.tree.size) (calls : List Call) :
    (calls.foldl call builder).tree.kind? id = builder.tree.kind? id :=
  same_calls (·.kind? id)
    (fun other content inside => other.kind?_add content inside)
    there calls

theorem parent?_calls (there : id < builder.tree.size) (calls : List Call) :
    (calls.foldl call builder).tree.parent? id = builder.tree.parent? id :=
  same_calls (·.parent? id)
    (fun other content inside => other.parent?_add content inside) there calls

theorem token?_calls (there : id < builder.tree.size) (calls : List Call) :
    (calls.foldl call builder).tree.token? id = builder.tree.token? id :=
  same_calls (·.token? id)
    (fun other content inside => other.token?_add content inside) there calls

/-- An entry was added, and if it is a node, it is finished. -/
def IsDone (builder : Builder) (id : Nat) : Prop :=
  id < builder.tree.size ∧ id ∉ builder.unfinished

theorem unfinished_start (builder : Builder) (kind : Kind) :
    (builder.call (.start kind)).unfinished = builder.tree.size :: builder.unfinished := by
  have current := (AddsBelow.isCurrent_start builder kind).first
  change some _ = some builder.tree.size at current
  change _ :: builder.unfinished = _
  rw [Option.some.inj current]

theorem isDone_call (done : builder.IsDone id) (call : Call) : (builder.call call).IsDone id := by
  refine ⟨Nat.lt_of_lt_of_le done.1 (builder.size_le_call call), ?_⟩
  cases call with
  | start kind =>
    rw [unfinished_start]
    exact List.not_mem_cons_of_ne_of_not_mem (Nat.ne_of_lt done.1) done.2
  | finish => exact fun member => done.2 (List.mem_of_mem_tail member)
  | token | report => exact done.2

/-- Finished nodes get no more children. -/
theorem children_calls (done : builder.IsDone id) (calls : List Call) :
    (calls.foldl call builder).tree.children id = builder.tree.children id := by
  induction calls generalizing builder with
  | nil => rfl
  | cons call rest ih =>
    have elsewhere : builder.unfinished.head? ≠ some id := fun current =>
      done.2 (List.mem_of_mem_head? current)
    refine (ih (isDone_call done call)).trans ?_
    cases call with
    | start kind => exact builder.children_add (.node kind #[]) done.1 elsewhere
    | token token => exact builder.children_add (.token token) done.1 elsewhere
    | finish | report => rfl

/-! ## Where entries come from -/

theorem tree_call_of_content {call : Call} {content : Content} (adds : call.content? = some content)
    (builder : Builder) : (builder.call call).tree = (builder.add content).tree := by
  cases call with
  | start | token =>
    cases adds
    rfl
  | finish | report => cases adds

theorem tree_call_of_none {call : Call} (adds : call.content? = none) (builder : Builder) :
    (builder.call call).tree = builder.tree := by
  cases call with
  | start | token => cases adds
  | finish | report => rfl

/-- Every entry that was not there before comes from a call that adds it. -/
theorem exists_call_of_lt {calls : List Call} (new : builder.tree.size ≤ id)
    (there : id < (calls.foldl call builder).tree.size) :
    ∃ before first after content, calls = before ++ first :: after ∧
      first.content? = some content ∧ id = (before.foldl call builder).tree.size := by
  induction calls generalizing builder with
  | nil => exact absurd there (Nat.not_lt.mpr new)
  | cons first rest ih =>
    by_cases later : (builder.call first).tree.size ≤ id
    · obtain ⟨before, second, after, content, rfl, adds, same⟩ := ih later there
      exact ⟨first :: before, second, after, content, rfl, adds, same⟩
    have own := Nat.not_le.mp later
    cases adds : first.content? with
    | none =>
      rw [tree_call_of_none adds] at own
      omega
    | some content =>
      rw [tree_call_of_content adds, size_add] at own
      exact ⟨[], first, rest, content, rfl, adds, by simp only [List.foldl_nil]; omega⟩

/-! ## Contents -/

theorem contents_add (builder : Builder) (content : Content) :
    (builder.add content).tree.contents =
      builder.tree.contents ++ [(content.kind?, content.token?)] := by
  have old : ∀ id ∈ List.range builder.tree.size,
      ((builder.add content).tree.kind? id, (builder.add content).tree.token? id) =
        (builder.tree.kind? id, builder.tree.token? id) := fun id member => by
    have there := List.mem_range.mp member
    rw [kind?_add _ _ there, token?_add _ _ there]
  rw [Tree.contents, Tree.preorder, size_add, List.range_succ, List.map_append,
    List.map_congr_left old, List.map_singleton, kind?_add_last, token?_add_last]
  rfl

/-- Entries come in the order of the calls that add them. -/
theorem contents_calls (builder : Builder) (calls : List Call) :
    (calls.foldl call builder).tree.contents = builder.tree.contents ++
      (calls.filterMap Call.content?).map fun content => (content.kind?, content.token?) := by
  induction calls generalizing builder with
  | nil => exact (List.append_nil _).symm
  | cons call rest ih =>
    rw [List.foldl_cons, ih]
    cases adds : call.content? with
    | none => rw [tree_call_of_none adds, List.filterMap_cons_none adds]
    | some content =>
      rw [tree_call_of_content adds, contents_add, List.filterMap_cons_some adds, List.map_cons,
        List.append_assoc, List.singleton_append]

/-- The next entry is numbered by the calls that added one before. -/
theorem size_calls (builder : Builder) (calls : List Call) :
    (calls.foldl call builder).tree.size =
      builder.tree.size + (calls.filterMap Call.content?).length := by
  have lengths := congrArg List.length (builder.contents_calls calls)
  simpa only [Tree.contents, Tree.preorder, List.length_map, List.length_range,
    List.length_append] using lengths

/-! ## Tokens in a row -/

theorem addsBelow_tokens {node : Nat} (current : builder.IsCurrent node) (tokens : List Placed) :
    AddsBelow node builder ((tokens.map .token).foldl call builder)
      (List.range' builder.tree.size tokens.length) := by
  induction tokens generalizing builder with
  | nil => exact .of_same node rfl rfl
  | cons token rest ih =>
    have first := AddsBelow.token current token
    have others := ih (first.isCurrent current)
    rw [size_token] at others
    exact first.trans others

/-- Tokens in a row become leaves in a row, whatever comes behind. -/
theorem map_token?_tokens (builder : Builder) (tokens : List Placed) (rest : List Call) :
    (List.range' builder.tree.size tokens.length).map
        ((tokens.map Call.token ++ rest).foldl call builder).tree.token? =
      tokens.map some := by
  induction tokens generalizing builder with
  | nil => rfl
  | cons token others ih =>
    have onward := ih (builder.call (.token token))
    have there : builder.tree.size < (builder.call (.token token)).tree.size := by
      rw [size_token]
      exact Nat.lt_succ_self _
    rw [size_token] at onward
    rw [List.length_cons, List.range'_succ, List.map_cons, List.map_cons]
    exact congrArg₂ _ ((token?_calls there _).trans (builder.token?_add_last (.token token))) onward

/-- The entries that calls add hold the tokens of these calls, whatever comes behind. -/
theorem tokens_added (builder : Builder) (calls : List Call) {after whole : Builder}
    {rest : List Call} (reached : calls.foldl call builder = after)
    (ends : rest.foldl call after = whole) :
    (List.range' builder.tree.size (after.tree.size - builder.tree.size)).filterMap
        whole.tree.token? = calls.filterMap Call.token? := by
  have grown : builder.tree.size ≤ after.tree.size := reached ▸ builder.size_le_calls calls
  have old : (List.range builder.tree.size).filterMap after.tree.token? = builder.tree.tokens :=
    List.filterMap_congr fun id member => reached ▸ token?_calls (List.mem_range.mp member) calls
  have tokens : after.tree.tokens = builder.tree.tokens ++ calls.filterMap Call.token? :=
    reached ▸ tokens_calls calls builder
  rw [Tree.tokens, Tree.preorder, Tree.range_of_le grown, List.filterMap_append, old] at tokens
  rw [← List.append_cancel_left tokens]
  refine List.filterMap_congr fun id member => ends ▸ token?_calls ?_ rest
  have bounds := List.mem_range'_1.mp member
  omega

theorem size_tokens (builder : Builder) (tokens : List Placed) :
    ((tokens.map .token).foldl call builder).tree.size = builder.tree.size + tokens.length := by
  have each : (tokens.map Call.token).filterMap Call.content? = tokens.map .token := by
    rw [List.filterMap_map]
    exact congrFun List.filterMap_eq_map tokens
  rw [size_calls, each, List.length_map]

/-- What is a token for each of some entries is there for each. -/
theorem isSome_of_map_eq {observe : Nat → Option Placed} {ids : List Nat} {tokens : List Placed}
    (same : ids.map observe = tokens.map some) : ∀ id ∈ ids, (observe id).isSome := by
  intro id member
  have mapped := List.mem_map_of_mem (f := observe) member
  rw [same] at mapped
  obtain ⟨token, -, isToken⟩ := List.mem_map.mp mapped
  exact Option.isSome_of_eq_some isToken.symm

theorem filterMap_of_map_eq {observe : Nat → Option Placed} {ids : List Nat} {tokens : List Placed}
    (same : ids.map observe = tokens.map some) : ids.filterMap observe = tokens := by
  have mapped := congrArg (List.filterMap id) same
  rw [List.filterMap_map, List.filterMap_map] at mapped
  exact mapped.trans List.filterMap_some

end Builder

namespace Tree

/-- Every entry of a tree comes from a call. -/
theorem exists_call_of_lt_size {calls : List Call} {id : Nat}
    (there : id < (ofCalls calls).1.size) :
    ∃ before call after content, calls = before ++ call :: after ∧
      call.content? = some content ∧ id = (before.foldl Builder.call .empty).tree.size := by
  rw [ofCalls, Builder.size_finish] at there
  exact Builder.exists_call_of_lt (Nat.zero_le id) there

/-- An entry holds what its call adds, and belongs to the node that was current then. -/
theorem ofCalls_call {call : Call} {content : Content} (adds : call.content? = some content)
    (before after : List Call) :
    let builder := before.foldl Builder.call .empty
    let tree := (ofCalls (before ++ call :: after)).1
    builder.tree.size < tree.size ∧ tree.kind? builder.tree.size = content.kind? ∧
      tree.token? builder.tree.size = content.token? ∧
      tree.parent? builder.tree.size = builder.unfinished.head? := by
  intro builder tree
  have added := Builder.tree_call_of_content adds builder
  have there : builder.tree.size < (builder.call call).tree.size := by
    rw [added, Builder.size_add]
    exact Nat.lt_succ_self _
  have built : tree = (after.foldl Builder.call (builder.call call)).finish.1 := by
    simp only [tree, ofCalls, builder, List.foldl_append, List.foldl_cons]
  rw [built, Builder.size_finish, Builder.kind?_finish, Builder.token?_finish,
    Builder.parent?_finish, Builder.kind?_calls there, Builder.token?_calls there,
    Builder.parent?_calls there, added, Builder.kind?_add_last, Builder.token?_add_last,
    Builder.parent?_add_last]
  exact ⟨Nat.lt_of_lt_of_le there (Builder.size_le_calls _ after), rfl, rfl, rfl⟩

theorem exists_start_of_mem {calls : List Call} {kind : Kind} {id : Nat}
    (member : id ∈ (ofCalls calls).1.nodesOfKind kind) :
    ∃ before after, calls = before ++ .start kind :: after ∧
      id = (before.foldl Builder.call .empty).tree.size := by
  have isKind := mem_nodesOfKind.mp member
  obtain ⟨before, call, after, content, rfl, adds, rfl⟩ :=
    exists_call_of_lt_size (lt_size_of_kind? isKind)
  rw [(ofCalls_call adds before after).2.1] at isKind
  cases call with
  | start other =>
    cases adds
    cases isKind
    exact ⟨before, after, rfl, rfl⟩
  | token token =>
    cases adds
    cases isKind
  | finish | report => cases adds

end Tree

end Offside.Syntax
