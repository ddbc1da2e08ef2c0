import Mathlib.Data.List.Basic
import Offside.Proofs.Nesting
import Offside.Syntax.Builder

/-! # Trees built by nested calls

Entries are added in the order of the calls and never change but for the children of the node they
are added to. So a well nested sequence of calls puts everything it adds below the current node.
-/

namespace Offside.Syntax

open Source Token

/-- The entry at an index and those below it, depth first, down to some depth. -/
def Tree.walk (tree : Tree) : Nat → Nat → List Nat
  | 0, _ => []
  | depth + 1, id => id :: (tree.children id).flatMap (tree.walk depth)

namespace Call

/-- What a call does to the nesting of nodes. -/
def role : Call → Role
  | .start _ => .opens
  | .finish => .closes
  | _ => .inside

/-- What the entry that a call adds holds, as long as it has no children. -/
def content? : Call → Option Content
  | .start kind => some (.node kind #[])
  | .token leaf => some (.token leaf)
  | _ => none

/-- The token that a call adds. -/
def token? : Call → Option Placed
  | .token leaf => some leaf
  | _ => none

theorem filterMap_token?_tokens (tokens : List Placed) :
    (tokens.map Call.token).filterMap Call.token? = tokens := by
  rw [List.filterMap_map]
  exact List.filterMap_some

theorem filterMap_token?_reports (errors : List Error) :
    (errors.map Call.report).filterMap Call.token? = [] :=
  List.filterMap_eq_nil_iff.mpr fun call member => by
    obtain ⟨error, -, rfl⟩ := List.mem_map.mp member
    rfl

/-- The error that a call reports. -/
def error? : Call → Option Error
  | .report error => some error
  | _ => none

theorem filterMap_error?_tokens (tokens : List Placed) :
    (tokens.map Call.token).filterMap Call.error? = [] :=
  List.filterMap_eq_nil_iff.mpr fun call member => by
    obtain ⟨token, -, rfl⟩ := List.mem_map.mp member
    rfl

theorem eq_start_of_role {call : Call} (opens : call.role = .opens) :
    ∃ kind, call = .start kind := by
  cases call with
  | start kind => exact ⟨kind, rfl⟩
  | _ => cases opens

theorem eq_finish_of_role {call : Call} (closes : call.role = .closes) : call = .finish := by
  cases call with
  | finish => rfl
  | _ => cases closes

end Call

namespace Builder

/-- The tree so far, without the ranges of nodes. -/
def tree (builder : Builder) : Tree := ⟨builder.entries⟩

/-! ## Adding an entry -/

section

variable (builder : Builder) (content : Content)

@[simp] theorem size_add : (builder.add content).tree.size = builder.tree.size + 1 := by
  simp only [add, tree, Tree.size]
  split <;> simp

/-- The entry added. -/
theorem entry_add_last : (builder.add content).entries[builder.tree.size]? =
    some ⟨builder.unfinished.head?, content, content.token?.map Placed.range⟩ := by
  simp only [add, tree, Tree.size]
  split <;> rw [Array.getElem?_push] <;> simp

/-- An entry that was there is the same but for a child if it is the current node. -/
theorem entry_add {id : Nat} (there : id < builder.tree.size) :
    (builder.add content).entries[id]? = builder.entries[id]?.map fun entry =>
      if builder.unfinished.head? = some id then
        { entry with content := withChild builder.tree.size entry.content }
      else entry := by
  unfold tree Tree.size at *
  simp only [add]
  split
  · next parent current =>
    rw [Array.getElem?_push, Array.size_modify, if_neg (Nat.ne_of_lt there), Array.getElem?_modify,
      current]
    by_cases same : parent = id
    · simp [same]
    · simp [same]
  · next current =>
    rw [Array.getElem?_push, if_neg (Nat.ne_of_lt there), current]
    simp

theorem parent?_add_last :
    (builder.add content).tree.parent? builder.tree.size = builder.unfinished.head? :=
  congrArg (·.bind Entry.parent) (builder.entry_add_last content)

theorem kind?_add_last : (builder.add content).tree.kind? builder.tree.size = content.kind? :=
  congrArg (·.bind (·.content.kind?)) (builder.entry_add_last content)

theorem token?_add_last : (builder.add content).tree.token? builder.tree.size = content.token? :=
  congrArg (·.bind (·.content.token?)) (builder.entry_add_last content)

theorem range?_add_last :
    (builder.add content).tree.range? builder.tree.size = content.token?.map Placed.range :=
  congrArg (·.bind Entry.range) (builder.entry_add_last content)

theorem children_add_last :
    (builder.add content).tree.children builder.tree.size = content.children.toList := by
  rw [Tree.children, show (builder.add content).tree.entries[_]? = _ from
    builder.entry_add_last content]

variable {id : Nat} (there : id < builder.tree.size)

include there

/-- What one more child does not change about an entry stays. -/
private theorem observed_add {α : Type} (observe : Entry → Option α)
    (keeps : ∀ entry child,
      observe { entry with content := withChild child entry.content } = observe entry) :
    (builder.add content).entries[id]?.bind observe = builder.entries[id]?.bind observe := by
  rw [entry_add builder content there]
  cases builder.entries[id]? with
  | none => rfl
  | some entry =>
    simp only [Option.map_some, Option.bind_some]
    split
    · exact keeps entry _
    · rfl

theorem parent?_add : (builder.add content).tree.parent? id = builder.tree.parent? id :=
  builder.observed_add content there Entry.parent fun _ _ => rfl

theorem kind?_add : (builder.add content).tree.kind? id = builder.tree.kind? id :=
  builder.observed_add content there (·.content.kind?) fun entry _ => by
    cases entry.content <;> rfl

theorem token?_add : (builder.add content).tree.token? id = builder.tree.token? id :=
  builder.observed_add content there (·.content.token?) fun entry _ => by
    cases entry.content <;> rfl

theorem range?_add : (builder.add content).tree.range? id = builder.tree.range? id :=
  builder.observed_add content there Entry.range fun _ _ => rfl

/-- Only the current node gets a child. -/
theorem children_add (elsewhere : builder.unfinished.head? ≠ some id) :
    (builder.add content).tree.children id = builder.tree.children id := by
  have same := entry_add builder content there
  simp only [elsewhere, ↓reduceIte, Option.map_id'] at same
  rw [Tree.children, Tree.children, show (builder.add content).tree.entries[id]? = _ from same]
  rfl

/-- The current node gets the new entry as its last child. -/
theorem children_add_current (current : builder.unfinished.head? = some id)
    (isNode : (builder.tree.kind? id).isSome) :
    (builder.add content).tree.children id = builder.tree.children id ++ [builder.tree.size] := by
  obtain ⟨kind, isKind⟩ := Option.isSome_iff_exists.mp isNode
  obtain ⟨⟨parent, old, range⟩, found, node⟩ := Option.bind_eq_some_iff.mp isKind
  have same := entry_add builder content there
  rw [show builder.entries[id]? = _ from found] at same
  simp only [current, ↓reduceIte, Option.map_some] at same
  rw [Tree.children, Tree.children, show (builder.add content).tree.entries[id]? = _ from same,
    found]
  cases old with
  | node => simp [withChild, Content.children]
  | token => cases node

end

/-! ## Nested calls -/

/-- An unfinished node is the innermost one. -/
structure IsCurrent (builder : Builder) (node : Nat) : Prop where
  /-- It is the first of the unfinished ones. -/
  first : builder.unfinished.head? = some node
  there : node < builder.tree.size
  isNode : (builder.tree.kind? node).isSome

/-- Calls added entries below an unfinished node, the children `added` of the node and all entries
below those, and are back at that node. -/
structure AddsBelow (node : Nat) (before after : Builder) (added : List Nat) : Prop where
  unfinished : after.unfinished = before.unfinished
  size_le : before.tree.size ≤ after.tree.size
  kind? : ∀ id < before.tree.size, after.tree.kind? id = before.tree.kind? id
  parent? : ∀ id < before.tree.size, after.tree.parent? id = before.tree.parent? id
  children : ∀ id < before.tree.size, id ≠ node →
    after.tree.children id = before.tree.children id
  children_node : after.tree.children node = before.tree.children node ++ added
  parents : ∀ id, before.tree.size ≤ id → id < after.tree.size →
    (after.tree.parent? id).isSome

namespace AddsBelow

variable {node : Nat} {before middle after : Builder} {added more : List Nat}

theorem isCurrent (adds : AddsBelow node before after added) (current : before.IsCurrent node) :
    after.IsCurrent node where
  first := adds.unfinished ▸ current.first
  there := Nat.lt_of_lt_of_le current.there adds.size_le
  isNode := adds.kind? node current.there ▸ current.isNode

theorem of_same (node : Nat) (unfinished : after.unfinished = before.unfinished)
    (same : after.tree = before.tree) : AddsBelow node before after [] where
  unfinished := unfinished
  size_le := Nat.le_of_eq (congrArg Tree.size same.symm)
  kind? _ _ := by rw [same]
  parent? _ _ := by rw [same]
  children _ _ _ := by rw [same]
  children_node := by rw [same, List.append_nil]
  parents id low high := absurd (same ▸ high) (Nat.not_lt.mpr low)

theorem trans (first : AddsBelow node before middle added)
    (second : AddsBelow node middle after more) :
    AddsBelow node before after (added ++ more) where
  unfinished := second.unfinished.trans first.unfinished
  size_le := Nat.le_trans first.size_le second.size_le
  kind? id there := (second.kind? id (Nat.lt_of_lt_of_le there first.size_le)).trans
    (first.kind? id there)
  parent? id there := (second.parent? id (Nat.lt_of_lt_of_le there first.size_le)).trans
    (first.parent? id there)
  children id there other :=
    (second.children id (Nat.lt_of_lt_of_le there first.size_le) other).trans
      (first.children id there other)
  children_node := by rw [second.children_node, first.children_node, List.append_assoc]
  parents id low high := by
    by_cases early : id < middle.tree.size
    · rw [second.parent? id early]
      exact first.parents id low early
    · exact second.parents id (Nat.not_lt.mp early) high

/-- A new entry below the node. -/
private theorem add {builder : Builder} (current : builder.IsCurrent node) (content : Content) :
    AddsBelow node builder (builder.add content) [builder.tree.size] where
  unfinished := rfl
  size_le := by
    rw [size_add]
    exact Nat.le_succ _
  kind? id there := builder.kind?_add content there
  parent? id there := builder.parent?_add content there
  children id there other := builder.children_add content there <| by
    rw [current.first]
    exact fun same => other (Option.some.inj same).symm
  children_node := builder.children_add_current content current.there current.first current.isNode
  parents id low high := by
    rw [size_add] at high
    obtain rfl : id = builder.tree.size := by omega
    rw [parent?_add_last, current.first]
    rfl

theorem token {builder : Builder} (current : builder.IsCurrent node) (token : Placed) :
    AddsBelow node builder (builder.call (.token token)) [builder.tree.size] :=
  add current (.token token)

/-- A node that was started is the current one. -/
theorem isCurrent_start (builder : Builder) (kind : Kind) :
    (builder.call (.start kind)).IsCurrent builder.tree.size where
  first := by
    have size := builder.size_add (.node kind #[])
    simp only [tree, Tree.size] at size ⊢
    simp [call, enterLast, size]
  there := by
    change builder.tree.size < (builder.add (.node kind #[])).tree.size
    rw [size_add]
    exact Nat.lt_succ_self _
  isNode := by
    change ((builder.add (.node kind #[])).tree.kind? builder.tree.size).isSome = true
    rw [kind?_add_last]
    rfl

/-- A node around entries of its own. -/
theorem around {builder : Builder} (current : builder.IsCurrent node) (kind : Kind)
    (inner : AddsBelow builder.tree.size (builder.call (.start kind)) after added) :
    AddsBelow node builder (after.call .finish) [builder.tree.size] := by
  have started := add current (.node kind #[])
  have size : (builder.call (.start kind)).tree.size = builder.tree.size + 1 :=
    builder.size_add (.node kind #[])
  have innerLe := inner.size_le
  have ahead : ∀ id < builder.tree.size, id < (builder.call (.start kind)).tree.size := by omega
  have there := current.there
  exact {
    unfinished := congrArg List.tail inner.unfinished
    size_le := by
      change builder.tree.size ≤ after.tree.size
      omega
    kind? := fun id old => (inner.kind? id (ahead id old)).trans (started.kind? id old)
    parent? := fun id old => (inner.parent? id (ahead id old)).trans (started.parent? id old)
    children := fun id old other =>
      (inner.children id (ahead id old) (Nat.ne_of_lt old)).trans (started.children id old other)
    children_node :=
      (inner.children node (ahead node there) (Nat.ne_of_lt there)).trans started.children_node
    parents := fun id low high => by
      change (after.tree.parent? id).isSome = true
      by_cases first : id < (builder.call (.start kind)).tree.size
      · rw [inner.parent? id first]
        exact started.parents id low first
      · exact inner.parents id (Nat.not_lt.mp first) high }

/-- A well nested sequence of calls adds below the current node. -/
theorem of_nested {calls : List Call} (nested : Nested Call.role calls) {builder : Builder}
    (current : builder.IsCurrent node) :
    ∃ added, AddsBelow node builder (calls.foldl Builder.call builder) added := by
  induction nested generalizing node builder with
  | nil => exact ⟨[], of_same node rfl rfl⟩
  | @item call calls inside _ ih =>
    obtain ⟨first, adds⟩ : ∃ first, AddsBelow node builder (builder.call call) first := by
      cases call with
      | start | finish => cases inside
      | token token => exact ⟨_, AddsBelow.token current token⟩
      | report error => exact ⟨[], of_same node rfl rfl⟩
    obtain ⟨more, addsMore⟩ := ih (adds.isCurrent current)
    exact ⟨_, adds.trans addsMore⟩
  | @pair first last inner calls opens closes _ _ ihInner ih =>
    obtain ⟨kind, rfl⟩ := Call.eq_start_of_role opens
    obtain rfl := Call.eq_finish_of_role closes
    obtain ⟨added, addsInner⟩ := ihInner (isCurrent_start builder kind)
    have adds := around current kind addsInner
    obtain ⟨more, addsMore⟩ := ih (adds.isCurrent current)
    refine ⟨[builder.tree.size] ++ more, ?_⟩
    rw [List.foldl_cons, List.foldl_append, List.foldl_cons]
    exact adds.trans addsMore

end AddsBelow

/-! ## Filling in ranges -/

/-- Only ranges are filled in. -/
theorem observed_fillRanges {α : Type} (observe : Entry → Option α)
    (blind : ∀ parent content range range',
      observe ⟨parent, content, range⟩ = observe ⟨parent, content, range'⟩)
    (entries : Array Entry) (count id : Nat) :
    (fillRanges entries count)[id]?.bind observe = entries[id]?.bind observe := by
  induction count generalizing entries with
  | zero => rfl
  | succ last ih =>
    rw [fillRanges]
    split
    · next parent kind children range found =>
      rw [ih, Array.getElem?_setIfInBounds]
      split
      · next same =>
        subst same
        rw [found]
        split
        · exact blind ..
        · next missing =>
          cases (Array.getElem?_eq_none (Nat.not_lt.mp missing)).symm.trans found
      · rfl
    · exact ih entries

theorem size_fillRanges (entries : Array Entry) (count : Nat) :
    (fillRanges entries count).size = entries.size := by
  induction count generalizing entries with
  | zero => rfl
  | succ last ih =>
    rw [fillRanges]
    split <;> simp only [ih, Array.size_setIfInBounds]

section

variable (builder : Builder)

theorem size_finish : builder.finish.1.size = builder.tree.size :=
  size_fillRanges builder.entries builder.entries.size

theorem parent?_finish (id : Nat) : builder.finish.1.parent? id = builder.tree.parent? id :=
  observed_fillRanges Entry.parent (fun _ _ _ _ => rfl) ..

theorem kind?_finish (id : Nat) : builder.finish.1.kind? id = builder.tree.kind? id :=
  observed_fillRanges (·.content.kind?) (fun _ _ _ _ => rfl) ..

theorem token?_finish (id : Nat) : builder.finish.1.token? id = builder.tree.token? id :=
  observed_fillRanges (·.content.token?) (fun _ _ _ _ => rfl) ..

theorem children_finish (id : Nat) : builder.finish.1.children id = builder.tree.children id := by
  have same := observed_fillRanges (fun entry => some entry.content.children.toList)
    (fun _ _ _ _ => rfl) builder.entries builder.entries.size id
  have asBind : ∀ tree : Tree, tree.children id =
      (tree.entries[id]?.bind fun entry => some entry.content.children.toList).getD [] := by
    intro tree
    unfold Tree.children
    cases tree.entries[id]? <;> rfl
  rw [asBind, asBind]
  exact congrArg (·.getD []) same

end

/-! ## Tokens -/

theorem tokens_add (builder : Builder) (content : Content) :
    (builder.add content).tree.tokens = builder.tree.tokens ++ content.token?.toList := by
  have old : ∀ id ∈ List.range builder.tree.size,
      (builder.add content).tree.token? id = builder.tree.token? id :=
    fun id member => builder.token?_add content (List.mem_range.mp member)
  rw [Tree.tokens, Tree.preorder, size_add, List.range_succ, List.filterMap_append,
    List.filterMap_congr old, Tree.tokens, Tree.preorder]
  cases none : content.token? <;> simp [List.filterMap, token?_add_last, none]

/-- A call adds the token it carries. -/
theorem tokens_call (builder : Builder) (call : Call) :
    (builder.call call).tree.tokens = builder.tree.tokens ++ call.token?.toList := by
  cases call with
  | start kind => exact builder.tokens_add (.node kind #[])
  | token token => exact builder.tokens_add (.token token)
  | finish | report => exact (List.append_nil _).symm

theorem tokens_calls (calls : List Call) (builder : Builder) :
    (calls.foldl call builder).tree.tokens =
      builder.tree.tokens ++ calls.filterMap Call.token? := by
  induction calls generalizing builder with
  | nil => simp
  | cons call rest ih =>
    rw [List.foldl_cons, ih, tokens_call, List.append_assoc]
    cases none : call.token? <;> simp [none]

theorem tokens_finish (builder : Builder) : builder.finish.1.tokens = builder.tree.tokens := by
  rw [Tree.tokens, Tree.tokens, Tree.preorder, Tree.preorder, size_finish]
  exact List.filterMap_congr fun id _ => builder.token?_finish id

/-! ## Errors -/

theorem tree_report (errors : List Error) (builder : Builder) :
    ((errors.map Call.report).foldl call builder).tree = builder.tree := by
  induction errors generalizing builder with
  | nil => rfl
  | cons error rest ih => exact ih (builder.call (.report error))

/-- Errors are kept in the order in which they are reported. -/
theorem errors_calls (calls : List Call) (builder : Builder) :
    (calls.foldl call builder).errors.toList =
      builder.errors.toList ++ calls.filterMap Call.error? := by
  induction calls generalizing builder with
  | nil => exact (List.append_nil _).symm
  | cons call rest ih =>
    rw [List.foldl_cons, ih]
    cases call with
    | start | token | finish => rfl
    | report error => simp [Builder.call, Call.error?]

end Builder

namespace Tree

/-- The errors are those reported, sorted by where they start. -/
theorem errors_ofCalls (calls : List Call) : (ofCalls calls).2 =
    (calls.filterMap Call.error?).mergeSort
      fun first second => first.span.lo ≤ second.span.lo := by
  simp only [ofCalls, Builder.finish, Builder.errors_calls]
  rfl

theorem errors_ofCalls_perm (calls : List Call) :
    (ofCalls calls).2.Perm (calls.filterMap Call.error?) := by
  rw [errors_ofCalls]
  exact List.mergeSort_perm ..

theorem mem_errors_ofCalls {error : Error} {calls : List Call} (member : .report error ∈ calls) :
    error ∈ (ofCalls calls).2 :=
  (errors_ofCalls_perm calls).mem_iff.mpr (List.mem_filterMap.mpr ⟨_, member, rfl⟩)

/-- What an error says that is reported last is seen neither in the tree nor in the codes and places
of the errors. -/
theorem ofCalls_report (calls : List Call) {error other : Error} (code : error.code = other.code)
    (span : error.span = other.span) :
    let first := ofCalls (calls ++ [.report error])
    let second := ofCalls (calls ++ [.report other])
    first.1 = second.1 ∧ first.2.map (fun error => (error.code, error.span)) =
      second.2.map fun error => (error.code, error.span) := by
  simp only [ofCalls, List.foldl_append, List.foldl_cons, List.foldl_nil]
  generalize calls.foldl Builder.call .empty = builder
  refine ⟨rfl, ?_⟩
  have sorted : ∀ errors : List Error,
      (errors.mergeSort fun first second => first.span.lo ≤ second.span.lo).map
          (fun error => (error.code, error.span)) =
        (errors.map fun error => (error.code, error.span)).mergeSort
          fun first second => first.2.lo ≤ second.2.lo :=
    fun errors => List.map_mergeSort fun _ _ _ _ => rfl
  simp only [Builder.finish, Builder.call, sorted, Array.toList_push, List.map_append,
    List.map_cons, List.map_nil, code, span]

/-- The tokens of a tree are those of the calls, in order, however the calls are nested. -/
theorem tokens_ofCalls (calls : List Call) :
    (ofCalls calls).1.tokens = calls.filterMap Call.token? := by
  rw [ofCalls, Builder.tokens_finish, Builder.tokens_calls]
  rfl

end Tree

end Offside.Syntax
