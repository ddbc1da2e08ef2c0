import Offside.Proofs.Grammar.Language
import Offside.Proofs.Grammar.Weight

/-! # Nodes that stay what they are in normal form

Some properties of nodes are not touched when sequences and choices are made, in normal form: what
holds of the items and alternatives holds of what is made of them. Then it holds of the nodes that
dispatch brings about as well.
-/

namespace Offside.Grammar

open Token (Kind)

/-- Nodes among which sequences and choices are brought into normal form. -/
structure Closed (inside : Node → Prop) : Prop where
  seq {stamp : Stamp} {items : List Node} :
    inside (.seq stamp items) ↔ ∀ item ∈ items, inside item
  heal {stamp : Stamp} {child : Node} : inside (.heal stamp child) ↔ inside child
  empty (stamp : Stamp) : inside (.empty stamp)
  alternatives {stamp : Stamp} {alternatives : List Node} {isOptional : Bool} :
    inside (.choice stamp alternatives isOptional) →
      ∀ alternative ∈ alternatives, inside alternative
  /-- Choices of such nodes, if there are any or none has to match. -/
  choice {stamp : Stamp} {alternatives : List Node} {isOptional : Bool} :
    alternatives ≠ [] ∨ isOptional = true → (∀ alternative ∈ alternatives, inside alternative) →
      inside (.choice stamp alternatives isOptional)
  /-- The choice that never matches, whatever its identity. -/
  never {stamp other : Stamp} : inside (.choice stamp [] false) → inside (.choice other [] false)

namespace Closed

variable {inside : Node → Prop} (closed : Closed inside)

include closed

theorem unhealed {node : Node} (within : inside node) : inside node.unhealed := by
  unfold Node.unhealed
  split
  · exact closed.heal.mp within
  · exact within

theorem healed_iff (stamp : Stamp) {node : Node} : inside (node.healed stamp) ↔ inside node := by
  unfold Node.healed
  split
  · exact Iff.rfl
  · exact closed.heal

theorem sequenceItems {node : Node} (within : inside node) :
    ∀ item ∈ node.sequenceItems, inside item := by
  unfold Node.sequenceItems
  split
  · exact closed.seq.mp within
  · exact fun _ none => absurd none List.not_mem_nil
  · exact List.forall_mem_singleton.mpr within

theorem flatMap_sequenceItems {items : List Node} (within : ∀ item ∈ items, inside item) :
    ∀ item ∈ items.flatMap Node.sequenceItems, inside item := by
  intro item member
  obtain ⟨whole, there, part⟩ := List.mem_flatMap.mp member
  exact closed.sequenceItems (within whole there) item part

theorem ofSequence (stamp : Stamp) {items : List Node} (within : ∀ item ∈ items, inside item) :
    inside (.ofSequence stamp items) := by
  have flat := closed.flatMap_sequenceItems within
  unfold Node.ofSequence
  split
  · exact closed.empty stamp
  · next only one => exact flat only (one ▸ List.mem_singleton_self only)
  · exact closed.seq.mpr flat

/-- The first step of a node and what follows it. -/
theorem headAndTail {node : Node} (within : inside node) :
    inside node.head ∧ ∀ item ∈ node.tail, inside item := by
  have unhealed := closed.unhealed within
  unfold Node.head Node.tail Node.headAndTail
  split
  · next same =>
    rw [same] at unhealed
    exact List.forall_mem_cons.mp (closed.seq.mp unhealed)
  · exact ⟨unhealed, fun _ none => absurd none List.not_mem_nil⟩

theorem flattenAlternatives {alternatives : List Node}
    (within : ∀ alternative ∈ alternatives, inside alternative) :
    ∀ node ∈ (Node.flattenAlternatives alternatives).1, inside node := by
  induction alternatives with
  | nil => simp [Node.flattenAlternatives]
  | cons alternative rest ih =>
    obtain ⟨own, others⟩ := List.forall_mem_cons.mp within
    have inner := closed.unhealed own
    rw [Node.flattenAlternatives]
    split
    · next same =>
      rw [same] at inner
      exact closed.alternatives inner
    · next same =>
      rw [same] at inner
      exact List.forall_mem_append.mpr ⟨closed.alternatives inner, ih others⟩
    · simp
    · exact List.forall_mem_cons.mpr ⟨own, ih others⟩

/-- If nothing is left of some alternatives in normal form, one of them never matches. -/
theorem never_of_flattenAlternatives (stamp : Stamp) {alternatives : List Node}
    (filled : alternatives ≠ []) (within : ∀ alternative ∈ alternatives, inside alternative)
    (nothing : Node.flattenAlternatives alternatives = ([], false)) :
    inside (.choice stamp [] false) := by
  obtain ⟨alternative, rest, rfl⟩ := List.exists_cons_of_ne_nil filled
  have inner := closed.unhealed (within alternative (List.mem_cons_self ..))
  rw [Node.flattenAlternatives] at nothing
  split at nothing
  · cases nothing
  · next same =>
    obtain ⟨rfl, -⟩ := List.append_eq_nil_iff.mp (congrArg Prod.fst nothing)
    rw [same] at inner
    exact closed.never inner
  · cases nothing
  · cases nothing

theorem ofAlternatives (stamp : Stamp) {alternatives : List Node} (filled : alternatives ≠ [])
    (within : ∀ alternative ∈ alternatives, inside alternative) :
    inside (.ofAlternatives stamp alternatives) := by
  have flat := closed.flattenAlternatives within
  unfold Node.ofAlternatives
  split
  · exact closed.empty stamp
  · next only same =>
    rw [same] at flat
    exact (closed.healed_iff stamp).mpr (flat only (List.mem_singleton_self _))
  · next nodes isOptional _ _ same =>
    rw [same] at flat
    by_cases some : nodes ≠ [] ∨ isOptional = true
    · exact closed.choice some flat
    · obtain ⟨rfl, rfl⟩ : nodes = [] ∧ isOptional = false := by simpa using some
      exact closed.never_of_flattenAlternatives stamp filled within same

/-- What follows the first steps of some nodes, as sequences. -/
theorem tails (stamp : Nat → Stamp) {nodes : List Node} (within : ∀ node ∈ nodes, inside node) :
    ∀ tail ∈ nodes.mapIdx fun place node => Node.ofSequence (stamp place) node.tail,
      inside tail := by
  intro tail member
  obtain ⟨place, there, rfl⟩ := List.mem_mapIdx.mp member
  exact closed.ofSequence _ (closed.headAndTail (within _ (List.getElem_mem there))).2

/-- The first step of some nodes and a choice of what follows. -/
theorem headAndTails (stamp : Nat → Stamp) (choice : Stamp) {first : Node} {rest : List Node}
    (within : ∀ node ∈ first :: rest, inside node) :
    ∀ item ∈ [first.head, Node.ofAlternatives choice ((first :: rest).mapIdx fun place node =>
      Node.ofSequence (stamp place) node.tail)], inside item := by
  have firstHead := (closed.headAndTail (within first (List.mem_cons_self ..))).1
  have merged := closed.ofAlternatives choice (by simp) (closed.tails stamp within)
  exact List.forall_mem_cons.mpr ⟨firstHead, List.forall_mem_singleton.mpr merged⟩

theorem mergeRun (stamp : Nat → Stamp) {nodes : List Node} (within : ∀ node ∈ nodes, inside node) :
    inside (Node.mergeRun stamp nodes) := by
  match nodes with
  | [] => exact closed.empty _
  | [only] => exact within only (List.mem_singleton_self only)
  | first :: second :: rest =>
    exact closed.ofSequence _ (closed.headAndTails (fun place => stamp (place + 2)) _ within)

/-- The candidates of a choice are such nodes if its alternatives are. -/
theorem candidates (grammar : Grammar) (stamp : Stamp) {alternatives : List Node}
    (within : ∀ alternative ∈ alternatives, inside alternative) (next? : Option Kind) :
    ∀ candidate ∈ grammar.candidates stamp alternatives next?, inside candidate := by
  intro candidate member
  obtain ⟨stamps, nodes, -, -, kept, rfl⟩ := exists_run_of_mem_candidates member
  exact closed.mergeRun stamps fun node inRun => within node (kept.subset inRun)

end Closed

theorem closed_true : Closed fun _ => True where
  seq := by simp
  heal := Iff.rfl
  empty _ := trivial
  alternatives _ _ _ := trivial
  choice _ _ := trivial
  never _ := trivial

/-! ## Names -/

/-- Every name that takes part in a node has a property. -/
def NamesAre (rules : Rules) (property : Stamp → String → Prop) (root : Node) : Prop :=
  ∀ stamp rule, Reaches rules root (.ref stamp rule) → property stamp rule

namespace NamesAre

variable {rules : Rules} {property : Stamp → String → Prop} {root child : Node}

theorem of_reaches (named : NamesAre rules property root) (reached : Reaches rules root child) :
    NamesAre rules property child :=
  fun stamp rule below => named stamp rule (reached.trans below)

theorem of_children (parts : ∀ child ∈ root.children, NamesAre rules property child)
    (noName : ∀ stamp rule, root ≠ .ref stamp rule) : NamesAre rules property root := by
  intro stamp rule reached
  obtain same | ⟨child, member, below⟩ := reached.eq_or_below noName
  · exact absurd same.symm (noName stamp rule)
  · exact parts child member stamp rule below

/-- Bringing nodes into normal form brings no names about. -/
theorem closed (rules : Rules) (property : Stamp → String → Prop) :
    Closed (NamesAre rules property) where
  seq := by
    intro stamp items
    constructor
    · exact fun named item member => named.of_reaches (.part .root member)
    · exact fun each => of_children each (by simp)
  heal := by
    intro stamp child
    constructor
    · exact fun named => named.of_reaches (.part .root (List.mem_singleton_self _))
    · exact fun named => of_children (List.forall_mem_singleton.mpr named) (by simp)
  empty stamp := of_children (by simp [Node.children]) (by simp)
  alternatives named alternative member := named.of_reaches (.part .root member)
  choice _ named := of_children named (by simp)
  never _ := of_children (by simp [Node.children]) (by simp)

end NamesAre

theorem Defined.of_reaches {grammar : Grammar} {root child : Node} (defined : grammar.Defined root)
    (reached : Reaches grammar.rules root child) : grammar.Defined child :=
  NamesAre.of_reaches defined reached

end Offside.Grammar
