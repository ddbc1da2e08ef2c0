import Mathlib.Data.Finset.Card
import Offside.Proofs.Grammar.Language
import Offside.Proofs.Grammar.Weight

/-! # Left recursion

A rule is left-recursive if it can be entered again from its own body before a word is taken. Which
nodes run where their parent starts is read off the grammar: the first item of a sequence, and any
later item that only nodes stand in front of which may match nothing; both parts of a node that
recovers; the continuation of a chain whose start may match nothing.

The merged alternatives of a choice are new nodes, but they enter no rule that the alternatives
themselves would not enter. Without left recursion the rules that a node may enter before it takes
a word are fewer behind every rule, and their number ranks the nodes.
-/

namespace Offside.Grammar

/-- Nodes that may match without taking a word. -/
inductive Nullable (rules : Rules) : Node → Prop
  | empty {stamp : Stamp} : Nullable rules (.empty stamp)
  /-- A sequence of which every item may match nothing. -/
  | seq {stamp : Stamp} {items : List Node} (each : ∀ item ∈ items, Nullable rules item) :
    Nullable rules (.seq stamp items)
  /-- A choice with an alternative that may match nothing. -/
  | alternative {stamp : Stamp} {alternatives : List Node} {isOptional : Bool} {node : Node}
    (member : node ∈ alternatives) (nullable : Nullable rules node) :
    Nullable rules (.choice stamp alternatives isOptional)
  | omitted {stamp : Stamp} {alternatives : List Node} :
    Nullable rules (.choice stamp alternatives true)
  | oneOrMore {stamp : Stamp} {child : Node} (nullable : Nullable rules child) :
    Nullable rules (.oneOrMore stamp child)
  | heal {stamp : Stamp} {child : Node} (nullable : Nullable rules child) :
    Nullable rules (.heal stamp child)
  | ahead {stamp : Stamp} {child : Node} : Nullable rules (.ahead stamp child)
  | symbolic {stamp : Stamp} {kind : Syntax.Kind} {child : Node}
    (nullable : Nullable rules child) : Nullable rules (.symbolic stamp kind child)
  | fold {stamp : Stamp} {kind : Syntax.Kind} {start next : Node}
    (nullable : Nullable rules start) : Nullable rules (.fold stamp kind start next)
  | cont {stamp : Stamp} {kind : Syntax.Kind} {start rest : Node}
    (nullable : Nullable rules start) : Nullable rules (.cont stamp kind start rest)
  | ref {stamp : Stamp} {rule : String} {body : Node} (lookup : rules.body? rule = some body)
    (nullable : Nullable rules body) : Nullable rules (.ref stamp rule)
  | relax {stamp : Stamp} {child : Node} {message : String} :
    Nullable rules (.relax stamp child message)
  | relaxTo {stamp : Stamp} {child recovery : Node} {message : String} :
    Nullable rules (.relaxTo stamp child recovery message)

/-- One node may run where the other starts, as one of its parts or as the body of its rule. -/
inductive RunsFirst (rules : Rules) : Node → Node → Prop
  /-- An item that only nodes stand in front of which may match nothing. -/
  | item {stamp : Stamp} {before after : List Node} {item : Node}
    (passes : ∀ node ∈ before, Nullable rules node) :
    RunsFirst rules (.seq stamp (before ++ item :: after)) item
  | alternative {stamp : Stamp} {alternatives : List Node} {isOptional : Bool} {node : Node}
    (member : node ∈ alternatives) : RunsFirst rules (.choice stamp alternatives isOptional) node
  | oneOrMore {stamp : Stamp} {child : Node} : RunsFirst rules (.oneOrMore stamp child) child
  | heal {stamp : Stamp} {child : Node} : RunsFirst rules (.heal stamp child) child
  | ahead {stamp : Stamp} {child : Node} : RunsFirst rules (.ahead stamp child) child
  | symbolic {stamp : Stamp} {kind : Syntax.Kind} {child : Node} :
    RunsFirst rules (.symbolic stamp kind child) child
  | start {stamp : Stamp} {kind : Syntax.Kind} {start next : Node} :
    RunsFirst rules (.fold stamp kind start next) start
  /-- The continuation of a chain whose start may match nothing. -/
  | next {stamp : Stamp} {kind : Syntax.Kind} {start next : Node}
    (passes : Nullable rules start) : RunsFirst rules (.fold stamp kind start next) next
  | init {stamp : Stamp} {kind : Syntax.Kind} {start rest : Node} :
    RunsFirst rules (.cont stamp kind start rest) start
  /-- The rest behind a start that may match nothing. -/
  | rest {stamp : Stamp} {kind : Syntax.Kind} {start rest : Node}
    (passes : Nullable rules start) : RunsFirst rules (.cont stamp kind start rest) rest
  | body {stamp : Stamp} {rule : String} {body : Node} (lookup : rules.body? rule = some body) :
    RunsFirst rules (.ref stamp rule) body
  | relax {stamp : Stamp} {child : Node} {message : String} :
    RunsFirst rules (.relax stamp child message) child
  | relaxTo {stamp : Stamp} {child recovery : Node} {message : String} :
    RunsFirst rules (.relaxTo stamp child recovery message) child
  | recovery {stamp : Stamp} {child recovery : Node} {message : String} :
    RunsFirst rules (.relaxTo stamp child recovery message) recovery

/-- A rule may be entered before the node has taken a word. -/
inductive Enters (rules : Rules) (rule : String) : Node → Prop
  | here {stamp : Stamp} : Enters rules rule (.ref stamp rule)
  | first {node child : Node} (runs : RunsFirst rules node child)
    (enters : Enters rules rule child) : Enters rules rule node

/-- No rule can be entered again from its own body before a word is taken. -/
def Rules.LeftRecursionFree (rules : Rules) : Prop :=
  ∀ rule body, rules.body? rule = some body → ¬Enters rules rule body

theorem leftRecursionFree_ofRules {rules : Rules} (free : rules.LeftRecursionFree) :
    (ofRules rules).rules.LeftRecursionFree := free

section

variable {rules : Rules} {rule : String}

/-! ## Nodes in normal form -/

/-- Some item enters the rule, and those in front of it may match nothing. -/
def EntersAny (rules : Rules) (rule : String) : List Node → Prop
  | [] => False
  | item :: rest => Enters rules rule item ∨ Nullable rules item ∧ EntersAny rules rule rest

theorem entersAny_singleton {item : Node} :
    EntersAny rules rule [item] ↔ Enters rules rule item := by
  simp [EntersAny]

theorem entersAny_append {items more : List Node} :
    EntersAny rules rule (items ++ more) ↔
      EntersAny rules rule items ∨ (∀ item ∈ items, Nullable rules item) ∧
        EntersAny rules rule more := by
  induction items with
  | nil => simp [EntersAny]
  | cons item rest ih =>
    simp only [List.cons_append, EntersAny, ih, List.forall_mem_cons]
    tauto

theorem nullable_ref_iff {stamp other : Stamp} :
    Nullable rules (.ref stamp rule) ↔ Nullable rules (.ref other rule) := by
  constructor
  · intro nullable
    cases nullable with
    | ref lookup nullable => exact .ref lookup nullable
  · intro nullable
    cases nullable with
    | ref lookup nullable => exact .ref lookup nullable

theorem enters_seq_iff {stamp : Stamp} {items : List Node} :
    Enters rules rule (.seq stamp items) ↔ EntersAny rules rule items := by
  constructor
  · rintro (_ | ⟨runs, enters⟩)
    cases runs with
    | item passes =>
      exact entersAny_append.mpr (.inr ⟨passes, .inl enters⟩)
  · intro enters
    obtain ⟨before, item, after, rfl, passes, enters⟩ :
        ∃ before item after, items = before ++ item :: after ∧
          (∀ node ∈ before, Nullable rules node) ∧ Enters rules rule item := by
      induction items with
      | nil => cases enters
      | cons item rest ih =>
        rcases enters with enters | ⟨nullable, later⟩
        · exact ⟨[], item, rest, rfl, by simp, enters⟩
        · obtain ⟨before, other, after, rfl, passes, enters⟩ := ih later
          exact ⟨item :: before, other, after, rfl,
            List.forall_mem_cons.mpr ⟨nullable, passes⟩, enters⟩
    exact .first (.item passes) enters

theorem enters_choice_iff {stamp : Stamp} {alternatives : List Node} {isOptional : Bool} :
    Enters rules rule (.choice stamp alternatives isOptional) ↔
      ∃ node ∈ alternatives, Enters rules rule node := by
  constructor
  · rintro (_ | ⟨runs, enters⟩)
    cases runs with
    | alternative member => exact ⟨_, member, enters⟩
  · rintro ⟨node, member, enters⟩
    exact .first (.alternative member) enters

theorem enters_heal_iff {stamp : Stamp} {child : Node} :
    Enters rules rule (.heal stamp child) ↔ Enters rules rule child := by
  constructor
  · rintro (_ | ⟨runs, enters⟩)
    cases runs with
    | heal => exact enters
  · exact .first .heal

theorem not_enters_empty {stamp : Stamp} : ¬Enters rules rule (.empty stamp) := by
  rintro (_ | ⟨runs, -⟩)
  cases runs

/-! ## Merged alternatives -/

theorem nullable_sequenceItems {node : Node} (nullable : ∀ item ∈ node.sequenceItems,
    Nullable rules item) : Nullable rules node := by
  unfold Node.sequenceItems at nullable
  split at nullable
  · exact .seq nullable
  · exact .empty
  · exact nullable _ (List.mem_singleton_self _)

theorem entersAny_sequenceItems {node : Node} :
    EntersAny rules rule node.sequenceItems ↔ Enters rules rule node := by
  unfold Node.sequenceItems
  split
  · exact enters_seq_iff.symm
  · exact iff_of_false id not_enters_empty
  · exact entersAny_singleton

theorem entersAny_of_flatMap_sequenceItems {items : List Node}
    (enters : EntersAny rules rule (items.flatMap Node.sequenceItems)) :
    EntersAny rules rule items := by
  induction items with
  | nil => exact enters
  | cons item rest ih =>
    rw [List.flatMap_cons, entersAny_append] at enters
    rcases enters with enters | ⟨passes, later⟩
    · exact .inl (entersAny_sequenceItems.mp enters)
    · exact .inr ⟨nullable_sequenceItems passes, ih later⟩

theorem entersAny_of_ofSequence {stamp : Stamp} {items : List Node}
    (enters : Enters rules rule (.ofSequence stamp items)) : EntersAny rules rule items := by
  apply entersAny_of_flatMap_sequenceItems
  unfold Node.ofSequence at enters
  split at enters
  · exact absurd enters not_enters_empty
  · next only same =>
    rw [same]
    exact entersAny_singleton.mpr enters
  · exact enters_seq_iff.mp enters

theorem enters_unhealed_iff {node : Node} :
    Enters rules rule node.unhealed ↔ Enters rules rule node := by
  unfold Node.unhealed
  split
  · exact enters_heal_iff.symm
  · exact .rfl

theorem enters_of_flattenAlternatives {alternatives : List Node} {node : Node}
    (member : node ∈ (Node.flattenAlternatives alternatives).1)
    (enters : Enters rules rule node) : ∃ node ∈ alternatives, Enters rules rule node := by
  induction alternatives with
  | nil => cases member
  | cons alternative rest ih =>
    have later : node ∈ (Node.flattenAlternatives rest).1 →
        ∃ node ∈ alternative :: rest, Enters rules rule node := fun member => by
      obtain ⟨other, inRest, enters⟩ := ih member
      exact ⟨other, List.mem_cons_of_mem _ inRest, enters⟩
    have own : Enters rules rule alternative.unhealed →
        ∃ node ∈ alternative :: rest, Enters rules rule node :=
      fun enters => ⟨alternative, List.mem_cons_self .., enters_unhealed_iff.mp enters⟩
    rw [Node.flattenAlternatives] at member
    split at member
    · next same =>
      exact own (same ▸ enters_choice_iff.mpr ⟨node, member, enters⟩)
    · next same =>
      rcases List.mem_append.mp member with nested | flat
      · exact own (same ▸ enters_choice_iff.mpr ⟨node, nested, enters⟩)
      · exact later flat
    · cases member
    · rcases List.mem_cons.mp member with rfl | flat
      · exact ⟨node, List.mem_cons_self .., enters⟩
      · exact later flat

theorem enters_of_ofAlternatives {stamp : Stamp} {alternatives : List Node}
    (enters : Enters rules rule (.ofAlternatives stamp alternatives)) :
    ∃ node ∈ alternatives, Enters rules rule node := by
  unfold Node.ofAlternatives at enters
  split at enters
  · exact absurd enters not_enters_empty
  · next only same =>
    have inside : only ∈ (Node.flattenAlternatives alternatives).1 := by simp [same]
    refine enters_of_flattenAlternatives inside ?_
    unfold Node.healed at enters
    split at enters
    · exact enters
    · exact enters_heal_iff.mp enters
  · next same =>
    obtain ⟨node, member, enters⟩ := enters_choice_iff.mp enters
    exact enters_of_flattenAlternatives (by simpa [same] using member) enters

/-- A node enters what its first step enters, and what follows that if it may match nothing. -/
theorem enters_iff_head_tail {node : Node} :
    Enters rules rule node ↔ EntersAny rules rule (node.head :: node.tail) := by
  rw [← enters_unhealed_iff]
  unfold Node.head Node.tail Node.headAndTail
  split
  · next same =>
    rw [same]
    exact enters_seq_iff
  · exact entersAny_singleton.symm

theorem nullable_of_isSame {first second : Node} (same : first.isSame second = true)
    (nullable : Nullable rules first) : Nullable rules second := by
  unfold Node.isSame at same
  rcases Bool.or_eq_true_iff.mp same with equal | shape
  · exact beq_iff_eq.mp equal ▸ nullable
  · split at shape
    · cases nullable
    · cases nullable
    · rw [beq_iff_eq.mp shape] at nullable
      exact nullable_ref_iff.mp nullable
    · cases shape

/-- What stands in front of a tail in a run that is merged is the first step of every node in it. -/
private theorem nullable_heads {first : Node} {rest : List Node}
    (chain : (first :: rest).IsChain fun node next => (node.head.isSame next.head : Bool))
    (nullable : Nullable rules first.head) : ∀ node ∈ first :: rest, Nullable rules node.head := by
  induction rest generalizing first with
  | nil => simpa using nullable
  | cons second rest ih =>
    obtain ⟨same, chain⟩ := List.isChain_cons_cons.mp chain
    exact List.forall_mem_cons.mpr ⟨nullable, ih chain (nullable_of_isSame same nullable)⟩

theorem enters_of_mergeRun {stamp : Nat → Stamp} {nodes : List Node}
    (chain : nodes.IsChain fun node next => (node.head.isSame next.head : Bool))
    (enters : Enters rules rule (Node.mergeRun stamp nodes)) :
    ∃ node ∈ nodes, Enters rules rule node := by
  match nodes with
  | [] => exact absurd enters not_enters_empty
  | [only] => exact ⟨only, List.mem_singleton_self _, enters⟩
  | first :: second :: rest =>
    simp only [Node.mergeRun] at enters
    rcases entersAny_of_ofSequence enters with enters | ⟨nullable, enters⟩
    · exact ⟨first, List.mem_cons_self .., enters_iff_head_tail.mpr (.inl enters)⟩
    · obtain ⟨tail, member, enters⟩ :=
        enters_of_ofAlternatives (entersAny_singleton.mp enters)
      obtain ⟨place, inside, rfl⟩ := List.mem_mapIdx.mp member
      have reached := List.getElem_mem inside
      exact ⟨_, reached, enters_iff_head_tail.mpr
        (.inr ⟨nullable_heads chain nullable _ reached, entersAny_of_ofSequence enters⟩)⟩

/-- What dispatch brings about for a choice enters no rule that no alternative enters. -/
theorem enters_of_candidates {grammar : Grammar} {stamp : Stamp} {alternatives : List Node}
    {next? : Option Token.Kind} {node : Node}
    (member : node ∈ grammar.candidates stamp alternatives next?)
    (enters : Enters rules rule node) : ∃ node ∈ alternatives, Enters rules rule node := by
  obtain ⟨stamps, run, -, chain, kept, rfl⟩ := exists_run_of_mem_candidates member
  obtain ⟨node, inRun, enters⟩ := enters_of_mergeRun chain enters
  exact ⟨node, kept.subset inRun, enters⟩

/-! ## The rank of a node -/

/-- The rules that a node may enter before it takes a word. -/
noncomputable def entered (rules : Rules) (node : Node) : Finset String := by
  classical
  exact (rules.bodies.map Prod.fst).toFinset.filter fun rule => Enters rules rule node

/-- Their number. -/
noncomputable def rank (rules : Rules) (node : Node) : Nat := (entered rules node).card

theorem rank_le (rules : Rules) (node : Node) : rank rules node ≤ rules.bodies.length := by
  classical
  calc (entered rules node).card
      ≤ (rules.bodies.map Prod.fst).toFinset.card := Finset.card_filter_le _ _
    _ ≤ (rules.bodies.map Prod.fst).length := List.toFinset_card_le _
    _ = rules.bodies.length := List.length_map _

/-- A node enters at least as many rules as one that enters no others. -/
theorem rank_mono {node other : Node}
    (enters : ∀ rule, Enters rules rule node → Enters rules rule other) :
    rank rules node ≤ rank rules other := by
  classical
  apply Finset.card_le_card
  exact Finset.monotone_filter_right _ fun rule _ => enters rule

theorem RunsFirst.rank_le {node child : Node} (runs : RunsFirst rules node child) :
    rank rules child ≤ rank rules node :=
  rank_mono fun _ => .first runs

/-- Behind a rule that is not left-recursive there are fewer rules to enter. -/
theorem rank_body_lt (stamp : Stamp) {body : Node} (free : rules.LeftRecursionFree)
    (lookup : rules.body? rule = some body) :
    rank rules body < rank rules (.ref stamp rule) := by
  classical
  apply Finset.card_lt_card
  refine Finset.ssubset_iff_of_subset ?_ |>.mpr ⟨rule, ?_, ?_⟩
  · exact Finset.monotone_filter_right _ fun rule _ => .first (.body lookup)
  · have named : rule ∈ rules.bodies.map Prod.fst :=
      List.mem_map_of_mem (Rules.mem_bodies lookup)
    exact Finset.mem_filter.mpr ⟨List.mem_toFinset.mpr named, .here⟩
  · intro member
    exact free rule body lookup (Finset.mem_filter.mp member).2

end

/-! ## Deciding it -/

mutual

/-- Whether a node may match without taking a word, if of the rules only those listed may. -/
def Node.mayMatchNothing (listed : List String) : Node → Bool
  | .token .. | .text .. => false
  | .empty _ | .ahead .. | .relax .. | .relaxTo .. => true
  | .seq _ items => Node.mayAllMatchNothing listed items
  | .choice _ alternatives isOptional => isOptional || Node.mayOneMatchNothing listed alternatives
  | .oneOrMore _ child | .heal _ child | .symbolic _ _ child => child.mayMatchNothing listed
  | .fold _ _ start _ | .cont _ _ start _ => start.mayMatchNothing listed
  | .ref _ rule => listed.contains rule

/-- Whether all of the nodes may. -/
def Node.mayAllMatchNothing (listed : List String) : List Node → Bool
  | [] => true
  | node :: rest => node.mayMatchNothing listed && Node.mayAllMatchNothing listed rest

/-- Whether one of the nodes may. -/
def Node.mayOneMatchNothing (listed : List String) : List Node → Bool
  | [] => false
  | node :: rest => node.mayMatchNothing listed || Node.mayOneMatchNothing listed rest

end

mutual

/-- The rules named where a node may start. -/
def Node.rulesFirst (listed : List String) : Node → List String
  | .token .. | .text .. | .empty _ => []
  | .seq _ items => Node.rulesFirstInOrder listed items
  | .choice _ alternatives _ => Node.rulesFirstOfAll listed alternatives
  | .oneOrMore _ child | .heal _ child | .ahead _ child | .symbolic _ _ child
  | .relax _ child _ => child.rulesFirst listed
  | .fold _ _ start next | .cont _ _ start next =>
    start.rulesFirst listed ++
      if start.mayMatchNothing listed then next.rulesFirst listed else []
  | .ref _ rule => [rule]
  | .relaxTo _ child recovery _ => child.rulesFirst listed ++ recovery.rulesFirst listed

/-- The same for nodes one behind the other. -/
def Node.rulesFirstInOrder (listed : List String) : List Node → List String
  | [] => []
  | node :: rest => node.rulesFirst listed ++
      if node.mayMatchNothing listed then Node.rulesFirstInOrder listed rest else []

/-- The same for nodes of which any may run. -/
def Node.rulesFirstOfAll (listed : List String) : List Node → List String
  | [] => []
  | node :: rest => node.rulesFirst listed ++ Node.rulesFirstOfAll listed rest

end

/-- Whether the listed rules are all that may match nothing, and every rule starts only with rules
in front of it in an order. -/
def Rules.isInOrder (rules : Rules) (listed order : List String) : Bool :=
  rules.bodies.all fun (rule, body) =>
    (!body.mayMatchNothing listed || listed.contains rule) &&
      (body.rulesFirst listed).all fun first => order.idxOf first < order.idxOf rule

section

variable {rules : Rules} {rule : String} {listed order : List String}

theorem mayAllMatchNothing_eq (nodes : List Node) :
    Node.mayAllMatchNothing listed nodes = nodes.all (Node.mayMatchNothing listed) := by
  induction nodes with
  | nil => rfl
  | cons node rest ih => rw [Node.mayAllMatchNothing, List.all_cons, ih]

theorem mayOneMatchNothing_eq (nodes : List Node) :
    Node.mayOneMatchNothing listed nodes = nodes.any (Node.mayMatchNothing listed) := by
  induction nodes with
  | nil => rfl
  | cons node rest ih => rw [Node.mayOneMatchNothing, List.any_cons, ih]

theorem rulesFirstOfAll_eq (nodes : List Node) :
    Node.rulesFirstOfAll listed nodes = nodes.flatMap (Node.rulesFirst listed) := by
  induction nodes with
  | nil => rfl
  | cons node rest ih => rw [Node.rulesFirstOfAll, List.flatMap_cons, ih]

theorem mem_rulesFirstInOrder {before after : List Node} {item : Node}
    (passes : ∀ node ∈ before, node.mayMatchNothing listed = true)
    (named : rule ∈ item.rulesFirst listed) :
    rule ∈ Node.rulesFirstInOrder listed (before ++ item :: after) := by
  induction before with
  | nil => exact List.mem_append_left _ named
  | cons node before ih =>
    obtain ⟨first, others⟩ := List.forall_mem_cons.mp passes
    rw [List.cons_append, Node.rulesFirstInOrder, if_pos first]
    exact List.mem_append_right _ (ih others)

variable (inOrder : rules.isInOrder listed order = true)

include inOrder

theorem Rules.isInOrder_body {body : Node} (lookup : rules.body? rule = some body) :
    (body.mayMatchNothing listed = true → listed.contains rule = true) ∧
      ∀ first ∈ body.rulesFirst listed, order.idxOf first < order.idxOf rule := by
  have checked := List.all_eq_true.mp inOrder _ (Rules.mem_bodies lookup)
  simpa [Bool.or_eq_true, or_iff_not_imp_left] using checked

theorem mayMatchNothing_of_nullable {node : Node} (nullable : Nullable rules node) :
    node.mayMatchNothing listed = true := by
  induction nullable with
  | empty | ahead | relax | relaxTo => rfl
  | seq _ each =>
    rw [Node.mayMatchNothing, mayAllMatchNothing_eq]
    exact List.all_eq_true.mpr each
  | alternative member _ ih =>
    rw [Node.mayMatchNothing, mayOneMatchNothing_eq, List.any_eq_true.mpr ⟨_, member, ih⟩]
    exact Bool.or_true _
  | omitted => rfl
  | oneOrMore _ ih | heal _ ih | symbolic _ ih | fold _ ih | cont _ ih => exact ih
  | ref lookup _ ih => exact (Rules.isInOrder_body inOrder lookup).1 ih

/-- Every rule that is entered is one of those named first, or in front of one in the order. -/
theorem rulesFirst_of_enters {node : Node} (enters : Enters rules rule node) :
    ∃ first ∈ node.rulesFirst listed, order.idxOf rule ≤ order.idxOf first := by
  induction enters with
  | here => exact ⟨rule, List.mem_singleton_self _, Nat.le_refl _⟩
  | first runs _ ih =>
    obtain ⟨first, named, behind⟩ := ih
    have passes : ∀ {node}, Nullable rules node → node.mayMatchNothing listed = true :=
      mayMatchNothing_of_nullable inOrder
    cases runs with
    | item nullable =>
      exact ⟨first, mem_rulesFirstInOrder (fun node member => passes (nullable node member)) named,
        behind⟩
    | alternative member =>
      refine ⟨first, ?_, behind⟩
      rw [Node.rulesFirst, rulesFirstOfAll_eq]
      exact List.mem_flatMap_of_mem member named
    | oneOrMore | heal | ahead | symbolic | relax => exact ⟨first, named, behind⟩
    | start | init | relaxTo => exact ⟨first, List.mem_append_left _ named, behind⟩
    | next nullable | rest nullable =>
      refine ⟨first, ?_, behind⟩
      rw [Node.rulesFirst, if_pos (passes nullable)]
      exact List.mem_append_right _ named
    | body lookup =>
      have earlier := (Rules.isInOrder_body inOrder lookup).2 first named
      exact ⟨_, List.mem_singleton_self _, behind.trans (Nat.le_of_lt earlier)⟩
    | recovery => exact ⟨first, List.mem_append_right _ named, behind⟩

/-- Rules in order are not left-recursive. -/
theorem Rules.leftRecursionFree_of_isInOrder : rules.LeftRecursionFree := by
  intro rule body lookup enters
  obtain ⟨first, named, behind⟩ := rulesFirst_of_enters inOrder enters
  have earlier := (Rules.isInOrder_body inOrder lookup).2 first named
  omega

end

end Offside.Grammar
