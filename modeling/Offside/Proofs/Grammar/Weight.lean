import Mathlib.Data.List.SplitBy
import Offside.Proofs.Grammar.FirstSets

/-! # Weights of merged alternatives

What is left of an alternative behind its first step is lighter than the alternative, even when its
own alternatives are spliced into those of its neighbours. The choices that merging brings about
are therefore lighter than the choice they come from, and induction on weights reaches all of them.
-/

namespace Offside.Grammar

namespace Node

@[simp] theorem weightOf_nil : weightOf [] = 0 := rfl

@[simp] theorem weightOf_cons (node : Node) (rest : List Node) :
    weightOf (node :: rest) = node.weight + weightOf rest := rfl

@[simp] theorem weight_seq (stamp : Stamp) (items : List Node) :
    (seq stamp items).weight = max 3 (weightOf items + 2) := rfl

@[simp] theorem weight_choice (stamp : Stamp) (alternatives : List Node) (isOptional : Bool) :
    (choice stamp alternatives isOptional).weight = max 3 (weightOf alternatives + 1) := rfl

theorem weight_unhealed_le (node : Node) : node.unhealed.weight ≤ node.weight := by
  cases node with
  | heal _ child => exact Nat.le_succ _
  | _ => exact Nat.le_refl _

/-- No node is lighter than a token. -/
theorem three_le_weight (node : Node) : 3 ≤ node.weight := by
  induction node using childInduction with
  | step node ih =>
    cases node with
    | token | text | empty | ref => exact Nat.le_refl _
    | seq | choice => exact Nat.le_max_left ..
    | oneOrMore _ child | heal _ child | ahead _ child | symbolic _ _ child | relax _ child _ =>
      exact Nat.le_succ_of_le (ih child (List.mem_singleton_self _))
    | fold _ _ first _ | cont _ _ first _ | relaxTo _ first _ _ =>
      exact Nat.le_succ_of_le (Nat.le_add_right_of_le (ih first (List.mem_cons_self ..)))

theorem weight_pos (node : Node) : 0 < node.weight :=
  Nat.lt_of_lt_of_le (by decide) node.three_le_weight

theorem weightOf_append (nodes more : List Node) :
    weightOf (nodes ++ more) = weightOf nodes + weightOf more := by
  induction nodes with
  | nil => simp
  | cons node rest ih => simp only [List.cons_append, weightOf_cons, ih, Nat.add_assoc]

theorem length_le_weightOf (nodes : List Node) : nodes.length ≤ weightOf nodes := by
  induction nodes with
  | nil => exact Nat.zero_le _
  | cons node rest ih =>
    have heavy := weight_pos node
    rw [List.length_cons, weightOf_cons]
    omega

theorem weight_le_weightOf {node : Node} {nodes : List Node} (member : node ∈ nodes) :
    node.weight ≤ weightOf nodes := by
  obtain ⟨before, after, rfl⟩ := List.append_of_mem member
  rw [weightOf_append, weightOf_cons]
  omega

/-- Parts are lighter than the node they belong to. -/
theorem weight_lt_of_mem_children {node child : Node} (member : child ∈ node.children) :
    child.weight < node.weight := by
  cases node with
  | token | text | empty | ref => cases member
  | seq _ items | choice _ items _ =>
    have light : child.weight ≤ weightOf items := weight_le_weightOf member
    exact Nat.lt_of_lt_of_le (by omega) (Nat.le_max_right ..)
  | oneOrMore | heal | ahead | symbolic | relax =>
    obtain rfl := List.mem_singleton.mp member
    exact Nat.lt_succ_self _
  | fold | cont | relaxTo =>
    simp only [children, List.mem_cons, List.not_mem_nil, or_false] at member
    rcases member with rfl | rfl
    · exact Nat.lt_succ_of_le (Nat.le_add_right ..)
    · exact Nat.lt_succ_of_le (Nat.le_add_left ..)

theorem weightOf_sequenceItems_le (node : Node) : weightOf node.sequenceItems ≤ node.weight := by
  cases node with
  | seq _ items => exact (Nat.le_add_right _ 2).trans (Nat.le_max_right ..)
  | empty => exact Nat.zero_le _
  | _ => exact Nat.le_refl _

theorem weightOf_flatMap_sequenceItems_le (items : List Node) :
    weightOf (items.flatMap sequenceItems) ≤ weightOf items := by
  induction items with
  | nil => simp
  | cons item rest ih =>
    rw [List.flatMap_cons, weightOf_append, weightOf_cons]
    exact Nat.add_le_add (weightOf_sequenceItems_le item) ih

/-- Splicing its alternatives in makes a node no heavier. -/
theorem weightOf_flattenAlternatives_singleton_le (node : Node) :
    weightOf (flattenAlternatives [node]).1 ≤ node.weight := by
  have alone (alternatives : List Node) :
      weightOf alternatives ≤ max 3 (weightOf alternatives + 1) := by omega
  have spliced (alternatives : List Node) :
      weightOf (alternatives ++ []) ≤ max 3 (weightOf alternatives + 1) := by
    rw [List.append_nil]
    exact alone alternatives
  cases node with
  | heal _ child =>
    cases child with
    | choice _ alternatives isOptional =>
      cases isOptional with
      | true => exact Nat.le_succ_of_le (alone alternatives)
      | false => exact Nat.le_succ_of_le (spliced alternatives)
    | empty => exact Nat.zero_le _
    | _ => exact Nat.le_refl _
  | choice _ alternatives isOptional =>
    cases isOptional with
    | true => exact alone alternatives
    | false => exact spliced alternatives
  | empty => exact Nat.zero_le _
  | _ => exact Nat.le_refl _

theorem weightOf_flattenAlternatives_cons_le (node : Node) (rest : List Node) :
    weightOf (flattenAlternatives (node :: rest)).1 ≤
      weightOf (flattenAlternatives [node]).1 + weightOf (flattenAlternatives rest).1 := by
  simp only [flattenAlternatives]
  split <;> simp [weightOf_append]

/-- Splicing choices into alternatives makes them no heavier. -/
theorem weightOf_flattenAlternatives_le (alternatives : List Node) :
    weightOf (flattenAlternatives alternatives).1 ≤ weightOf alternatives := by
  induction alternatives with
  | nil => exact Nat.le_refl _
  | cons node rest ih =>
    have first := weightOf_flattenAlternatives_singleton_le node
    have split := weightOf_flattenAlternatives_cons_le node rest
    rw [weightOf_cons]
    omega

theorem weightOf_flattenAlternatives_ofSequence_le (stamp : Stamp) (items : List Node) :
    weightOf (flattenAlternatives [ofSequence stamp items]).1 ≤ weightOf items + 2 := by
  have light := weightOf_flatMap_sequenceItems_le items
  unfold ofSequence
  split
  · exact Nat.zero_le _
  · next only one =>
    have own := weightOf_flattenAlternatives_singleton_le only
    rw [one, weightOf_cons] at light
    omega
  · next filled _ =>
    have own := weightOf_flattenAlternatives_singleton_le (seq stamp (items.flatMap sequenceItems))
    have heavy := length_le_weightOf (items.flatMap sequenceItems)
    have some := List.length_pos_iff.mpr filled
    rw [weight_seq] at own
    omega

/-- What follows the first step of a node weighs as much less than the node as that step weighs. -/
theorem weightOf_flattenAlternatives_tail_le (stamp : Stamp) (node : Node) :
    weightOf (flattenAlternatives [ofSequence stamp node.tail]).1 + node.head.weight ≤
      node.weight := by
  have unhealedLight := node.weight_unhealed_le
  unfold tail head headAndTail
  split
  · next first rest same =>
    have light := weightOf_flattenAlternatives_ofSequence_le stamp rest
    rw [same, weight_seq, weightOf_cons] at unhealedLight
    dsimp only
    omega
  · exact Nat.le_trans (Nat.le_of_eq (Nat.zero_add _)) unhealedLight

theorem weightOf_flattenAlternatives_tail_lt (stamp : Stamp) (node : Node) :
    weightOf (flattenAlternatives [ofSequence stamp node.tail]).1 < node.weight := by
  have light := weightOf_flattenAlternatives_tail_le stamp node
  have heavy := weight_pos node.head
  omega

/-- Together, the first steps of several nodes and what follows them weigh at most as the nodes. -/
theorem weightOf_flattenAlternatives_tails_add_heads_le (stamp : Nat → Stamp) (nodes : List Node) :
    weightOf (flattenAlternatives
        (nodes.mapIdx fun place node => ofSequence (stamp place) node.tail)).1 +
      weightOf (nodes.map head) ≤ weightOf nodes := by
  induction nodes generalizing stamp with
  | nil => exact Nat.le_refl _
  | cons node rest ih =>
    have together := weightOf_flattenAlternatives_cons_le (ofSequence (stamp 0) node.tail)
      (rest.mapIdx fun place node => ofSequence (stamp (place + 1)) node.tail)
    have own := weightOf_flattenAlternatives_tail_le (stamp 0) node
    have others := ih fun place => stamp (place + 1)
    rw [List.mapIdx_cons, List.map_cons, weightOf_cons, weightOf_cons]
    omega

theorem weightOf_flattenAlternatives_tails_le (stamp : Nat → Stamp) (nodes : List Node) :
    weightOf (flattenAlternatives
        (nodes.mapIdx fun place node => ofSequence (stamp place) node.tail)).1 + nodes.length ≤
      weightOf nodes := by
  have light := weightOf_flattenAlternatives_tails_add_heads_le stamp nodes
  have heavy := length_le_weightOf (nodes.map head)
  rw [List.length_map] at heavy
  omega

/-! ## What dispatch brings about -/

theorem weight_ofSequence_le (stamp : Stamp) (items : List Node) :
    (ofSequence stamp items).weight ≤ max 3 (weightOf (items.flatMap sequenceItems) + 2) := by
  unfold ofSequence
  split
  · exact Nat.le_max_left ..
  · next only one =>
    rw [one, weightOf_cons, weightOf_nil]
    omega
  · exact Nat.le_of_eq rfl

theorem weight_ofAlternatives_le (stamp : Stamp) (alternatives : List Node) :
    (ofAlternatives stamp alternatives).weight ≤
      max 3 (weightOf (flattenAlternatives alternatives).1 + 1) := by
  unfold ofAlternatives
  split
  · exact Nat.le_max_left ..
  · next only one =>
    have light : (only.healed stamp).weight ≤ only.weight + 1 := by
      unfold healed
      split
      · exact Nat.le_succ _
      · exact Nat.le_of_eq rfl
    rw [one, weightOf_cons, weightOf_nil]
    omega
  · next same =>
    rw [same]
    exact Nat.le_of_eq rfl

/-- The first step of a node that has more steps. -/
theorem weight_head_le {node : Node} (more : node.tail ≠ []) :
    node.head.weight + 5 ≤ node.weight := by
  have unhealedLight := node.weight_unhealed_le
  unfold tail head headAndTail at *
  split at more
  · next first rest same =>
    obtain ⟨second, rest, rfl⟩ := List.exists_cons_of_ne_nil more
    have heavy := three_le_weight second
    rw [same, weight_seq, weightOf_cons, weightOf_cons] at unhealedLight
    dsimp only
    omega
  · exact absurd rfl more

theorem weight_mergeRun_le (stamp : Nat → Stamp) {nodes : List Node} (filled : nodes ≠ []) :
    (mergeRun stamp nodes).weight ≤ weightOf nodes := by
  match nodes with
  | [] => exact absurd rfl filled
  | [only] => exact Nat.le_add_right _ _
  | first :: second :: rest =>
    have tails := weightOf_flattenAlternatives_tails_add_heads_le (fun place => stamp (place + 2))
      (first :: second :: rest)
    have heavy := three_le_weight second.head
    simp only [List.map_cons, weightOf_cons] at tails
    simp only [mergeRun]
    by_cases short : first.tail = []
    · -- The first tail matches nothing, and merging leaves the first step alone.
      have nothing : ofAlternatives (stamp 1) (List.mapIdx (fun place alternative =>
          ofSequence (stamp (place + 2)) alternative.tail) (first :: second :: rest)) =
            empty (stamp 1) := by
        simp [ofAlternatives, flattenAlternatives, ofSequence, unhealed, short]
      have whole := weight_ofSequence_le (stamp 0) [first.head, empty (stamp 1)]
      have step := weightOf_sequenceItems_le first.head
      have none : (empty (stamp 1)).sequenceItems = [] := rfl
      simp only [List.flatMap_cons, List.flatMap_nil, List.append_nil, none] at whole
      rw [nothing]
      simp only [weightOf_cons]
      omega
    · have choice := weight_ofAlternatives_le (stamp 1) (List.mapIdx (fun place alternative =>
        ofSequence (stamp (place + 2)) alternative.tail) (first :: second :: rest))
      generalize List.mapIdx _ (first :: second :: rest) = spliced at tails choice ⊢
      have whole := weight_ofSequence_le (stamp 0) [first.head, ofAlternatives (stamp 1) spliced]
      have steps := weightOf_flatMap_sequenceItems_le
        [first.head, ofAlternatives (stamp 1) spliced]
      have longer := weight_head_le short
      simp only [weightOf_cons, weightOf_nil] at steps ⊢
      omega

end Node

/-- The nodes that dispatch tries for a choice are runs of its alternatives that start alike, merged
run by run. -/
theorem exists_run_of_mem_candidates {grammar : Grammar} {stamp : Stamp}
    {alternatives : List Node} {next? : Option Token.Kind} {node : Node}
    (member : node ∈ grammar.candidates stamp alternatives next?) :
    ∃ stamps nodes, nodes ≠ [] ∧
      nodes.IsChain (fun node next => (node.head.isSame next.head : Bool)) ∧
      nodes.Sublist alternatives ∧ node = Node.mergeRun stamps nodes := by
  obtain ⟨run, inside, rfl⟩ := List.mem_mapIdx.mp member
  have isRun := List.getElem_mem inside
  refine ⟨_, _, List.ne_nil_of_mem_splitBy isRun, List.isChain_of_mem_splitBy isRun, ?_, rfl⟩
  have inOrder := List.sublist_flatten_of_mem isRun
  rw [List.flatten_splitBy] at inOrder
  have kept : ((grammar.selected alternatives next?).map Prod.fst).Sublist
      (alternatives.zipIdx.map Prod.fst) := List.filter_sublist.map _
  rw [List.zipIdx_map_fst] at kept
  exact inOrder.trans kept

theorem Node.weightOf_le_of_sublist {nodes more : List Node} (sublist : nodes.Sublist more) :
    Node.weightOf nodes ≤ Node.weightOf more := by
  induction sublist with
  | slnil => exact Nat.le_refl _
  | cons node _ ih | cons_cons node _ ih =>
    rw [weightOf_cons]
    try rw [weightOf_cons]
    omega

/-- What dispatch brings about for a choice is lighter than the choice. -/
theorem weight_le_of_mem_candidates {grammar : Grammar} {stamp : Stamp}
    {alternatives : List Node} {next? : Option Token.Kind} {node : Node}
    (member : node ∈ grammar.candidates stamp alternatives next?) :
    node.weight ≤ Node.weightOf alternatives := by
  obtain ⟨stamps, nodes, filled, -, kept, rfl⟩ := exists_run_of_mem_candidates member
  exact (Node.weight_mergeRun_le stamps filled).trans (Node.weightOf_le_of_sublist kept)

/-- Of some things, fewer are such if one is that was not. -/
theorem countP_lt_countP {α : Type} {few many : α → Bool} {all : List α} {one : α}
    (fewer : ∀ other ∈ all, few other = true → many other = true) (member : one ∈ all)
    (gone : few one = false) (here : many one = true) : all.countP few < all.countP many := by
  obtain ⟨before, behind, rfl⟩ := List.append_of_mem member
  have early := List.countP_mono_left fun other inside =>
    fewer other (List.mem_append_left _ inside)
  have late := List.countP_mono_left fun other inside =>
    fewer other (List.mem_append_right _ (List.mem_cons_of_mem _ inside))
  rw [List.countP_append, List.countP_append, List.countP_cons_of_pos here,
    List.countP_cons_of_neg (by simp [gone])]
  omega

/-! ## The heaviest node -/

namespace Rules

/-- The weight of the heaviest among a root and the bodies of all rules. -/
def heaviest (rules : Rules) (root : Node) : Nat :=
  (rules.bodies.map fun (_, body) => body.weight).foldl max root.weight

private theorem le_foldl_max (sizes : List Nat) (least : Nat) :
    least ≤ sizes.foldl max least ∧ ∀ size ∈ sizes, size ≤ sizes.foldl max least := by
  induction sizes generalizing least with
  | nil => exact ⟨Nat.le_refl _, by simp⟩
  | cons size rest ih =>
    obtain ⟨bounds, each⟩ := ih (max least size)
    rw [List.foldl_cons]
    exact ⟨(Nat.le_max_left ..).trans bounds,
      List.forall_mem_cons.mpr ⟨(Nat.le_max_right ..).trans bounds, each⟩⟩

theorem weight_le_heaviest (rules : Rules) (root : Node) : root.weight ≤ rules.heaviest root :=
  (le_foldl_max _ _).1

theorem weight_body_le_heaviest {rules : Rules} {rule : String} {body : Node} (root : Node)
    (member : (rule, body) ∈ rules.bodies) : body.weight ≤ rules.heaviest root :=
  (le_foldl_max _ _).2 _ (List.mem_map_of_mem member)

end Rules

end Offside.Grammar
