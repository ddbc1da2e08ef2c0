import Offside.Proofs.Token.KindSet
import Offside.Grammar.Dispatch

/-! # First sets grow

What is known about the first tokens of rules only grows from round to round, and what is known
stays as it is. So whatever a round found is what the grammar predicts in the end.
-/

namespace Offside.Grammar

open Token (Kind KindSet)

mutual

/-- What holds of a node when it holds of the nodes right below holds of every node. -/
theorem Node.childInduction {motive : Node → Prop}
    (step : ∀ node : Node, (∀ child ∈ node.children, motive child) → motive node) :
    ∀ node : Node, motive node
  | .token .. | .text .. | .empty _ | .ref .. => step _ (by simp [children])
  | .seq _ items => step _ (Node.childInductionAll step items)
  | .choice _ alternatives _ => step _ (Node.childInductionAll step alternatives)
  | .oneOrMore _ child | .heal _ child | .ahead _ child | .symbolic _ _ child
  | .relax _ child _ => step _ (by
      have below := Node.childInduction step child
      simpa only [children, List.mem_singleton, forall_eq] using below)
  | .fold _ _ start next => step _ (by
      have first := Node.childInduction step start
      have second := Node.childInduction step next
      simpa only [children, List.mem_cons, List.not_mem_nil, or_false, forall_eq_or_imp, forall_eq]
        using And.intro first second)
  | .cont _ _ start rest => step _ (by
      have first := Node.childInduction step start
      have second := Node.childInduction step rest
      simpa only [children, List.mem_cons, List.not_mem_nil, or_false, forall_eq_or_imp, forall_eq]
        using And.intro first second)
  | .relaxTo _ child recovery _ => step _ (by
      have first := Node.childInduction step child
      have second := Node.childInduction step recovery
      simpa only [children, List.mem_cons, List.not_mem_nil, or_false, forall_eq_or_imp, forall_eq]
        using And.intro first second)

/-- The same for all nodes of a list. -/
theorem Node.childInductionAll {motive : Node → Prop}
    (step : ∀ node : Node, (∀ child ∈ node.children, motive child) → motive node) :
    ∀ nodes : List Node, ∀ node ∈ nodes, motive node
  | [] => by simp
  | first :: rest => by
    have own := Node.childInduction step first
    have others := Node.childInductionAll step rest
    intro node member
    rcases List.mem_cons.mp member with rfl | later
    · exact own
    · exact others node later

end

/-- All that is known about rules on the left is known on the right. -/
def FirstSets.Le (known more : FirstSets) : Prop :=
  ∀ rule kinds, known.of rule = some kinds → more.of rule = some kinds

theorem FirstSets.Le.refl (known : FirstSets) : known.Le known := fun _ _ found => found

theorem FirstSets.Le.trans {first second third : FirstSets} (left : first.Le second)
    (right : second.Le third) : first.Le third :=
  fun rule kinds found => right rule kinds (left rule kinds found)

theorem Node.firstOfAll_cons_eq_some {known : FirstSets} {node : Node} {rest : List Node}
    {kinds : KindSet} : Node.firstOfAll known (node :: rest) = some kinds ↔
      ∃ own others, node.first known = some own ∧ Node.firstOfAll known rest = some others ∧
        own.union others = kinds := by
  rw [Node.firstOfAll]
  simp only [bind, Option.bind_eq_some_iff, Option.some.injEq]
  constructor
  · rintro ⟨own, found, others, foundRest, rfl⟩
    exact ⟨own, others, found, foundRest, rfl⟩
  · rintro ⟨own, others, found, foundRest, rfl⟩
    exact ⟨own, found, others, foundRest, rfl⟩

/-- If first sets of all alternatives are known, each is part of what is known for the choice. -/
theorem Node.first_of_firstOfAll {known : FirstSets} {nodes : List Node} {kinds : KindSet}
    (found : Node.firstOfAll known nodes = some kinds) :
    ∀ node ∈ nodes, ∃ own, node.first known = some own ∧
      ∀ kind, own.contains kind = true → kinds.contains kind = true := by
  induction nodes generalizing kinds with
  | nil => simp
  | cons first rest ih =>
    obtain ⟨own, others, foundOwn, foundRest, rfl⟩ := Node.firstOfAll_cons_eq_some.mp found
    intro node member
    rcases List.mem_cons.mp member with rfl | later
    · exact ⟨own, foundOwn, fun kind inside => by simp [inside]⟩
    · obtain ⟨part, foundPart, included⟩ := ih foundRest node later
      exact ⟨part, foundPart, fun kind inside => by simp [included kind inside]⟩

theorem Node.firstOfAll_mono {known more : FirstSets} {nodes : List Node}
    (each : ∀ node ∈ nodes, ∀ kinds, node.first known = some kinds → node.first more = some kinds)
    {kinds : KindSet} (found : Node.firstOfAll known nodes = some kinds) :
    Node.firstOfAll more nodes = some kinds := by
  induction nodes generalizing kinds with
  | nil => exact found
  | cons first rest ih =>
    obtain ⟨own, others, foundOwn, foundRest, rfl⟩ := Node.firstOfAll_cons_eq_some.mp found
    have later := ih (fun node member => each node (List.mem_cons_of_mem _ member)) foundRest
    exact Node.firstOfAll_cons_eq_some.mpr
      ⟨own, others, each first (List.mem_cons_self ..) own foundOwn, later, rfl⟩

/-- More knowledge about rules changes nothing about nodes whose first set is known. -/
theorem Node.first_mono {known more : FirstSets} (le : known.Le more) (node : Node) :
    ∀ kinds, node.first known = some kinds → node.first more = some kinds := by
  induction node using Node.childInduction with
  | step node ih =>
    intro kinds found
    cases node with
    | token | text => exact found
    | empty | relax | relaxTo => cases found
    | seq _ items =>
      cases items with
      | nil => cases found
      | cons item rest => exact ih item (List.mem_cons_self ..) kinds found
    | choice _ alternatives isOptional =>
      cases isOptional with
      | true => cases found
      | false =>
        exact Node.firstOfAll_mono ih found
    | oneOrMore _ child | heal _ child | ahead _ child | symbolic _ _ child =>
      exact ih child (List.mem_singleton_self _) kinds found
    | fold _ _ start _ | cont _ _ start _ => exact ih start (List.mem_cons_self ..) kinds found
    | ref _ rule => exact le rule kinds found

namespace Rules

/-- One more look finds the first set of a rule in its body. -/
theorem of_lookThrough (rules : Rules) (known : FirstSets) (rule : String) :
    (rules.lookThrough known).of rule = (rules.body? rule).bind (Node.first known) := by
  have found : (rules.lookThrough known).lookup rule =
      (rules.body? rule).map (Node.first known) := by
    unfold lookThrough body?
    induction rules.bodies with
    | nil => rfl
    | cons definition rest ih =>
      obtain ⟨name, body⟩ := definition
      simp only [List.map_cons, List.lookup_cons]
      split
      · rfl
      · exact ih
  unfold FirstSets.of
  rw [found]
  cases rules.body? rule <;> rfl

theorem lookThrough_mono (rules : Rules) {known more : FirstSets} (le : known.Le more) :
    (rules.lookThrough known).Le (rules.lookThrough more) := by
  intro rule kinds found
  rw [of_lookThrough] at found ⊢
  obtain ⟨body, defined, first⟩ := Option.bind_eq_some_iff.mp found
  exact Option.bind_eq_some_iff.mpr ⟨body, defined, Node.first_mono le body kinds first⟩

theorem firstSetsAfter_succ_le (rules : Rules) (rounds : Nat) :
    (rules.firstSetsAfter rounds).Le (rules.firstSetsAfter (rounds + 1)) := by
  induction rounds with
  | zero => intro rule kinds found; cases found
  | succ rounds ih => exact rules.lookThrough_mono ih

/-- Every round knows what the rounds before it knew. -/
theorem firstSetsAfter_le (rules : Rules) {rounds more : Nat} (le : rounds ≤ more) :
    (rules.firstSetsAfter rounds).Le (rules.firstSetsAfter more) := by
  induction le with
  | refl => exact .refl _
  | step _ ih => exact ih.trans (rules.firstSetsAfter_succ_le _)

end Rules

theorem firstSets_eq_after (grammar : Grammar) :
    grammar.firstSets = grammar.rules.firstSetsAfter grammar.rules.bodies.length :=
  grammar.firstSets_eq

/-- What is known for a choice is what some alternative is known to start with. -/
theorem contains_knownFirst_eq (grammar : Grammar) (alternatives : List Node) (kind : Kind) :
    (grammar.knownFirst alternatives).contains kind =
      alternatives.any fun alternative =>
        (grammar.prediction alternative).any (·.contains kind) := by
  have joined : ∀ (nodes : List Node) (set : KindSet),
      (nodes.foldl (fun kinds alternative =>
        kinds.union ((grammar.prediction alternative).getD .empty)) set).contains kind =
      (set.contains kind ||
        nodes.any fun alternative => (grammar.prediction alternative).any (·.contains kind)) := by
    intro nodes
    induction nodes with
    | nil => simp
    | cons node rest ih =>
      intro set
      rw [List.foldl_cons, ih, KindSet.contains_union, List.any_cons, Bool.or_assoc]
      cases grammar.prediction node <;> simp
  simpa [knownFirst] using joined alternatives .empty

/-- What an alternative is known to start with is among what is known for the choice. -/
theorem contains_knownFirst {grammar : Grammar} {alternatives : List Node} {node : Node}
    {kinds : KindSet} {kind : Kind} (member : node ∈ alternatives)
    (predicted : grammar.prediction node = some kinds) (inside : kinds.contains kind = true) :
    (grammar.knownFirst alternatives).contains kind = true := by
  rw [contains_knownFirst_eq]
  exact List.any_eq_true.mpr ⟨node, member, by simp [predicted, inside]⟩

end Offside.Grammar
