import Offside.Proofs.Grammar.Closed
import Offside.Proofs.Run.Effect

/-! # Normal forms mean what they stand for

Splicing sequences into sequences and choices into choices, dropping what matches nothing and what
comes behind it, and not healing what undoes its own failures: none of this can be seen in the
effect. Nothing more is used of what nodes denote than a few laws about sequences, healed nodes and
failures that are undone, which may hold for some of the nodes only. For choices it takes that they
attempt their alternatives in order. How far that is known is a bound on their weight, so that it
can be found out by induction.
-/

namespace Offside.Grammar

open Parse
open Token (Kind)

/-- An effect whose failures leave nothing behind is its own attempt. -/
theorem Effect.attempt_eq_self {effect : Effect}
    (restores : ∀ trail after, effect trail = some (false, after) → after = trail) :
    effect.attempt = effect := by
  funext trail
  unfold Effect.attempt
  cases ended : effect trail using answer_cases with
  | none | matched => rfl
  | failed after => simp [restores trail after ended]

/-! ## Laws -/

/-- What such nodes denote follows the algebra of effects. -/
structure Lawful (inside : Node → Prop) (denote : Node → Effect) : Prop extends Closed inside where
  succeed (stamp : Stamp) : denote (.empty stamp) = Effect.succeed
  /-- A sequence is its items one behind the other. -/
  all {stamp : Stamp} {items : List Node} : inside (.seq stamp items) →
    denote (.seq stamp items) = Effect.all (items.map denote)
  attempt {stamp : Stamp} {child : Node} : inside child →
    denote (.heal stamp child) = (denote child).attempt
  /-- A node that undoes its failures leaves nothing of them. -/
  restores {node : Node} : inside node → node.undoesFailure = true →
    ∀ trail after, denote node trail = some (false, after) → after = trail
  /-- Nodes that are interchangeable as a first step denote the same. -/
  same {first second : Node} : first.isSame second = true → denote first = denote second

/-- Choices below a weight attempt their alternatives in order. -/
def ChoicesInOrder (inside : Node → Prop) (denote : Node → Effect) (bound : Nat) : Prop :=
  ∀ stamp alternatives isOptional, inside (.choice stamp alternatives isOptional) →
    Node.weightOf alternatives < bound →
    denote (.choice stamp alternatives isOptional) =
      (Effect.firstOf (alternatives.map denote)).orNothing isOptional

section

variable {inside : Node → Prop} {denote : Node → Effect}

theorem ChoicesInOrder.mono {bound smaller : Nat} (inOrder : ChoicesInOrder inside denote bound)
    (le : smaller ≤ bound) : ChoicesInOrder inside denote smaller :=
  fun stamp alternatives isOptional within light =>
    inOrder stamp alternatives isOptional within (Nat.lt_of_lt_of_le light le)

namespace Lawful

variable (lawful : Lawful inside denote)

include lawful

/-- A node that undoes its own failures is its own attempt. -/
theorem attempt_of_undoesFailure {node : Node} (within : inside node)
    (undoes : node.undoesFailure = true) : (denote node).attempt = denote node :=
  Effect.attempt_eq_self (lawful.restores within undoes)

/-- Healing a node attempts it. -/
theorem healed (stamp : Stamp) {node : Node} (within : inside node) :
    denote (node.healed stamp) = (denote node).attempt := by
  unfold Node.healed
  split
  · next undoes => exact (lawful.attempt_of_undoesFailure within undoes).symm
  · exact lawful.attempt within

/-- Attempting a node makes healing it superfluous. -/
theorem attempt_unhealed {node : Node} (within : inside node) :
    (denote node.unhealed).attempt = (denote node).attempt := by
  unfold Node.unhealed
  split
  · rw [lawful.attempt (lawful.heal.mp within), Effect.attempt_attempt]
  · rfl

theorem all_sequenceItems {node : Node} (within : inside node) :
    Effect.all (node.sequenceItems.map denote) = denote node := by
  unfold Node.sequenceItems
  split
  · exact (lawful.all within).symm
  · rw [lawful.succeed]
    rfl
  · exact Effect.all_singleton _

theorem all_flatMap_sequenceItems {items : List Node} (within : ∀ item ∈ items, inside item) :
    Effect.all ((items.flatMap Node.sequenceItems).map denote) = Effect.all (items.map denote) := by
  induction items with
  | nil => rfl
  | cons item rest ih =>
    obtain ⟨first, others⟩ := List.forall_mem_cons.mp within
    rw [List.flatMap_cons, List.map_append, Effect.all_append, ih others,
      lawful.all_sequenceItems first, List.map_cons, Effect.all_cons]

/-- A sequence in normal form is its items one behind the other. -/
theorem denote_ofSequence (stamp : Stamp) {items : List Node}
    (within : ∀ item ∈ items, inside item) :
    denote (.ofSequence stamp items) = Effect.all (items.map denote) := by
  rw [← lawful.all_flatMap_sequenceItems within]
  unfold Node.ofSequence
  split
  · next none => rw [none, lawful.succeed]; rfl
  · next only one => rw [one]; exact (Effect.all_singleton _).symm
  · exact lawful.all (lawful.seq.mpr (lawful.flatMap_sequenceItems within))

/-- Splicing choices into alternatives keeps what the alternatives do together. -/
theorem firstOf_flattenAlternatives {bound : Nat} (inOrder : ChoicesInOrder inside denote bound)
    {alternatives : List Node} (within : ∀ alternative ∈ alternatives, inside alternative)
    (light : ∀ alternative ∈ alternatives,
      Node.weightOf (Node.flattenAlternatives [alternative]).1 < bound) :
    Effect.firstOf (alternatives.map denote) =
      (Effect.firstOf ((Node.flattenAlternatives alternatives).1.map denote)).orNothing
        (Node.flattenAlternatives alternatives).2 := by
  induction alternatives with
  | nil => exact (Effect.orNothing_false _).symm
  | cons alternative rest ih =>
    obtain ⟨own, others⟩ := List.forall_mem_cons.mp within
    have lightFirst := light alternative (List.mem_cons_self ..)
    have onward := ih others fun other member => light other (List.mem_cons_of_mem _ member)
    have begins := lawful.attempt_unhealed own
    have nestedInside := lawful.unhealed own
    rw [List.map_cons, Effect.firstOf_cons]
    rw [Node.flattenAlternatives] at lightFirst ⊢
    cases same : alternative.unhealed with
    | choice stamp nested isOptional =>
      rw [same] at nestedInside
      cases isOptional with
      | true =>
        simp only [same] at lightFirst
        rw [← begins, same, inOrder stamp nested true nestedInside lightFirst,
          Effect.attempt_orNothing_firstOf, Effect.orNothing_true_orElse]
      | false =>
        simp only [same, Node.flattenAlternatives, List.append_nil] at lightFirst
        rw [← begins, same, inOrder stamp nested false nestedInside lightFirst,
          Effect.attempt_orNothing_firstOf, Effect.orNothing_false, onward]
        simp only [List.map_append, Effect.firstOf_append, Effect.orNothing, Effect.orElse_assoc]
    | empty stamp =>
      rw [← begins, same, lawful.succeed]
      rfl
    | _ =>
      rw [onward]
      simp only [List.map_cons, Effect.firstOf_cons, Effect.orNothing, Effect.orElse_assoc]

/-- A choice in normal form attempts the alternatives it was made of in order. -/
theorem denote_ofAlternatives {bound : Nat} (inOrder : ChoicesInOrder inside denote bound)
    (stamp : Stamp) {alternatives : List Node} (some : alternatives ≠ [])
    (within : ∀ alternative ∈ alternatives, inside alternative)
    (light : ∀ alternative ∈ alternatives,
      Node.weightOf (Node.flattenAlternatives [alternative]).1 < bound)
    (lightAll : Node.weightOf (Node.flattenAlternatives alternatives).1 < bound) :
    denote (.ofAlternatives stamp alternatives) = Effect.firstOf (alternatives.map denote) := by
  have made := lawful.toClosed.ofAlternatives stamp some within
  rw [lawful.firstOf_flattenAlternatives inOrder within light]
  revert made
  unfold Node.ofAlternatives
  split
  · next nothing =>
    rw [nothing, lawful.succeed]
    exact fun _ => rfl
  · next only one =>
    intro made
    rw [one, lawful.healed stamp ((lawful.healed_iff stamp).mp made), Effect.orNothing_false]
    exact (Effect.firstOf_singleton _).symm
  · next same =>
    intro made
    rw [same] at lightAll ⊢
    exact inOrder stamp _ _ made lightAll

end Lawful

end

/-! ## The effects of nodes are lawful -/

section

variable {grammar : Grammar} {words : Array Word} {naive : Bool}

/-- Nodes that are interchangeable as a first step run alike. -/
theorem meaning_eq_of_isSame {first second : Node} (same : first.isSame second = true) :
    grammar.meaning words naive first = grammar.meaning words naive second := by
  unfold Node.isSame at same
  rcases Bool.or_eq_true_iff.mp same with equal | shape
  · rw [beq_iff_eq.mp equal]
  · funext state
    rw [← step_meaning, ← step_meaning]
    split at shape
    · rw [beq_iff_eq.mp shape]
      rfl
    · obtain ⟨kind, spelling⟩ := Bool.and_eq_true_iff.mp shape
      rw [beq_iff_eq.mp kind, beq_iff_eq.mp spelling]
      rfl
    · rw [beq_iff_eq.mp shape, step_ref, step_ref]
    · cases shape

theorem effect_token (stamp : Stamp) (kind : Kind) (trail : Trail) :
    grammar.effect words naive (.token stamp kind) trail =
      some (seen ((State.start.follow trail).eat words kind)) := by
  rw [map_seen_step]
  rfl

theorem effect_text (stamp : Stamp) (kind : Kind) (spelling : String) (trail : Trail) :
    grammar.effect words naive (.text stamp kind spelling) trail =
      some (seen ((State.start.follow trail).eatText words kind spelling)) := by
  rw [map_seen_step]
  rfl

private theorem effect_ahead_restores (stamp : Stamp) (child : Node) {trail after : Trail}
    (ended : grammar.effect words naive (.ahead stamp child) trail = some (false, after)) :
    after = trail := by
  rw [map_seen_step] at ended
  obtain ⟨answer, ran, same⟩ := Option.map_eq_some_iff.mp ended
  obtain ⟨inner, ranChild, rfl⟩ := Option.map_eq_some_iff.mp ran
  have back := rollback_meaning ranChild
  rw [State.trail_follow] at back
  simp only [seen, State.trail_rollback, Prod.mk.injEq] at same
  exact same.2.symm.trans back

private theorem effect_relax_matches (stamp : Stamp) (child : Node) (message : String)
    {trail after : Trail} :
    grammar.effect words naive (.relax stamp child message) trail ≠ some (false, after) := by
  intro ended
  rw [map_seen_step] at ended
  obtain ⟨answer, ran, same⟩ := Option.map_eq_some_iff.mp ended
  obtain ⟨⟨matched, inner⟩, -, rfl⟩ := Option.map_eq_some_iff.mp ran
  simp [seen] at same

private theorem effect_relaxTo_matches (stamp : Stamp) (child recovery : Node) (message : String)
    {trail after : Trail} :
    grammar.effect words naive (.relaxTo stamp child recovery message) trail ≠
      some (false, after) := by
  intro ended
  rw [map_seen_step, step_relaxTo] at ended
  obtain ⟨answer, ran, same⟩ := Option.map_eq_some_iff.mp ended
  obtain ⟨first, -, ran⟩ := Option.bind_eq_some_iff.mp ran
  split at ran
  · next matched =>
    cases ran
    simp [seen, matched] at same
  · obtain ⟨skipped, -, rfl⟩ := Option.map_eq_some_iff.mp ran
    simp [seen] at same

/-- A node that undoes its own failures leaves nothing of them. -/
theorem trail_of_undoesFailure {node : Node} (undoes : node.undoesFailure = true)
    {trail after : Trail} (ended : grammar.effect words naive node trail = some (false, after)) :
    after = trail := by
  cases node with
  | token stamp kind =>
    rw [effect_token] at ended
    unfold State.eat at ended
    split at ended
    · cases ended
    · simpa [seen] using (congrArg (Option.map Prod.snd) ended).symm
  | text stamp kind spelling =>
    rw [effect_text] at ended
    unfold State.eatText at ended
    split at ended
    · cases ended
    · simpa [seen] using (congrArg (Option.map Prod.snd) ended).symm
  | empty stamp =>
    rw [effect_empty] at ended
    cases ended
  | heal stamp child =>
    rw [effect_heal] at ended
    obtain ⟨answer, -, same⟩ := Option.map_eq_some_iff.mp ended
    simp only [Prod.mk.injEq] at same
    simpa [same.1] using same.2.symm
  | choice stamp alternatives isOptional =>
    rw [effect_choice] at ended
    obtain ⟨⟨matched, middle⟩, ran, ended⟩ := Option.bind_eq_some_iff.mp ended
    cases matched with
    | true => cases ended
    | false =>
      rw [← Effect.trail_of_firstOf ran]
      simpa using (congrArg (Option.map Prod.snd) ended).symm
  | ahead stamp child => exact effect_ahead_restores stamp child ended
  | relax stamp child message => exact absurd ended (effect_relax_matches stamp child message)
  | relaxTo stamp child recovery message =>
    exact absurd ended (effect_relaxTo_matches stamp child recovery message)
  | seq | oneOrMore | symbolic | fold | cont | ref => cases undoes

variable (grammar words naive) in
/-- The laws hold for the effects of all nodes. -/
theorem lawful_effect : Lawful (fun _ => True) (grammar.effect words naive) where
  toClosed := closed_true
  succeed := effect_empty
  all _ := effect_seq _ _
  attempt _ := effect_heal _ _
  restores _ undoes _ _ := trail_of_undoesFailure undoes
  same same := by
    unfold effect
    rw [meaning_eq_of_isSame same]

end

end Offside.Grammar
