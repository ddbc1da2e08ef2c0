import Mathlib.Data.List.SplitBy
import Offside.Proofs.Grammar.Weight
import Offside.Proofs.Run.NormalForm

/-! # Dispatch is ordered choice

A choice tries its alternatives in order. Dispatch leaves those out that the next word rules out,
which would have failed anyway, and merges neighbours that start with the same node, which would
have run it again. Neither changes what the choice does.

The merged alternatives hold choices of their own, which are dispatched in turn. They are lighter
than the choice they come from, so choices are attempts in order by induction on their weight. The
two ways to run a grammar then simulate each other, choice by choice.
-/

namespace Offside.Grammar

open Parse
open Token (Kind KindSet)

section

variable {grammar : Grammar} {inside : Node → Prop} {denote : Node → Effect}

/-! ## Alternatives ruled out by the next word -/

theorem map_fst_selected (alternatives : List Node) (next? : Option Kind) :
    (grammar.selected alternatives next?).map Prod.fst =
      alternatives.filter fun node => mayStart (grammar.prediction node) next? := by
  conv_rhs => rw [← List.zipIdx_map_fst 0 alternatives, List.filter_map]
  rfl

/-- If those left out would fail, leaving alternatives out that the next word rules out cannot be
seen. -/
theorem firstOf_filter_mayStart {alternatives : List Node} {words : Array Word} {trail : Trail}
    (fails : ∀ node ∈ alternatives,
      mayStart (grammar.prediction node) (kindAt words trail) = false →
        (denote node).attempt trail = some (false, trail)) :
    Effect.firstOf ((alternatives.filter fun node =>
        mayStart (grammar.prediction node) (kindAt words trail)).map denote) trail =
      Effect.firstOf (alternatives.map denote) trail := by
  induction alternatives with
  | nil => rfl
  | cons node rest ih =>
    obtain ⟨failsFirst, failsRest⟩ := List.forall_mem_cons.mp fails
    rw [List.map_cons, Effect.firstOf_cons]
    cases starts : mayStart (grammar.prediction node) (kindAt words trail) with
    | true =>
      rw [List.filter_cons_of_pos (by simp only [starts]), List.map_cons, Effect.firstOf_cons]
      -- The second attempt may begin elsewhere only if the first matched and it is not made.
      unfold Effect.orElse
      cases ended : (denote node).attempt trail using answer_cases with
      | none | matched => rfl
      | failed after =>
        obtain ⟨_, -, back⟩ := Option.map_eq_some_iff.mp ended
        obtain ⟨failed, rfl⟩ := Prod.mk.injEq .. ▸ back
        simpa [failed] using ih failsRest
    | false =>
      rw [List.filter_cons_of_neg (by simp [starts]), ih failsRest, Effect.orElse,
        failsFirst starts]
      rfl

/-! ## Neighbours that start with the same node -/

/-- What is the same of interchangeable nodes is the same of the first steps of neighbours that are
merged. -/
theorem heads_alike {α : Type} {f : Node → α}
    (same : ∀ {first second : Node}, first.isSame second = true → f first = f second)
    {first : Node} {rest : List Node}
    (chain : (first :: rest).IsChain fun node next => (node.head.isSame next.head : Bool)) :
    ∀ node ∈ first :: rest, f node.head = f first.head := by
  induction rest generalizing first with
  | nil => simp
  | cons second rest ih =>
    obtain ⟨alike, chain⟩ := List.isChain_cons_cons.mp chain
    refine List.forall_mem_cons.mpr ⟨rfl, fun node member => ?_⟩
    rw [same alike]
    exact ih chain node member

namespace Lawful

variable (lawful : Lawful inside denote)

include lawful

/-- Attempting a node is attempting its first step and what follows. -/
theorem attempt_head_tail {node : Node} (within : inside node) :
    (denote node).attempt =
      ((denote node.head).andThen (Effect.all (node.tail.map denote))).attempt := by
  have unhealed := lawful.unhealed within
  rw [← lawful.attempt_unhealed within]
  unfold Node.head Node.tail Node.headAndTail
  split
  · next same =>
    rw [same] at unhealed ⊢
    rw [lawful.all unhealed, List.map_cons, Effect.all_cons]
  · next same => exact congrArg Effect.attempt (Effect.andThen_succeed _).symm

private theorem map_denote_tails (stamp : Nat → Stamp) {nodes : List Node}
    (within : ∀ node ∈ nodes, inside node) :
    (nodes.mapIdx fun place node => Node.ofSequence (stamp place) node.tail).map denote =
      nodes.map fun node => Effect.all (node.tail.map denote) := by
  induction nodes generalizing stamp with
  | nil => rfl
  | cons node rest ih =>
    obtain ⟨first, others⟩ := List.forall_mem_cons.mp within
    rw [List.mapIdx_cons, List.map_cons, List.map_cons,
      lawful.denote_ofSequence _ (lawful.headAndTail first).2]
    exact congrArg _ (ih (fun place => stamp (place + 1)) others)

/-- A run of alternatives that start alike, merged, does what they do in order. -/
theorem attempt_mergeRun (stamp : Nat → Stamp) {first : Node} {rest : List Node}
    (within : ∀ node ∈ first :: rest, inside node)
    (inOrder : ChoicesInOrder inside denote (Node.weightOf (first :: rest)))
    (alike : ∀ node ∈ first :: rest, denote node.head = denote first.head) :
    (denote (Node.mergeRun stamp (first :: rest))).attempt =
      Effect.firstOf ((first :: rest).map denote) := by
  cases rest with
  | nil => exact (Effect.firstOf_singleton _).symm
  | cons second rest =>
    have both := lawful.headAndTails (fun place => stamp (place + 2)) (stamp 1) within
    simp only [Node.mergeRun]
    generalize nodes_eq : first :: second :: rest = nodes at within inOrder alike both ⊢
    have some : nodes ≠ [] := nodes_eq ▸ List.cons_ne_nil first (second :: rest)
    have light : ∀ tail ∈ nodes.mapIdx fun place node =>
        Node.ofSequence (stamp (place + 2)) node.tail,
        Node.weightOf (Node.flattenAlternatives [tail]).1 < Node.weightOf nodes := by
      intro tail member
      obtain ⟨place, there, rfl⟩ := List.mem_mapIdx.mp member
      exact lt_of_lt_of_le (Node.weightOf_flattenAlternatives_tail_lt _ _)
        (Node.weight_le_weightOf (List.getElem_mem there))
    have together :=
      Node.weightOf_flattenAlternatives_tails_le (fun place => stamp (place + 2)) nodes
    have tails := lawful.tails (fun place => stamp (place + 2)) within
    have someTails : nodes.mapIdx (fun place node =>
        Node.ofSequence (stamp (place + 2)) node.tail) ≠ [] := by simpa using some
    have merged := lawful.denote_ofAlternatives inOrder (stamp 1) someTails tails light
      (lt_of_lt_of_le (Nat.lt_add_of_pos_right (List.length_pos_iff.mpr some)) together)
    rw [lawful.map_denote_tails (fun place => stamp (place + 2)) within] at merged
    rw [lawful.denote_ofSequence _ both, List.map_cons, List.map_singleton, Effect.all_cons,
      Effect.all_singleton, merged, ← Effect.firstOf_map_andThen _ (by simpa using some),
      List.map_map]
    refine Effect.firstOf_map_congr fun node member => ?_
    rw [lawful.attempt_head_tail (within node member), alike node member]
    rfl

/-- Merging every run of a list of alternatives cannot be seen. -/
private theorem firstOf_mergeRuns (stamp : Nat → Nat → Stamp) {runs : List (List Node)}
    (within : ∀ node ∈ runs.flatten, inside node)
    (inOrder : ChoicesInOrder inside denote (Node.weightOf runs.flatten))
    (filled : ∀ nodes ∈ runs, nodes ≠ [])
    (chains : ∀ nodes ∈ runs,
      nodes.IsChain fun node next => (node.head.isSame next.head : Bool)) :
    Effect.firstOf ((runs.mapIdx fun run => Node.mergeRun (stamp run)).map denote) =
      Effect.firstOf (runs.flatten.map denote) := by
  induction runs generalizing stamp with
  | nil => rfl
  | cons nodes runs ih =>
    obtain ⟨filledFirst, filledRest⟩ := List.forall_mem_cons.mp filled
    obtain ⟨chain, chainsRest⟩ := List.forall_mem_cons.mp chains
    obtain ⟨first, rest, rfl⟩ := List.exists_cons_of_ne_nil filledFirst
    rw [List.flatten_cons] at within
    obtain ⟨own, others⟩ := List.forall_mem_append.mp within
    rw [List.flatten_cons, Node.weightOf_append] at inOrder
    rw [List.mapIdx_cons, List.map_cons, Effect.firstOf_cons,
      lawful.attempt_mergeRun (stamp 0) own (inOrder.mono (Nat.le_add_right ..))
        (heads_alike lawful.same chain),
      ih (fun run => stamp (run + 1)) others (inOrder.mono (Nat.le_add_left ..)) filledRest
        chainsRest,
      List.flatten_cons, List.map_append, Effect.firstOf_append]

theorem firstOf_mergeNeighbours (stamp : Nat → Nat → Stamp) {alternatives : List Node}
    (within : ∀ alternative ∈ alternatives, inside alternative)
    (inOrder : ChoicesInOrder inside denote (Node.weightOf alternatives)) :
    Effect.firstOf ((Node.mergeNeighbours stamp alternatives).map denote) =
      Effect.firstOf (alternatives.map denote) := by
  have whole := List.flatten_splitBy
    (fun first second : Node => first.head.isSame second.head) alternatives
  rw [Node.mergeNeighbours, lawful.firstOf_mergeRuns stamp (by rwa [whole]) (by rwa [whole])
    (fun _ => List.ne_nil_of_mem_splitBy) (fun _ => List.isChain_of_mem_splitBy), whole]

/-- The candidates of a choice do what the alternatives do that the next word does not rule out. -/
theorem firstOf_candidates (grammar : Grammar) (stamp : Stamp) {alternatives : List Node}
    (within : ∀ alternative ∈ alternatives, inside alternative)
    (inOrder : ChoicesInOrder inside denote (Node.weightOf alternatives)) (next? : Option Kind) :
    Effect.firstOf ((grammar.candidates stamp alternatives next?).map denote) =
      Effect.firstOf ((alternatives.filter fun node =>
        mayStart (grammar.prediction node) next?).map denote) := by
  unfold candidates
  rw [lawful.firstOf_mergeNeighbours] <;> rw [map_fst_selected]
  · exact fun alternative member => within alternative (List.mem_of_mem_filter member)
  · exact inOrder.mono (Node.weightOf_le_of_sublist List.filter_sublist)

end Lawful

end

/-! ## Choices in order -/

section

variable {grammar : Grammar} {words : Array Word} {naive : Bool}

theorem attempt_of_fails {node : Node} {trail : Trail}
    (fails : Fails (grammar.meaning words naive) node (State.start.follow trail)) :
    (grammar.effect words naive node).attempt trail = some (false, trail) := by
  obtain ⟨after, ran, -⟩ := fails
  simp [Effect.attempt, effect, ran, seen]

/-- With or without dispatch, a choice tries its alternatives in order, if lighter choices do. -/
theorem firstOf_tried {alternatives : List Node}
    (inOrder : ChoicesInOrder (fun _ => True) (grammar.effect words naive)
      (Node.weightOf alternatives)) (flag : Bool) (stamp : Stamp) (trail : Trail) :
    Effect.firstOf ((grammar.tried flag stamp alternatives (kindAt words trail)).map
        (grammar.effect words naive)) trail =
      Effect.firstOf (alternatives.map (grammar.effect words naive)) trail := by
  cases flag with
  | true => rfl
  | false =>
    have lawful := lawful_effect grammar words naive
    have merged := lawful.firstOf_candidates grammar stamp (fun _ _ => trivial) inOrder
      (kindAt words trail)
    change Effect.firstOf ((grammar.candidates stamp alternatives _).map _) trail = _
    rw [merged]
    refine firstOf_filter_mayStart fun node _ ruledOut => attempt_of_fails (fails_of_not_starts ?_)
    rwa [starts, currentKind?_eq_kindAt, State.trail_follow]

variable (grammar words naive) in
theorem choicesInOrder (bound : Nat) :
    ChoicesInOrder (fun _ => True) (grammar.effect words naive) bound := by
  induction bound with
  | zero => exact fun _ _ _ _ light => absurd light (Nat.not_lt_zero _)
  | succ bound ih =>
    intro stamp alternatives isOptional _ light
    funext trail
    rw [effect_choice, Effect.orNothing, Effect.orElse,
      firstOf_tried (ih.mono (Nat.le_of_lt_succ light))]
    rfl

variable (grammar words naive) in
/-- In a run, too, the way choices are made cannot be seen. -/
theorem map_seen_runChoice_flag (flag : Bool) (stamp : Stamp) (alternatives : List Node)
    (isOptional : Bool) (state : State) :
    (grammar.runChoice words (grammar.meaning words naive) flag stamp alternatives isOptional
        state).map seen =
      (Effect.firstOf (alternatives.map (grammar.effect words naive))).orNothing isOptional
        state.trail := by
  rw [map_seen_runChoice, Effect.orNothing, Effect.orElse,
    firstOf_tried (choicesInOrder grammar words naive _)]
  rfl

/-- What a run comes to with choices made one way, it comes to with choices made the other way. -/
theorem runNode_simulates_meaning (flag other : Bool) (fuel : Nat) :
    Simulates SameTrail SameTrail (grammar.runNode words flag fuel)
      (grammar.meaning words other) := by
  induction fuel with
  | zero => exact fun _ _ _ _ => .none _
  | succ fuel ih =>
    have alike := sameTrail_alike words
    rw [show grammar.meaning words other = grammar.step words (grammar.meaning words other) other
      from funext fun node => funext fun state => (step_meaning node state).symm]
    refine alike.step_all ih fun stamp alternatives isOptional state state' same => ?_
    have inOrder := fun flag =>
      map_seen_runChoice_flag grammar words other flag stamp alternatives isOptional state'
    have dispatched : Within (SameAnswer SameTrail SameTrail)
        (grammar.runChoice words _ flag stamp alternatives isOptional state)
        (grammar.runChoice words _ flag stamp alternatives isOptional state') :=
      alike.runChoice isOptional (fun _ node _ => ih node) same fun _ _ _ => same
    intro answer ended
    obtain ⟨middle, ran, first⟩ := dispatched answer ended
    obtain ⟨last, ran, second⟩ :=
      within_of_map_seen_eq ((inOrder flag).trans (inOrder other).symm) middle ran
    exact ⟨last, ran, same_of_seen_eq ((seen_eq_of_same first).trans (seen_eq_of_same second))⟩

end

/-! ## What can be seen of a run -/

/-- With enough fuel, the run of a node ends with an answer, a number of words taken, and a log. -/
def ComesTo (grammar : Grammar) (words : Array Word) (naive : Bool) (node : Node) (state : State)
    (matched : Bool) (position : Nat) (log : List Event) : Prop :=
  ∃ fuel after, grammar.runNode words naive fuel node state = some (matched, after) ∧
    after.position = position ∧ after.log = log

/-- From any state, a run in which choices are dispatched and one in which they try all their
alternatives in order both end in the same way, or neither ends. -/
theorem comesTo_dispatched_iff_naive (grammar : Grammar) (words : Array Word) (node : Node)
    (state : State) (matched : Bool) (position : Nat) (log : List Event) :
    grammar.ComesTo words false node state matched position log ↔
      grammar.ComesTo words true node state matched position log := by
  have carry : ∀ flag other, grammar.ComesTo words flag node state matched position log →
      grammar.ComesTo words other node state matched position log := by
    rintro flag other ⟨fuel, after, ran, rfl, rfl⟩
    obtain ⟨⟨matched', after'⟩, ended, same⟩ :=
      runNode_simulates_meaning flag other fuel node state state rfl _ ran
    obtain ⟨otherFuel, otherRan⟩ := meaning_eq_some_iff.mp ended
    obtain ⟨rfl, trails⟩ := Prod.mk.inj (seen_eq_of_same same)
    exact ⟨otherFuel, after', otherRan, (congrArg Trail.position trails).symm,
      (State.log_eq_of_trail trails).symm⟩
  exact ⟨carry false true, carry true false⟩

end Offside.Grammar
