import Offside.Proofs.Run.Dispatch

/-! # Constructed nodes run as their parts

What a constructed sequence, choice or healed node does is told without looking at the node that was
made: the parts are run in turn up to the first that fails, or attempted in turn up to the first
that matches, or attempted alone. These rules know nothing of what construction splices, drops or
takes apart, nor of dispatch. An attempt that fails leaves the state it began in.

Runs and rules agree on the answer and on the trail, which holds the cursor, the log and the nodes
opened in front of it. The furthest refusal is not part of that: a failed attempt leaves it behind.
-/

namespace Offside.Grammar

open Parse

section

variable (grammar : Grammar) (words : Array Word) (naive : Bool)

/-- With enough fuel, the run of a node ends with an answer in a state. -/
def EndsIn (node : Node) (state : State) (matched : Bool) (after : State) : Prop :=
  ∃ fuel, grammar.runNode words naive fuel node state = some (matched, after)

/-- A node is run, and everything is undone if it fails. -/
inductive Attempted (node : Node) (state : State) : Bool → State → Prop
  | kept {after : State} (ran : grammar.EndsIn words naive node state true after) :
    Attempted node state true after
  | undone {lost : State} (ran : grammar.EndsIn words naive node state false lost) :
    Attempted node state false state

/-- Nodes are attempted one after the other up to the first that matches. -/
inductive AttemptedInTurn : List Node → State → Bool → State → Prop
  | none {state : State} : AttemptedInTurn [] state false state
  | found {node : Node} {rest : List Node} {state after : State}
    (first : Attempted grammar words naive node state true after) :
    AttemptedInTurn (node :: rest) state true after
  /-- One fails, and the others have their turn. -/
  | next {node : Node} {rest : List Node} {state behind after : State} {matched : Bool}
    (first : Attempted grammar words naive node state false behind)
    (others : AttemptedInTurn rest behind matched after) :
    AttemptedInTurn (node :: rest) state matched after

/-- Nodes are run one behind the other up to the first that fails. -/
inductive RunInTurn : List Node → State → Bool → State → Prop
  | all {state : State} : RunInTurn [] state true state
  /-- One fails, and what was done so far stays. -/
  | stopped {node : Node} {rest : List Node} {state after : State}
    (first : grammar.EndsIn words naive node state false after) :
    RunInTurn (node :: rest) state false after
  | next {node : Node} {rest : List Node} {state behind after : State} {matched : Bool}
    (first : grammar.EndsIn words naive node state true behind)
    (others : RunInTurn rest behind matched after) : RunInTurn (node :: rest) state matched after

end

/-- Ends with an answer on a trail. -/
def LeadsTo (ends : Bool → State → Prop) (matched : Bool) (trail : Trail) : Prop :=
  ∃ after, ends matched after ∧ after.trail = trail

section

variable {grammar : Grammar} {words : Array Word} {naive : Bool} {state : State} {matched : Bool}
  {trail : Trail}

/-! ## Effects as ends of runs -/

theorem leadsTo_endsIn_iff {node : Node} :
    LeadsTo (grammar.EndsIn words naive node state) matched trail ↔
      grammar.effect words naive node state.trail = some (matched, trail) := by
  rw [← map_seen_meaning, Option.map_eq_some_iff]
  constructor
  · rintro ⟨after, ends, rfl⟩
    exact ⟨(matched, after), meaning_eq_some_iff.mpr ends, rfl⟩
  · rintro ⟨⟨answer, after⟩, ended, same⟩
    obtain ⟨rfl, rfl⟩ := Prod.mk.inj same
    exact ⟨after, meaning_eq_some_iff.mp ended, rfl⟩

theorem leadsTo_attempted_iff {node : Node} :
    LeadsTo (Attempted grammar words naive node state) matched trail ↔
      (grammar.effect words naive node).attempt state.trail = some (matched, trail) := by
  unfold Effect.attempt
  constructor
  · rintro ⟨after, attempted, rfl⟩
    cases attempted with
    | kept ran => rw [leadsTo_endsIn_iff.mp ⟨after, ran, rfl⟩]; rfl
    | @undone lost ran => rw [leadsTo_endsIn_iff.mp ⟨lost, ran, rfl⟩]; rfl
  · intro ended
    obtain ⟨⟨answer, behind⟩, ran, same⟩ := Option.map_eq_some_iff.mp ended
    obtain ⟨after, ends, rfl⟩ := leadsTo_endsIn_iff.mpr ran
    cases answer with
    | true =>
      obtain ⟨rfl, rfl⟩ := Prod.mk.inj same
      exact ⟨after, .kept ends, rfl⟩
    | false =>
      obtain ⟨rfl, rfl⟩ := Prod.mk.inj same
      exact ⟨state, .undone ends, rfl⟩

theorem leadsTo_attemptedInTurn_iff {nodes : List Node} :
    LeadsTo (AttemptedInTurn grammar words naive nodes state) matched trail ↔
      Effect.firstOf (nodes.map (grammar.effect words naive)) state.trail =
        some (matched, trail) := by
  induction nodes generalizing state with
  | nil =>
    constructor
    · rintro ⟨after, attempted, rfl⟩
      cases attempted
      rfl
    · intro ended
      obtain ⟨rfl, rfl⟩ := Prod.mk.inj (Option.some.inj ended)
      exact ⟨state, .none, rfl⟩
  | cons node rest ih =>
    rw [List.map_cons, Effect.firstOf_cons, Effect.orElse]
    constructor
    · rintro ⟨after, attempted, rfl⟩
      cases attempted with
      | found first => rw [leadsTo_attempted_iff.mp ⟨after, first, rfl⟩]; rfl
      | @next _ _ _ behind _ _ first others =>
        rw [leadsTo_attempted_iff.mp ⟨behind, first, rfl⟩]
        exact ih.mp ⟨after, others, rfl⟩
    · intro ended
      obtain ⟨⟨answer, reached⟩, ran, ended⟩ := Option.bind_eq_some_iff.mp ended
      obtain ⟨behind, first, rfl⟩ := leadsTo_attempted_iff.mpr ran
      cases answer with
      | true =>
        obtain ⟨rfl, rfl⟩ := Prod.mk.inj (Option.some.inj ended)
        exact ⟨behind, .found first, rfl⟩
      | false =>
        obtain ⟨after, others, rfl⟩ := ih.mpr ended
        exact ⟨after, .next first others, rfl⟩

theorem leadsTo_runInTurn_iff {nodes : List Node} :
    LeadsTo (RunInTurn grammar words naive nodes state) matched trail ↔
      Effect.all (nodes.map (grammar.effect words naive)) state.trail = some (matched, trail) := by
  induction nodes generalizing state with
  | nil =>
    constructor
    · rintro ⟨after, ran, rfl⟩
      cases ran
      rfl
    · intro ended
      obtain ⟨rfl, rfl⟩ := Prod.mk.inj (Option.some.inj ended)
      exact ⟨state, .all, rfl⟩
  | cons node rest ih =>
    rw [List.map_cons, Effect.all_cons, Effect.andThen]
    constructor
    · rintro ⟨after, ran, rfl⟩
      cases ran with
      | stopped first => rw [leadsTo_endsIn_iff.mp ⟨after, first, rfl⟩]; rfl
      | @next _ _ _ behind _ _ first others =>
        rw [leadsTo_endsIn_iff.mp ⟨behind, first, rfl⟩]
        exact ih.mp ⟨after, others, rfl⟩
    · intro ended
      obtain ⟨⟨answer, reached⟩, ran, ended⟩ := Option.bind_eq_some_iff.mp ended
      obtain ⟨behind, first, rfl⟩ := leadsTo_endsIn_iff.mpr ran
      cases answer with
      | true =>
        obtain ⟨after, others, rfl⟩ := ih.mpr ended
        exact ⟨after, .next first others, rfl⟩
      | false =>
        obtain ⟨rfl, rfl⟩ := Prod.mk.inj (Option.some.inj ended)
        exact ⟨behind, .stopped first, rfl⟩

/-! ## The effects of constructed nodes -/

variable (grammar words naive) in
theorem effect_ofAlternatives (stamp : Stamp) (alternatives : List Node) :
    grammar.effect words naive (.ofAlternatives stamp alternatives) =
      Effect.firstOf (alternatives.map (grammar.effect words naive)) := by
  have inOrder := choicesInOrder grammar words naive (Node.weightOf alternatives + 1)
  by_cases none : alternatives = []
  · -- No alternatives make a choice without any, which is not in reach of the general law.
    subst none
    exact (inOrder stamp [] false trivial (Nat.lt_succ_self _)).trans (Effect.orNothing_false _)
  · refine (lawful_effect grammar words naive).denote_ofAlternatives inOrder stamp none
      (fun _ _ => trivial) (fun alternative member => ?_)
      (Nat.lt_succ_of_le (Node.weightOf_flattenAlternatives_le alternatives))
    exact Nat.lt_succ_of_le ((Node.weightOf_flattenAlternatives_singleton_le alternative).trans
      (Node.weight_le_weightOf member))

end

/-- From any state and in either mode, a constructed choice ends as its alternatives do when each is
attempted in turn, a constructed sequence ends as its items do when each is run in turn, what was
done before a failure included, and a healed node ends as an attempt of the node does. None of these
ends unless the other does. -/
theorem constructed_runs_as_parts (grammar : Grammar) (words : Array Word) (naive : Bool)
    (stamp : Stamp) (state : State) (matched : Bool) (trail : Trail) :
    (∀ alternatives : List Node,
        LeadsTo (grammar.EndsIn words naive (.ofAlternatives stamp alternatives) state)
            matched trail ↔
          LeadsTo (AttemptedInTurn grammar words naive alternatives state) matched trail) ∧
      (∀ items : List Node,
        LeadsTo (grammar.EndsIn words naive (.ofSequence stamp items) state) matched trail ↔
          LeadsTo (RunInTurn grammar words naive items state) matched trail) ∧
      ∀ node : Node,
        LeadsTo (grammar.EndsIn words naive (node.healed stamp) state) matched trail ↔
          LeadsTo (Attempted grammar words naive node state) matched trail := by
  have lawful := lawful_effect grammar words naive
  refine ⟨fun alternatives => ?_, fun items => ?_, fun node => ?_⟩
  · rw [leadsTo_endsIn_iff, leadsTo_attemptedInTurn_iff, effect_ofAlternatives]
  · rw [leadsTo_endsIn_iff, leadsTo_runInTurn_iff,
      lawful.denote_ofSequence stamp fun _ _ => trivial]
  · rw [leadsTo_endsIn_iff, leadsTo_attempted_iff, lawful.healed stamp trivial]

end Offside.Grammar
