import Offside.Proofs.Grammar.FirstSets
import Offside.Proofs.Run.Backtracking
import Offside.Proofs.Run.Simulation

/-! # First sets are sound

A node whose first set is known fails in front of any other token, comes to an end while it does
so, and leaves the trail as it was. So leaving it out there is never a loss, in whatever way choices
are made: neither the check before an attempt nor the selection of alternatives rules out anything
that would have matched.
-/

namespace Offside.Grammar

open Parse
open Token (Kind KindSet)

/-- Nothing is left of what happened but refusals, none of them further on, and no word was
taken. -/
structure InPlace (state after : State) : Prop where
  trail : after.trail = state.trail
  refusals : after.failure.position ≤ max state.failure.position state.position
  bumps : after.bumps = state.bumps

namespace InPlace

variable {state middle after : State}

theorem refl (state : State) : InPlace state state := ⟨rfl, Nat.le_max_left .., rfl⟩

theorem trans (first : InPlace state middle) (second : InPlace middle after) :
    InPlace state after where
  trail := second.trail.trans first.trail
  refusals := by
    have position : middle.position = state.position := congrArg Trail.position first.trail
    have bound := second.refusals
    rw [position] at bound
    exact Nat.le_trans bound (Nat.max_le.mpr ⟨first.refusals, Nat.le_max_right ..⟩)
  bumps := second.bumps.trans first.bumps

theorem expect (state : State) (kinds : KindSet) : InPlace state (state.expect kinds) where
  trail := State.trail_expect state kinds
  refusals := Nat.le_of_eq (failure_expect state kinds)
  bumps := State.bumps_expect state kinds

theorem expectText (state : State) (text : String) : InPlace state (state.expectText text) where
  trail := State.trail_expectText state text
  refusals := Nat.le_of_eq (failure_expectText state text)
  bumps := State.bumps_expectText state text

end InPlace

/-- The run of a node ends in a failure that leaves nothing behind. -/
def Fails (run : Runner) (node : Node) (state : State) : Prop :=
  ∃ after, run node state = some (false, after) ∧ InPlace state after

section

variable {grammar : Grammar} {words : Array Word} {naive : Bool}

/-- Runs go on from the trail they began with, so going back to their beginning restores it. -/
theorem rollback_meaning {node : Node} {state : State} {answer : Bool × State}
    (ended : grammar.meaning words naive node state = some answer) :
    answer.2.trail.rollback state.mark = state.trail :=
  rollback_run (goesOnTo_moves words).meaning ended

/-- Going back to where a run began leaves its refusals. -/
theorem InPlace.rollback {node : Node} {state after : State} {matched : Bool}
    (ended : grammar.meaning words naive node state = some (matched, after))
    (back : InPlace state after) : InPlace state (after.rollback state.mark) where
  trail := (State.trail_rollback ..).trans (rollback_meaning ended)
  refusals := back.refusals
  bumps := back.bumps

theorem Fails.runHealed {node : Node} {state : State}
    (fails : Fails (grammar.meaning words naive) node state) :
    Fails (grammar.runHealed words (grammar.meaning words naive)) node state := by
  obtain ⟨after, ran, back⟩ := fails
  unfold Fails
  rw [runHealed_eq]
  split
  · exact ⟨after.rollback state.mark, by rw [ran]; rfl, .rollback ran back⟩
  · exact ⟨_, rfl, .expect state _⟩

/-- If every alternative fails wherever the others leave off, all of them together do. -/
theorem runAny_fails {nodes : List Node} {state : State}
    (fails : ∀ node ∈ nodes, ∀ behind : State, behind.trail = state.trail →
      Fails (grammar.meaning words naive) node behind) :
    ∃ after, grammar.runAny words (grammar.meaning words naive) nodes state =
      some (false, after) ∧ InPlace state after := by
  induction nodes generalizing state with
  | nil => exact ⟨state, rfl, .refl state⟩
  | cons node rest ih =>
    obtain ⟨behind, ran, back⟩ := (fails node (List.mem_cons_self ..) state rfl).runHealed
    obtain ⟨after, ended, onward⟩ := ih fun other member beyond same =>
      fails other (List.mem_cons_of_mem _ member) beyond (same.trans back.trail)
    refine ⟨after, ?_, back.trans onward⟩
    rw [runAny_cons, ran]
    exact ended

private theorem fails_token {stamp : Stamp} {kind : Kind} {state : State}
    (ruledOut : mayStart (some (.single kind)) (state.currentKind? words) = false) :
    Fails (grammar.meaning words naive) (.token stamp kind) state := by
  have notAt : state.isAt words kind = false := by
    unfold State.isAt
    cases next : state.currentKind? words with
    | none => rfl
    | some other =>
      simp only [next, mayStart, KindSet.contains_single, decide_eq_false_iff_not] at ruledOut
      simpa only [Option.some_beq_some, beq_eq_false_iff_ne] using Ne.symm ruledOut
  refine ⟨state.expect (.single kind), ?_, .expect state _⟩
  rw [← step_meaning]
  change some (state.eat words kind) = _
  simp only [State.eat, notAt, Bool.false_eq_true, ↓reduceIte]

private theorem fails_text {stamp : Stamp} {kind : Kind} {spelling : String} {state : State}
    (ruledOut : mayStart (some (.single kind)) (state.currentKind? words) = false) :
    Fails (grammar.meaning words naive) (.text stamp kind spelling) state := by
  have notAt : ¬state.current? words = some ⟨kind, spelling⟩ := by
    intro at_
    simp [State.currentKind?, at_, mayStart] at ruledOut
  refine ⟨state.expectText spelling, ?_, .expectText state _⟩
  rw [← step_meaning]
  change some (state.eatText words kind spelling) = _
  simp only [State.eatText, notAt, ↓reduceIte]

/-- If the first step fails, so does the sequence. -/
private theorem fails_seq {stamp : Stamp} {item : Node} {rest : List Node} {state : State}
    (fails : Fails (grammar.meaning words naive) item state) :
    Fails (grammar.meaning words naive) (.seq stamp (item :: rest)) state := by
  obtain ⟨after, ran, back⟩ := fails
  refine ⟨after, ?_, back⟩
  rw [← step_meaning]
  change runAll _ _ _ = _
  rw [runAll_cons, ran]
  rfl

private theorem fails_oneOrMore {stamp : Stamp} {child : Node} {state : State}
    (fails : Fails (grammar.meaning words naive) child state) :
    Fails (grammar.meaning words naive) (.oneOrMore stamp child) state := by
  obtain ⟨after, ran, back⟩ := fails
  refine ⟨after, ?_, back⟩
  rw [← step_meaning, step_oneOrMore, ran]
  rfl

private theorem fails_heal {stamp : Stamp} {child : Node} {state : State}
    (fails : Fails (grammar.meaning words naive) child state) :
    Fails (grammar.meaning words naive) (.heal stamp child) state := by
  obtain ⟨after, ended, back⟩ := fails.runHealed
  refine ⟨after, ?_, back⟩
  rw [← step_meaning]
  exact ended

private theorem fails_ref {stamp : Stamp} {rule : String} {body : Node} {state : State}
    (lookup : grammar.rules.body? rule = some body)
    (fails : Fails (grammar.meaning words naive) body state) :
    Fails (grammar.meaning words naive) (.ref stamp rule) state := by
  obtain ⟨after, ended, back⟩ := fails
  refine ⟨after, ?_, back⟩
  rw [← step_meaning, step_ref, lookup]
  exact ended

private theorem fails_ahead {stamp : Stamp} {child : Node} {state : State}
    (fails : Fails (grammar.meaning words naive) child state) :
    Fails (grammar.meaning words naive) (.ahead stamp child) state := by
  obtain ⟨after, ran, back⟩ := fails
  refine ⟨after.rollback state.mark, ?_, .rollback ran back⟩
  rw [← step_meaning]
  change Option.map _ _ = _
  rw [ran]
  rfl

/-- A node around a child that is not run, because the next word is refused before. -/
private theorem fails_symbolic {stamp : Stamp} {kind : Syntax.Kind} {child : Node} {state : State}
    (refuses : grammar.starts words child state = false) :
    Fails (grammar.meaning words naive) (.symbolic stamp kind child) state := by
  refine ⟨grammar.refused child state, ?_, .expect state _⟩
  rw [← step_meaning, step_symbolic, refuses]
  rfl

private theorem fails_fold {stamp : Stamp} {kind : Syntax.Kind} {start next : Node} {state : State}
    (fails : Fails (grammar.meaning words naive) start state) :
    Fails (grammar.meaning words naive) (.fold stamp kind start next) state := by
  obtain ⟨after, ran, back⟩ := fails
  cases decided : grammar.starts words start state with
  | true =>
    refine ⟨after, ?_, back⟩
    rw [← step_meaning, step_fold, decided, ran]
    rfl
  | false =>
    refine ⟨grammar.refused start state, ?_, .expect state _⟩
    rw [← step_meaning, step_fold, decided]
    rfl

private theorem fails_cont {stamp : Stamp} {kind : Syntax.Kind} {start rest : Node} {state : State}
    (fails : Fails (grammar.meaning words naive) start state) :
    Fails (grammar.meaning words naive) (.cont stamp kind start rest) state := by
  obtain ⟨after, ran, back⟩ := fails
  refine ⟨after, ?_, back⟩
  rw [← step_meaning, step_cont, ran]
  rfl

private theorem fails_choice {stamp : Stamp} {alternatives : List Node} {state : State}
    (fails : ∀ node ∈ grammar.tried naive stamp alternatives (state.currentKind? words),
      ∀ behind : State, behind.trail = state.trail →
        Fails (grammar.meaning words naive) node behind) :
    Fails (grammar.meaning words naive) (.choice stamp alternatives false) state := by
  obtain ⟨after, ended, back⟩ := runAny_fails fails
  refine ⟨(grammar.chosen alternatives false (false, after)).2, ?_, ?_⟩
  · rw [← step_meaning]
    change grammar.runChoice words _ _ _ _ _ _ = _
    rw [runChoice_eq, ended]
    rfl
  · simp only [chosen, Bool.false_eq_true, ↓reduceIte]
    split
    · exact back
    · exact back.trans (.expect after _)

/-- A set that rules the next token out still does so when it is larger. -/
theorem mayStart_of_subset {part whole : KindSet} {next? : Option Kind}
    (subset : ∀ kind, part.contains kind = true → whole.contains kind = true)
    (ruledOut : mayStart (some whole) next? = false) : mayStart (some part) next? = false := by
  cases next? with
  | none => rfl
  | some kind =>
    refine Bool.eq_false_iff.mpr fun inside => ?_
    rw [mayStart, subset kind inside] at ruledOut
    cases ruledOut

/-- Alternatives whose first sets rule the next token out are not candidates. -/
theorem candidates_eq_nil {stamp : Stamp} {alternatives : List Node} {next? : Option Kind}
    (ruledOut : ∀ node ∈ alternatives, mayStart (grammar.prediction node) next? = false) :
    grammar.candidates stamp alternatives next? = [] := by
  have none : grammar.selected alternatives next? = [] := by
    refine List.filter_eq_nil_iff.mpr fun entry member => ?_
    have inside := List.fst_mem_of_mem_zipIdx member
    simp only [ruledOut entry.1 inside, Bool.false_eq_true, not_false_eq_true]
  unfold candidates
  rw [none]
  rfl

/-- Alternatives whose first sets rule the next token out are tried in order or not at all. -/
theorem mem_of_mem_tried {stamp : Stamp} {alternatives : List Node} {next? : Option Kind}
    (ruledOut : ∀ node ∈ alternatives, mayStart (grammar.prediction node) next? = false)
    {node : Node} (member : node ∈ grammar.tried naive stamp alternatives next?) :
    node ∈ alternatives := by
  unfold tried at member
  split at member
  · exact member
  · rw [candidates_eq_nil ruledOut] at member
    cases member

/-- What a body fails in front of, by what is known about the rules it uses, a node does too. -/
private theorem fails_of_first {known : FirstSets} (le : known.Le grammar.firstSets)
    (rules : ∀ rule kinds, known.of rule = some kinds →
      ∃ body, grammar.rules.body? rule = some body ∧
        ∀ state : State, mayStart (some kinds) (state.currentKind? words) = false →
          Fails (grammar.meaning words naive) body state) (node : Node) :
    ∀ kinds (state : State), node.first known = some kinds →
      mayStart (some kinds) (state.currentKind? words) = false →
      Fails (grammar.meaning words naive) node state := by
  induction node using Node.childInduction with
  | step node ih =>
    intro kinds state found ruledOut
    cases node with
    | token =>
      cases found
      exact fails_token ruledOut
    | text =>
      cases found
      exact fails_text ruledOut
    | empty | relax | relaxTo => cases found
    | seq _ items =>
      cases items with
      | nil => cases found
      | cons item rest =>
        exact fails_seq (ih item (List.mem_cons_self ..) kinds state found ruledOut)
    | choice stamp alternatives isOptional =>
      cases isOptional with
      | true => cases found
      | false =>
        have each := Node.first_of_firstOfAll found
        have noneStarts : ∀ node ∈ alternatives,
            mayStart (grammar.prediction node) (state.currentKind? words) = false := by
          intro node inside
          obtain ⟨own, foundOwn, subset⟩ := each node inside
          rw [prediction, Node.first_mono le node own foundOwn]
          exact mayStart_of_subset subset ruledOut
        refine fails_choice fun node member behind same => ?_
        have inside := mem_of_mem_tried noneStarts member
        obtain ⟨own, foundOwn, subset⟩ := each node inside
        refine ih node inside own behind foundOwn (mayStart_of_subset subset ?_)
        rw [State.currentKind?_eq_of_trail same]
        exact ruledOut
    | oneOrMore _ child =>
      exact fails_oneOrMore (ih child (List.mem_singleton_self _) kinds state found ruledOut)
    | heal _ child =>
      exact fails_heal (ih child (List.mem_singleton_self _) kinds state found ruledOut)
    | ahead _ child =>
      exact fails_ahead (ih child (List.mem_singleton_self _) kinds state found ruledOut)
    | symbolic _ kind child =>
      apply fails_symbolic
      rw [starts, prediction, Node.first_mono le child kinds found]
      exact ruledOut
    | fold _ _ start next =>
      exact fails_fold (ih start (List.mem_cons_self ..) kinds state found ruledOut)
    | cont _ _ start rest =>
      exact fails_cont (ih start (List.mem_cons_self ..) kinds state found ruledOut)
    | ref _ rule =>
      obtain ⟨body, lookup, fails⟩ := rules rule kinds found
      exact fails_ref lookup (fails state ruledOut)

/-- In front of a token that its first set rules out, a node fails and leaves nothing behind. -/
theorem fails_of_prediction {node : Node} {kinds : KindSet} {state : State}
    (predicted : grammar.prediction node = some kinds)
    (ruledOut : mayStart (some kinds) (state.currentKind? words) = false) :
    Fails (grammar.meaning words naive) node state := by
  -- Rules are looked up in the round before, so the induction is on rounds.
  suffices ∀ rounds ≤ grammar.rules.bodies.length, ∀ (node : Node) (kinds : KindSet)
      (state : State), node.first (grammar.rules.firstSetsAfter rounds) = some kinds →
        mayStart (some kinds) (state.currentKind? words) = false →
        Fails (grammar.meaning words naive) node state by
    rw [prediction, firstSets_eq_after] at predicted
    exact this _ (Nat.le_refl _) node kinds state predicted ruledOut
  intro rounds
  induction rounds with
  | zero =>
    intro _ node
    refine fails_of_first (fun rule kinds found => ?_) (fun rule kinds found => ?_) node
    all_goals cases found
  | succ rounds ih =>
    intro le node
    have within : (grammar.rules.firstSetsAfter (rounds + 1)).Le grammar.firstSets := by
      rw [firstSets_eq_after]
      exact grammar.rules.firstSetsAfter_le le
    refine fails_of_first within (fun rule kinds found => ?_) node
    rw [Rules.firstSetsAfter, Rules.of_lookThrough] at found
    obtain ⟨body, lookup, first⟩ := Option.bind_eq_some_iff.mp found
    exact ⟨body, lookup, fun state => ih (by omega) body kinds state first⟩

/-- A node that the next token cannot start fails there. -/
theorem fails_of_not_starts {node : Node} {state : State}
    (refuses : grammar.starts words node state = false) :
    Fails (grammar.meaning words naive) node state := by
  unfold starts at refuses
  cases predicted : grammar.prediction node with
  | none =>
    rw [predicted] at refuses
    cases refuses
  | some kinds =>
    rw [predicted] at refuses
    exact fails_of_prediction predicted refuses

/-- A node that fails with some fuel matches with none. -/
theorem Fails.not_matched {node : Node} {state : State}
    (fails : Fails (grammar.meaning words naive) node state) (fuel : Nat) (after : State) :
    grammar.runNode words naive fuel node state ≠ some (true, after) := by
  obtain ⟨failed, ran, -⟩ := fails
  intro matched
  have ends := runNode_below_meaning fuel node state _ matched
  rw [ran] at ends
  cases ends

/-- The check before an attempt looks at nothing but the next word. -/
theorem starts_eq_of_admits {node : Node} {state other : State}
    (refuses : (grammar.admits words node state).1 = false)
    (same : other.position = state.position) : grammar.starts words node other = false := by
  have next : other.currentKind? words = state.currentKind? words := by
    unfold State.currentKind? State.current?
    rw [same]
  rw [admits_eq] at refuses
  cases decided : grammar.starts words node state with
  | true =>
    rw [decided] at refuses
    cases refuses
  | false =>
    unfold starts at decided ⊢
    rw [next]
    exact decided

end

/-- A node whose first set is known matches only in front of a token of one of these kinds. So
whatever the check before an attempt turns away, at whatever state in front of the same word the
attempt would begin, would have come to an end and failed, with nothing left of it. -/
theorem matches_only_predicted (grammar : Grammar) (words : Array Word) (naive : Bool) (node : Node)
    (kinds : KindSet) (predicted : grammar.prediction node = some kinds) :
    (∀ fuel state after, grammar.runNode words naive fuel node state = some (true, after) →
        ∃ kind, state.currentKind? words = some kind ∧ kinds.contains kind = true) ∧
      ∀ state other, (grammar.admits words node state).1 = false →
        other.position = state.position →
        (∃ fuel after, grammar.runNode words naive fuel node other = some (false, after) ∧
            after.trail = other.trail) ∧
          ∀ fuel after, grammar.runNode words naive fuel node other ≠ some (true, after) := by
  constructor
  · intro fuel state after matched
    cases startable : mayStart (some kinds) (state.currentKind? words) with
    | false =>
      have fails : Fails (grammar.meaning words naive) node state :=
        fails_of_prediction predicted startable
      exact absurd matched (fails.not_matched fuel after)
    | true =>
      cases next : state.currentKind? words with
      | none =>
        rw [next] at startable
        cases startable
      | some kind =>
        rw [next] at startable
        exact ⟨kind, rfl, startable⟩
  · intro state other refuses same
    have fails : Fails (grammar.meaning words naive) node other :=
      fails_of_not_starts (starts_eq_of_admits refuses same)
    have neverMatches := fails.not_matched
    obtain ⟨after, ends, back⟩ := fails
    obtain ⟨fuel, ran⟩ := meaning_eq_some_iff.mp ends
    exact ⟨⟨fuel, after, ran, back.trail⟩, neverMatches⟩

/-- One or more names, in front of a name and at the end of the words. -/
theorem matches_only_predicted_of_names :
    let grammar := ofRules .empty
    let words : Array Word := #[⟨.lowerName, "a"⟩]
    let names : Node := .oneOrMore (.made 1) (.token (.made 0) .lowerName)
    let behind : State := State.start.bump words
    grammar.prediction names = some (.single .lowerName) ∧
      (∃ after, grammar.runNode words false 2 names .start = some (true, after)) ∧
      (∃ kind, State.start.currentKind? words = some kind ∧
        (KindSet.single .lowerName).contains kind = true) ∧
      (grammar.admits words names behind).1 = false ∧
      ∀ fuel after, grammar.runNode words false fuel names behind ≠ some (true, after) := by
  intro grammar words names behind
  have predicted : grammar.prediction names = some (.single .lowerName) := by decide
  have matched : grammar.runNode words false 2 names .start =
      some (true, behind.expect (.single .lowerName)) := by decide
  have refuses : (grammar.admits words names behind).1 = false := by decide
  obtain ⟨known, turnedAway⟩ :=
    matches_only_predicted grammar words false names (.single .lowerName) predicted
  refine ⟨predicted, ⟨_, matched⟩, known 2 .start _ matched, refuses, ?_⟩
  exact (turnedAway behind behind refuses rfl).2

end Offside.Grammar
