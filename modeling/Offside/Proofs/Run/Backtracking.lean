import Offside.Proofs.Run.Invariant

/-! # Going back is exact

An attempt that fails is undone by cutting the log and the wraps back to the lengths they had and by
moving the cursor back. That this restores what was there rests on one fact about runs: nothing in
front of the place where a run began is touched, although abandoning a node rewrites an event in
place and wraps are recorded for events that exist already.

The furthest refusal is not taken back with the rest and only ever moves on. A probe alone forgets
it, together with the count of words ever taken.
-/

namespace Offside.Grammar

open Parse
open Token (Kind KindSet)

/-- Everything that decides how the parse goes on is what it was, and so is the log handed out. -/
structure Undone (state after : State) : Prop where
  position : after.position = state.position
  /-- The log holds the same events, abandoned nodes included. -/
  events : after.events = state.events
  /-- The same nodes are opened in front of them. -/
  wraps : after.wraps = state.wraps
  /-- The log with every wrap in its place. -/
  log : after.log = state.log

theorem undone_of_trail {state after : State} (same : after.trail = state.trail) :
    Undone state after where
  position := congrArg Trail.position same
  events := Array.toList_inj.mp (congrArg Trail.events same)
  wraps := Array.toList_inj.mp (congrArg Trail.wraps same)
  log := State.log_eq_of_trail same

section

variable {grammar : Grammar} {words : Array Word} {run : Runner}
  (onward : Keeps (fun state after => state.trail.GoesOnTo after.trail) run)

include onward

/-! ## Attempts -/

/-- Going back to where a run began restores the trail it began on. -/
theorem rollback_run {node : Node} {state : State} {answer : Bool × State}
    (ended : run node state = some answer) :
    answer.2.trail.rollback state.mark = state.trail := by
  have added := onward node state answer ended
  rw [State.mark_eq]
  exact added.rollback

/-- An attempt that fails leaves nothing behind. -/
theorem trail_of_runHealed {node : Node} {state after : State}
    (ended : grammar.runHealed words run node state = some (false, after)) :
    after.trail = state.trail := by
  obtain rfl | ⟨behind, ran, rfl⟩ := failed_of_runHealed ended
  · rw [refused, State.trail_expect]
  · rw [State.trail_rollback]
    exact rollback_run onward ran

theorem trail_of_runAny {nodes : List Node} {state after : State}
    (ended : grammar.runAny words run nodes state = some (false, after)) :
    after.trail = state.trail := by
  induction nodes generalizing state with
  | nil =>
    cases ended
    rfl
  | cons node rest ih =>
    rw [runAny_cons] at ended
    obtain ⟨⟨matched, behind⟩, ran, ended⟩ := Option.bind_eq_some_iff.mp ended
    cases matched with
    | true => cases ended
    | false =>
      have back := trail_of_runHealed onward ran
      exact (ih ended).trans back

/-- If all alternatives of a choice fail, nothing is left of them, optional or not. -/
theorem trail_of_runChoice {naive : Bool} {stamp : Stamp} {alternatives : List Node}
    {isOptional : Bool} {state after : State}
    (ended : grammar.runChoice words run naive stamp alternatives isOptional state =
      some (false, after)) : after.trail = state.trail := by
  rw [runChoice_eq] at ended
  obtain ⟨⟨matched, behind⟩, ran, same⟩ := Option.map_eq_some_iff.mp ended
  cases matched with
  | true => simp [chosen] at same
  | false =>
    have back := trail_of_runAny onward ran
    have last := congrArg Prod.snd same
    simp only [chosen, Bool.false_eq_true, ↓reduceIte] at last
    rw [← last]
    split
    · exact back
    · rw [State.trail_expect]
      exact back

/-- Nothing at all is left of a probe. -/
theorem probed_run {node : Node} {state : State} {answer : Bool × State}
    (ended : run node state = some answer) : probed state answer = state := by
  have back := rollback_run onward ended
  unfold probed
  rw [back]
  exact (State.eq_follow rfl rfl).symm

/-- Looking for a place to recover changes nothing, whether it is found or not. -/
theorem recovers_state (recovery : Node) (state : State) :
    (recovers run recovery state).2 = state := by
  unfold recovers State.probe
  simp only [State.forget_eq]
  cases ended : run recovery state using answer_cases with
  | none =>
    have back := Trail.GoesOnTo.rollback (.refl state.trail)
    simp only [State.mark_eq, back]
    exact (State.eq_follow rfl rfl).symm
  | matched after | failed after => exact probed_run onward ended

end

/-! ## The furthest refusal -/

/-- The furthest refusal moves up to the cursor or stays where it is. -/
theorem failure_expect (state : State) (kinds : KindSet) :
    (state.expect kinds).failure.position = max state.failure.position state.position := by
  rw [State.failure_expect]
  grind

theorem failure_expectText (state : State) (text : String) :
    (state.expectText text).failure.position = max state.failure.position state.position := by
  rw [State.failure_expectText]
  grind

/-- Every move keeps the furthest refusal or moves it on. -/
theorem failure_moves (words : Array Word) :
    KeptByMoves words fun state after => state.failure.position ≤ after.failure.position where
  refl _ := Nat.le_refl _
  trans := Nat.le_trans
  bump state := by
    unfold State.bump
    split <;> exact Nat.le_refl _
  expect state kinds := failure_expect state kinds ▸ Nat.le_max_left ..
  expectText state text := failure_expectText state text ▸ Nat.le_max_left ..
  report _ _ _ _ := Nat.le_refl _
  node inner := inner
  abandon {state after kind} inner := by
    rw [State.abandon_eq]
    exact inner
  wrap _ onward := onward
  undo onward := onward
  forget _ := Nat.le_refl _

/-! ## All of it -/

/-- A run that ended took a step over runs with one fuel less. -/
theorem step_of_runNode {grammar : Grammar} {words : Array Word} {naive : Bool} {fuel : Nat}
    {node : Node} {state : State} {answer : Bool × State}
    (ended : grammar.runNode words naive fuel node state = some answer) :
    ∃ less, fuel = less + 1 ∧
      grammar.step words (grammar.runNode words naive less) naive node state = some answer := by
  cases fuel with
  | zero => cases ended
  | succ less => exact ⟨less, rfl, ended⟩

/-- Wherever a run of a node begins, it only adds: the log and the wraps it found stay in front, new
wraps lie behind that, and the cursor moves on by the words that the added events take, while the
furthest refusal never moves back. Attempts, healed nodes and choices that fail undo all of it;
lookahead undoes it in any case; and looking for a place to recover leaves the whole state as it
was. -/
theorem run_backtracks_exactly (grammar : Grammar) (words : Array Word) (naive : Bool) (fuel : Nat)
    (state : State) :
    let run := grammar.runNode words naive fuel
    (∀ node matched after, run node state = some (matched, after) →
        state.failure.position ≤ after.failure.position ∧
          ∃ events wraps, after.events.toList = state.events.toList ++ events ∧
            after.wraps.toList = state.wraps.toList ++ wraps ∧
            (∀ wrap ∈ wraps, state.events.size ≤ wrap.place) ∧
            after.position = state.position + events.count .token) ∧
      (∀ node after, grammar.runHealed words run node state = some (false, after) →
        Undone state after) ∧
      (∀ stamp child after, run (.heal stamp child) state = some (false, after) →
        Undone state after) ∧
      (∀ stamp alternatives isOptional after,
        run (.choice stamp alternatives isOptional) state = some (false, after) →
          Undone state after) ∧
      (∀ stamp child matched after, run (.ahead stamp child) state = some (matched, after) →
        Undone state after) ∧
      ∀ recovery, (recovers run recovery state).2 = state := by
  intro run
  have onward : ∀ fuel, Keeps (fun state after => state.trail.GoesOnTo after.trail)
      (grammar.runNode words naive fuel) := (goesOnTo_moves words).runNode naive
  refine ⟨?_, ?_, ?_, ?_, ?_, fun recovery => recovers_state (onward fuel) recovery state⟩
  · intro node matched after ended
    have further := (failure_moves words).runNode naive fuel node state _ ended
    obtain ⟨events, wraps, grown, added⟩ := onward fuel node state _ ended
    refine ⟨further, events, wraps, ?_, ?_, ?_, ?_⟩
    · exact congrArg Trail.events added
    · exact congrArg Trail.wraps added
    · intro wrap member
      have bounds := grown.place_mem wrap member
      rw [← State.checkpoint_eq] at bounds
      exact bounds.1
    · exact congrArg Trail.position added
  · intro node after ended
    exact undone_of_trail (trail_of_runHealed (onward fuel) ended)
  · intro stamp child after ended
    obtain ⟨less, -, step⟩ := step_of_runNode ended
    exact undone_of_trail (trail_of_runHealed (onward less) step)
  · intro stamp alternatives isOptional after ended
    obtain ⟨less, -, step⟩ := step_of_runNode ended
    exact undone_of_trail (trail_of_runChoice (onward less) step)
  · intro stamp child matched after ended
    obtain ⟨less, -, step⟩ := step_of_runNode ended
    obtain ⟨answer, ran, same⟩ := Option.map_eq_some_iff.mp step
    have back := rollback_run (onward less) ran
    have last : answer.2.rollback state.mark = after := congrArg Prod.snd same
    rw [← State.trail_rollback, last] at back
    exact undone_of_trail back

/-- A pair of which one word is there: it fails behind that word, and what undoes it goes back. -/
theorem run_backtracks_exactly_of_pair :
    let grammar := ofRules .empty
    let words : Array Word := #[⟨.lowerName, "a"⟩]
    let run := grammar.runNode words false 4
    let pair : Node := .seq (.made 2) [.token (.made 0) .lowerName, .token (.made 1) .properName]
    let heal : Node := .heal (.made 3) pair
    let choice : Node := .choice (.made 4) [pair] false
    let ahead : Node := .ahead (.made 5) pair
    let failed : State := ⟨1, #[.token], #[], ⟨1, .single .properName, []⟩, 1⟩
    let undone : State := { failed with position := 0, events := #[] }
    let chosen : State := undone.expect (.single .lowerName)
    (run pair .start = some (false, failed) ∧
        grammar.runHealed words run pair .start = some (false, undone) ∧
        run heal .start = some (false, undone) ∧ run choice .start = some (false, chosen) ∧
        run ahead .start = some (false, undone)) ∧
      State.start.failure.position ≤ failed.failure.position ∧ Undone .start undone ∧
      Undone .start chosen ∧ (recovers run pair .start).2 = .start := by
  intro grammar words run pair heal choice ahead failed undone chosen
  obtain ⟨adds, -, heals, choices, -, recovery⟩ :=
    run_backtracks_exactly grammar words false 4 .start
  have ofPair : run pair .start = some (false, failed) := by decide
  have ofAttempt : grammar.runHealed words run pair .start = some (false, undone) := by decide
  have ofHeal : run heal .start = some (false, undone) := by decide
  have ofChoice : run choice .start = some (false, chosen) := by decide
  have ofAhead : run ahead .start = some (false, undone) := by decide
  obtain ⟨further, -⟩ := adds pair false failed ofPair
  refine ⟨⟨ofPair, ofAttempt, ofHeal, ofChoice, ofAhead⟩, further, ?_, ?_, recovery pair⟩
  · exact heals (.made 3) pair undone ofHeal
  · exact choices (.made 4) [pair] false chosen ofChoice

end Offside.Grammar
