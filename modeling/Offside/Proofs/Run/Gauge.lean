import Offside.Proofs.Run.NormalForm

/-! # What a run leaves beside its trail

The trail decides how a run goes on. What a state holds beside it, the refusals and the count of
words, only grows, and two runs that end alike may differ in how much of it they leave. A gauge
compares states by that. It says nothing about trails, the moves of a run do not lower it, and what
it says of a set of kinds that are refused it says of each of them.

A run saves what another one leaves if the two end alike and the first leaves no more.
-/

namespace Offside.Grammar

open Parse
open Token (Kind KindSet)

/-- An order of states by what they hold beside their trails. -/
structure Gauge (words : Array Word) (le : State → State → Prop) : Prop where
  refl (state : State) : le state state
  trans {first second third : State} : le first second → le second third → le first third
  follow {state other : State} (trail another : Trail) :
    le state other → le (state.follow trail) (other.follow another)
  bump (state : State) : le state (state.bump words)
  bump_mono {state other : State} : state.trail = other.trail → le state other →
    le (state.bump words) (other.bump words)
  expect (state : State) (kinds : KindSet) : le state (state.expect kinds)
  expect_mono {state other : State} (kinds : KindSet) : state.trail = other.trail →
    le state other → le (state.expect kinds) (other.expect kinds)
  /-- Refusing a word for its text lowers nothing. -/
  expectText (state : State) (text : String) : le state (state.expectText text)
  /-- Refusing the same word for its text keeps the order. -/
  expectText_mono {state other : State} (text : String) : state.trail = other.trail →
    le state other → le (state.expectText text) (other.expectText text)
  /-- Who holds what a state holds and what is refused there holds both together. -/
  join {state other whole : State} {kinds : KindSet} : state.trail = other.trail →
    le state whole → le (other.expect kinds) whole → le (state.expect kinds) whole
  /-- Refusing any of some kinds is refusing all of them. -/
  each {state other : State} {kinds : KindSet} : (∃ kind, kinds.contains kind = true) →
    (∀ kind, kinds.contains kind = true → le (state.expect (.single kind)) other) →
    le (state.expect kinds) other
  subset {part whole : KindSet} (state : State) :
    (∀ kind, part.contains kind = true → whole.contains kind = true) →
    le (state.expect part) (state.expect whole)

/-- On the same trail, and at most as much beside it. -/
structure Under (le : State → State → Prop) (state other : State) : Prop where
  trail : state.trail = other.trail
  /-- The first holds at most what the second holds. -/
  atMost : le state other

/-- Wherever the first run ends, the second ends alike, and leaves at least as much. -/
abbrev Saves (le : State → State → Prop) (first second : Option (Bool × State)) : Prop :=
  Within (SameAnswer (Under le) (Under le)) first second

namespace Gauge

variable {grammar : Grammar} {words : Array Word} {le : State → State → Prop}
  (gauge : Gauge words le) {state middle other : State}

include gauge

theorem under_refl (state : State) : Under le state state := ⟨rfl, gauge.refl state⟩

theorem under_trans (first : Under le state middle) (second : Under le middle other) :
    Under le state other :=
  ⟨first.trail.trans second.trail, gauge.trans first.atMost second.atMost⟩

theorem le_follow (atMost : le state other) (trail : Trail) : le state (other.follow trail) := by
  have moved := gauge.follow state.trail trail atMost
  rwa [← State.eq_follow rfl rfl] at moved

theorem follow_le (atMost : le state other) (trail : Trail) : le (state.follow trail) other := by
  have back : other.follow other.trail = other := (State.eq_follow rfl rfl).symm
  rw [← back]
  exact gauge.follow trail other.trail atMost

theorem le_rollback (atMost : le state other) (marker : Marker) :
    le state (other.rollback marker) := by
  rw [State.rollback_eq]
  exact gauge.le_follow atMost _

theorem rollback_le (atMost : le state other) (marker : Marker) :
    le (state.rollback marker) other := by
  rw [State.rollback_eq]
  exact gauge.follow_le atMost _

theorem rollback_mono (atMost : le state other) (marker another : Marker) :
    le (state.rollback marker) (other.rollback another) := by
  rw [State.rollback_eq, State.rollback_eq]
  exact gauge.follow _ _ atMost

/-- Two runs that were both undone, from states on the same trail. -/
theorem under_of_undone (under : Under le state other) {after last : State}
    (back : after.trail.rollback state.mark = state.trail) (undone : last.trail = other.trail)
    (atMost : le after last) : Under le (after.rollback state.mark) last where
  trail := by rw [State.trail_rollback, back, under.trail, undone]
  atMost := gauge.rollback_le atMost _

/-- Refusing one of some kinds is no more than refusing all of them. -/
theorem single_le {kind : Kind} {kinds : KindSet} (state : State)
    (inside : kinds.contains kind = true) :
    le (state.expect (.single kind)) (state.expect kinds) := by
  refine gauge.subset state fun single same => ?_
  rw [KindSet.contains_single, decide_eq_true_iff] at same
  exact same ▸ inside

/-- No run lowers what a state holds. -/
theorem moves : KeptByMoves words le where
  refl := gauge.refl
  trans := gauge.trans
  bump := gauge.bump
  expect := gauge.expect
  expectText := gauge.expectText
  report state message start stop := by
    rw [State.record_eq]
    exact gauge.le_follow (gauge.refl state) _
  node {state after kind} inner := by
    rw [State.record_eq after]
    refine gauge.le_follow (gauge.trans ?_ inner) _
    rw [State.record_eq]
    exact gauge.le_follow (gauge.refl state) _
  abandon {state after kind} inner := by
    rw [State.abandon_eq]
    refine gauge.le_follow (gauge.trans ?_ inner) _
    rw [State.record_eq]
    exact gauge.le_follow (gauge.refl state) _
  wrap kind onward := by
    unfold wrapped
    rw [State.record_eq, State.wrapAt_eq]
    exact gauge.le_follow (gauge.le_follow onward _) _
  undo onward := gauge.le_rollback onward _
  forget {state answer} _ := gauge.le_follow (gauge.refl state) _

/-- States on the same trail go on alike, and keep the order. -/
theorem alike : Alike words (Under le) (Under le) where
  trail := Under.trail
  near_of_level under := under
  log trail _ under := ⟨by rw [State.trail_follow, State.trail_follow],
    gauge.follow trail trail under.atMost⟩
  back trail under := ⟨by rw [State.trail_follow, State.trail_follow],
    gauge.follow trail trail under.atMost⟩
  bump under := ⟨(sameTrail_alike words).bump under.trail,
    gauge.bump_mono under.trail under.atMost⟩
  expect kinds under := ⟨(sameTrail_alike words).expect kinds under.trail,
    gauge.expect_mono kinds under.trail under.atMost⟩
  expectText text under := ⟨(sameTrail_alike words).expectText text under.trail,
    gauge.expectText_mono text under.trail under.atMost⟩

theorem saves_trans {first second third : Option (Bool × State)} (left : Saves le first second)
    (right : Saves le second third) : Saves le first third := by
  intro answer ended
  obtain ⟨between, ended, same⟩ := left answer ended
  obtain ⟨last, ended, onward⟩ := right between ended
  refine ⟨last, ended, ?_⟩
  cases same with
  | matched same =>
    cases onward with
    | matched onward => exact .matched (gauge.under_trans same onward)
  | failed same =>
    cases onward with
    | failed onward => exact .failed (gauge.under_trans same onward)

end Gauge

/-! ## Attempts without a check -/

section

variable {grammar : Grammar} {words : Array Word} {naive : Bool}

variable (grammar words naive) in
/-- Runs a node and undoes it if it fails, whatever the next word. -/
noncomputable def attempt : Runner := fun node state =>
  (grammar.meaning words naive node state).map (kept state.mark)

variable (grammar words naive) in
/-- Attempts nodes in turn until one matches. -/
noncomputable def attemptAll : List Node → State → Option (Bool × State)
  | [], state => some (false, state)
  | node :: rest, state => (grammar.attempt words naive node state).bind fun answer =>
    if answer.1 then some answer else attemptAll rest answer.2

theorem rollback_mark_of_trail {state after : State} (same : after.trail = state.trail) :
    after.rollback state.mark = after := by
  have back := Trail.GoesOnTo.rollback (.refl state.trail)
  rw [State.rollback_eq, same, State.mark_eq, back, ← same]
  exact (State.eq_follow rfl rfl).symm

/-- A failure that was undone already is not undone again. -/
theorem kept_of_trail {state : State} {answer : Bool × State}
    (same : answer.1 = false → answer.2.trail = state.trail) : kept state.mark answer = answer := by
  obtain ⟨matched, after⟩ := answer
  cases matched with
  | true => rfl
  | false => exact congrArg (Prod.mk false) (rollback_mark_of_trail (same rfl))

/-- An attempt fails where the node does, and goes back to where it began. -/
theorem failed_of_attempt {node : Node} {state after : State}
    (ended : grammar.attempt words naive node state = some (false, after)) :
    ∃ behind, grammar.meaning words naive node state = some (false, behind) ∧
      after = behind.rollback state.mark := by
  obtain ⟨⟨matched, behind⟩, ran, same⟩ := Option.map_eq_some_iff.mp ended
  cases matched with
  | true => cases same
  | false => exact ⟨behind, ran, (Prod.mk.inj same).2.symm⟩

theorem trail_of_attempt {node : Node} {state after : State}
    (ended : grammar.attempt words naive node state = some (false, after)) :
    after.trail = state.trail := by
  obtain ⟨behind, ran, rfl⟩ := failed_of_attempt ended
  rw [State.trail_rollback]
  exact rollback_meaning ran

/-- Attempting a healed node is running it with its check. -/
theorem attempt_heal (stamp : Stamp) (child : Node) (state : State) :
    grammar.attempt words naive (.heal stamp child) state =
      grammar.runHealed words (grammar.meaning words naive) child state := by
  unfold attempt
  rw [← step_meaning]
  change (grammar.runHealed words _ child state).map _ = _
  cases ended : grammar.runHealed words (grammar.meaning words naive) child state with
  | none => rfl
  | some answer =>
    refine congrArg some (kept_of_trail fun failed => ?_)
    obtain ⟨matched, after⟩ := answer
    subst failed
    exact trail_of_runHealed (goesOnTo_moves words).meaning ended

end

end Offside.Grammar
