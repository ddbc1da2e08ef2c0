import Offside.Proofs.Grammar.Language
import Offside.Proofs.Parse.Log
import Offside.Proofs.Run.Dispatch

/-! # Error nodes are accounted for in the log

A grammar that names no error node itself opens one only where it skips words, and what it records
there comes in one piece: the start of the node, the words, its end, and a report over exactly these
words. Going back cuts the piece off as a whole, probes leave nothing in it, and no node that is
opened after the fact begins inside of it.
-/

namespace Offside.Parse

open Grammar (KeptWithin Passes)

/-- In a log behind a number of words, every error node holds nothing but words, and is followed by
a report over these. -/
inductive Accounted : Nat → List Event → Prop
  | nil {taken : Nat} : Accounted taken []
  | token {taken : Nat} {rest : List Event} (later : Accounted (taken + 1) rest) :
    Accounted taken (.token :: rest)
  /-- What is neither a word nor the start of an error node. -/
  | event {taken : Nat} {event : Event} {rest : List Event} (isWord : event ≠ .token)
    (isError : event ≠ .start .error) (later : Accounted taken rest) :
    Accounted taken (event :: rest)
  | skipped {taken : Nat} {rest : List Event} (message : String) (count : Nat)
    (later : Accounted (taken + count) rest) :
    Accounted taken (.start .error :: (List.replicate count .token ++
      .finish :: .diagnostic message taken (taken + count) :: rest))

namespace Accounted

variable {taken : Nat} {events later : List Event}

theorem append (first : Accounted taken events)
    (second : Accounted (taken + events.count .token) later) :
    Accounted taken (events ++ later) := by
  induction first with
  | nil => exact second
  | token _ ih =>
    refine .token (ih ?_)
    rw [List.count_cons_self] at second
    rwa [Nat.add_assoc, Nat.add_comm 1]
  | event isWord isError _ ih =>
    refine .event isWord isError (ih ?_)
    rwa [List.count_cons_of_ne isWord] at second
  | skipped message count _ ih =>
    rw [List.cons_append, List.append_assoc, List.cons_append, List.cons_append]
    refine .skipped message count (ih ?_)
    simpa [List.count_append, List.count_cons, Nat.add_assoc] using second

/-- Something that is neither a word nor the start of an error node, at the end. -/
theorem append_event (first : Accounted taken events) {event : Event} (isWord : event ≠ .token)
    (isError : event ≠ .start .error) : Accounted taken (events ++ [event]) :=
  first.append (.event isWord isError .nil)

theorem words (count : Nat) : Accounted taken (List.replicate count .token) := by
  induction count generalizing taken with
  | zero => exact .nil
  | succ count ih => exact .token ih

end Accounted

namespace Trail

/-- One trail goes on from another, and what it adds is accounted for. -/
def GoesOnAccounted (earlier later : Trail) : Prop :=
  ∃ events wraps, Grows earlier.events.length events wraps ∧ later = earlier.append events wraps ∧
    Accounted earlier.position (inserted wraps earlier.events.length events)

namespace GoesOnAccounted

variable {earlier middle later : Trail} {kind : Syntax.Kind}

theorem goesOnTo (onward : earlier.GoesOnAccounted later) : earlier.GoesOnTo later := by
  obtain ⟨events, wraps, grown, added, -⟩ := onward
  exact ⟨events, wraps, grown, added⟩

theorem refl (trail : Trail) : trail.GoesOnAccounted trail :=
  ⟨[], [], .nil, (append_nil trail).symm, .nil⟩

theorem trans (left : earlier.GoesOnAccounted middle) (right : middle.GoesOnAccounted later) :
    earlier.GoesOnAccounted later := by
  obtain ⟨events, wraps, grown, rfl, accounted⟩ := left
  obtain ⟨more, moreWraps, grownMore, rfl, accountedMore⟩ := right
  have base : (earlier.append events wraps).events.length =
      earlier.events.length + events.length := List.length_append
  rw [base] at grownMore accountedMore
  refine ⟨_, _, grown.append grownMore, append_append .., ?_⟩
  rw [grown.inserted_append grownMore]
  refine accounted.append ?_
  rw [count_token_inserted]
  exact accountedMore

theorem token (trail : Trail) : trail.GoesOnAccounted (trail.append [.token] []) :=
  ⟨_, _, .token, rfl, .token .nil⟩

theorem report (trail : Trail) (message : String) (start stop : Nat) :
    trail.GoesOnAccounted (trail.record (.diagnostic message start stop)) :=
  ⟨_, _, .report message start stop, by simp [Trail.record, Trail.append],
    .event (by simp) (by simp) .nil⟩

/-- What is known of the inside of a node that was just started. -/
private theorem inside (inner : (earlier.record (.start kind)).GoesOnAccounted later) :
    ∃ events wraps, Grows (earlier.events.length + 1) events wraps ∧
      later = (earlier.record (.start kind)).append events wraps ∧
      Accounted earlier.position (inserted wraps (earlier.events.length + 1) events) := by
  obtain ⟨events, wraps, grown, added, accounted⟩ := inner
  have base : (earlier.record (.start kind)).events.length = earlier.events.length + 1 :=
    List.length_append
  rw [base] at grown accounted
  exact ⟨events, wraps, grown, added, accounted⟩

theorem node (allowed : kind ≠ .error)
    (inner : (earlier.record (.start kind)).GoesOnAccounted later) :
    earlier.GoesOnAccounted (later.record .finish) := by
  obtain ⟨events, wraps, grown, rfl, accounted⟩ := inner.inside
  refine ⟨_, _, grown.node kind, by simp [Trail.record, Trail.append], ?_⟩
  rw [grown.inserted_node]
  exact .event (by simp) (by simpa using allowed) (accounted.append_event (by simp) (by simp))

theorem abandon (inner : (earlier.record (.start kind)).GoesOnAccounted later) :
    earlier.GoesOnAccounted (later.abandon earlier.events.length) := by
  obtain ⟨events, wraps, grown, rfl, accounted⟩ := inner.inside
  refine ⟨_, _, grown.abandoned, by simp [Trail.abandon, Trail.record, Trail.append], ?_⟩
  rw [grown.inserted_abandoned]
  exact .event (by simp) (by simp) accounted

theorem wrap (allowed : kind ≠ .error) (onward : earlier.GoesOnAccounted later) :
    earlier.GoesOnAccounted
      ((later.wrapAt earlier.events.length kind).record .finish) := by
  obtain ⟨events, wraps, grown, rfl, accounted⟩ := onward
  refine ⟨_, _, grown.wrap kind, by simp [Trail.wrapAt, Trail.record, Trail.append], ?_⟩
  rw [grown.inserted_wrap]
  exact .event (by simp) (by simpa using allowed) (accounted.append_event (by simp) (by simp))

end GoesOnAccounted

/-- Skipped words with a report over them. -/
theorem GoesOnAccounted.skip (trail : Trail) (message : String) (count : Nat) :
    trail.GoesOnAccounted
      ((((trail.record (.start .error)).append (List.replicate count .token) []).record
        .finish).record (.diagnostic message trail.position (trail.position + count))) := by
  have grown := (Grows.words (trail.events.length + 1) count).node .error
  have reported : Grows (trail.events.length +
      (Event.start .error :: (List.replicate count .token ++ [.finish])).length)
      [.diagnostic message trail.position (trail.position + count)] [] := .report ..
  refine ⟨_, _, grown.append reported, ?_, ?_⟩
  · simp [Trail.record, Trail.append]
  · have accounted : Accounted trail.position (.start .error :: (List.replicate count .token ++
        .finish :: .diagnostic message trail.position (trail.position + count) :: [])) :=
      .skipped message count .nil
    rw [List.append_nil, inserted_nil, List.cons_append, List.append_assoc]
    exact accounted

end Trail

/-! ## Runs -/

/-- Skipping leaves the words behind and nothing else. -/
theorem trail_of_passes {words : Array Word} {state after : State}
    (passes : Passes words (fun state after => state.trail.GoesOnAccounted after.trail) state
      after) :
    ∃ count, after.trail = state.trail.append (List.replicate count .token) [] := by
  induction passes with
  | stop state => exact ⟨0, (Trail.append_nil _).symm⟩
  | @probe state after answer within _ ih =>
    have back : answer.2.trail.rollback state.mark = state.trail := by
      rw [State.mark_eq]
      exact within.goesOnTo.rollback
    obtain ⟨count, same⟩ := ih
    refine ⟨count, ?_⟩
    rw [same, Grammar.probed, State.trail_follow, back]
  | word next _ ih =>
    obtain ⟨count, same⟩ := ih
    refine ⟨count + 1, ?_⟩
    rw [same, State.trail_bump_of_word next, Trail.append_append]
    rfl

/-- What runs add is accounted for as long as no error nodes are opened by name. -/
theorem accounted_moves (words : Array Word) :
    KeptWithin words (· ≠ .error) fun state after => state.trail.GoesOnAccounted after.trail where
  refl state := .refl state.trail
  trans := .trans
  bump state := by
    rw [State.trail_bump]
    split
    · exact .refl state.trail
    · exact .token state.trail
  expect state kinds := by
    rw [State.trail_expect]
    exact .refl state.trail
  expectText state text := by
    rw [State.trail_expectText]
    exact .refl state.trail
  report state message := by
    rw [State.trail_record]
    exact .report state.trail message _ _
  node allowed inner := by
    rw [State.trail_record] at *
    exact inner.node allowed
  abandon _ inner := by
    rw [State.trail_abandon, State.checkpoint_eq]
    rw [State.trail_record] at inner
    exact inner.abandon
  wrap allowed onward := by
    unfold Grammar.wrapped
    rw [State.trail_record, State.trail_wrapAt, State.checkpoint_eq]
    exact onward.wrap allowed
  undo onward := by
    rw [State.trail_rollback, State.mark_eq, onward.goesOnTo.rollback]
    exact .refl _
  skip {state after} message passes := by
    obtain ⟨count, same⟩ := trail_of_passes passes
    have position : after.position = state.position + count := by
      have moved := congrArg Trail.position same
      simpa [State.trail, Trail.append, State.record] using moved
    rw [State.trail_record, State.trail_record, same, State.trail_record, position]
    exact .skip state.trail message count

end Offside.Parse

namespace Offside.Grammar

open Parse

/-- No syntax node of a kind is named by the nodes that take part in a node. -/
def NamesNo (grammar : Grammar) (kind : Syntax.Kind) (root : Node) : Prop :=
  ∀ node, Reaches grammar.rules root node → node.opened? ≠ some kind

/-- Whatever a run of such a grammar adds is accounted for, in either mode. -/
theorem goesOnAccounted_runNode {grammar : Grammar} {root : Node}
    (unnamed : grammar.NamesNo .error root) {words : Array Word} {naive : Bool} {fuel : Nat}
    {state : State} {answer : Bool × State}
    (ended : grammar.runNode words naive fuel root state = some answer) :
    state.trail.GoesOnAccounted answer.2.trail := by
  -- Dispatch leaves the same trail, and without it only nodes of the grammar itself are run.
  obtain ⟨other, found, same⟩ :=
    runNode_simulates_meaning naive true fuel root state state rfl _ ended
  obtain ⟨more, ran⟩ := meaning_eq_some_iff.mp found
  have closed : ∀ node, Reaches grammar.rules root node → ∀ child,
      Asks grammar true node child → Reaches grammar.rules root child := by
    intro node reached child asks
    cases asks with
    | part member => exact .part reached member
    | tried member => exact .part reached member
    | body lookup => exact .body reached lookup
  have allowed : ∀ node, Reaches grammar.rules root node → ∀ kind,
      node.opened? = some kind → kind ≠ .error := by
    rintro node reached kind opened rfl
    exact unnamed node reached opened
  have accounted := (accounted_moves words).runNode_of_closed allowed closed more .root state _ ran
  have sameTrail : answer.2.trail = other.2.trail := congrArg Prod.snd (seen_eq_of_same same)
  rwa [sameTrail]

end Offside.Grammar
