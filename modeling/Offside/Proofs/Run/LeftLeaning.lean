import Offside.Proofs.Parse.Log
import Offside.Proofs.Run.Backtracking

/-! # Chains lean to the left

All nodes of a chain are opened after the fact and at one point, where the chain begins. The node
opened last is the outermost, so with every turn everything recorded so far, the start and the
nodes of earlier turns, moves one node further in. That the start or what follows opens nodes at the
same point makes no difference: those were opened before.

What a run adds to the log is told as events with every node in its place. In a log that has an
event behind every node opened after the fact, they come at the end.
-/

namespace Offside.Parse

/-- What was added to the log between two states, with the nodes opened after the fact in their
places. -/
def Adds (state after : State) (added : List Event) : Prop :=
  ∃ events wraps, Grows state.checkpoint events wraps ∧
    after.trail = state.trail.append events wraps ∧ inserted wraps state.checkpoint events = added

/-- All nodes opened after the fact have an event behind them. -/
def Trail.IsSettled (trail : Trail) : Prop :=
  ∀ wrap ∈ trail.wraps, wrap.place < trail.events.length

namespace Adds

variable {state middle after : State} {added more : List Event}

theorem exists_of_goesOnTo (onward : state.trail.GoesOnTo after.trail) :
    ∃ added, Adds state after added := by
  obtain ⟨events, wraps, grown, same⟩ := onward
  rw [← State.checkpoint_eq] at grown
  exact ⟨_, events, wraps, grown, same, rfl⟩

theorem trans (first : Adds state middle added) (second : Adds middle after more) :
    Adds state after (added ++ more) := by
  obtain ⟨events, wraps, grown, same, rfl⟩ := first
  obtain ⟨later, laterWraps, grownLater, sameLater, rfl⟩ := second
  have reached : middle.checkpoint = state.checkpoint + events.length := by
    rw [State.checkpoint_eq, State.checkpoint_eq, same]
    exact List.length_append
  rw [reached] at grownLater ⊢
  refine ⟨_, _, grown.append grownLater, ?_, grown.inserted_append grownLater⟩
  rw [sameLater, same, Trail.append_append]

/-- What leaves the trail alone adds nothing. -/
theorem of_same_trail (adds : Adds state middle added) (same : after.trail = middle.trail) :
    Adds state after added := by
  obtain ⟨events, wraps, grown, reached, inPlace⟩ := adds
  exact ⟨events, wraps, grown, same.trans reached, inPlace⟩

/-- A node around everything since a point comes around all that was added since. -/
theorem wrapped (adds : Adds state after added) (kind : Syntax.Kind) :
    Adds state (Grammar.wrapped state.checkpoint kind after)
      (.start kind :: (added ++ [.finish])) := by
  obtain ⟨events, wraps, grown, same, rfl⟩ := adds
  refine ⟨_, _, grown.wrap kind, ?_, grown.inserted_wrap kind⟩
  rw [Grammar.wrapped, State.trail_record, State.trail_wrapAt, same, State.checkpoint_eq]
  simp [Trail.wrapAt, Trail.record, Trail.append]

/-- What is added keeps the log settled. -/
theorem isSettled (adds : Adds state after added) (settled : state.trail.IsSettled) :
    after.trail.IsSettled := by
  obtain ⟨events, wraps, grown, same, rfl⟩ := adds
  intro wrap member
  rw [same] at member ⊢
  simp only [Trail.append, List.mem_append, List.length_append] at member ⊢
  rcases member with early | late
  · exact Nat.lt_add_right _ (settled wrap early)
  · rw [← State.checkpoint_eq]
    exact (grown.place_mem wrap late).2

/-- Behind a settled log, what is added comes at the end. -/
theorem log_eq (adds : Adds state after added) (settled : state.trail.IsSettled) :
    after.log = state.log ++ added := by
  have settledAfter := adds.isSettled settled
  obtain ⟨events, wraps, grown, same, rfl⟩ := adds
  rw [same] at settledAfter
  rw [State.log_eq, State.log_eq, same, splice_eq_inserted settledAfter,
    splice_eq_inserted settled, Trail.append, inserted_append, Nat.zero_add, State.checkpoint_eq]
  congr 1
  · refine inserted_congr fun place _ before => ?_
    have none : opened wraps place = [] := opened_eq_nil fun wrap member => by
      have bounds := grown.place_mem wrap member
      rw [State.checkpoint_eq] at bounds
      omega
    rw [opened_append, none, List.nil_append]
  · refine inserted_congr fun place behind _ => ?_
    have none : opened state.trail.wraps place = [] := opened_eq_nil fun wrap member => by
      have bounds := settled wrap member
      omega
    rw [opened_append, none, List.append_nil]

end Adds

end Offside.Parse

namespace Offside.Grammar

open Parse

/-- Attempts one behind the other, each of which matches, and where each began and ended. After each
of them something is put around what there is. -/
inductive Turns (attempt : State → Option (Bool × State)) (around : State → State) :
    State → List (State × State) → State → Prop
  | none {state : State} : Turns attempt around state [] state
  | next {state behind last : State} {turns : List (State × State)}
    (matched : attempt state = some (true, behind))
    (later : Turns attempt around (around behind) turns last) :
    Turns attempt around state ((state, behind) :: turns) last

section

variable {grammar : Grammar} {words : Array Word} {run : Runner} {kind : Syntax.Kind} {next : Node}
  {checkpoint : Nat} {attempt : State → Option (Bool × State)} {state last : State}
  {turns : List (State × State)}

/-- A chain takes turns up to an attempt that fails or a turn that takes no word. -/
theorem turns_of_runFold {limit : Nat} {matched : Bool} {after : State}
    (ran : grammar.runFold words run kind next checkpoint limit state = some (matched, after)) :
    ∃ turns last,
      Turns (grammar.runHealed words run next) (wrapped checkpoint kind) state turns last ∧
        (grammar.runHealed words run next last = some (false, after) ∨
          after = last ∧ ∃ turn, turns.getLast? = some turn ∧
            turn.2.position = turn.1.position) := by
  induction limit generalizing state with
  | zero => cases ran
  | succ limit ih =>
    rw [runFold_succ] at ran
    obtain ⟨⟨isMatch, behind⟩, attempted, ran⟩ := Option.bind_eq_some_iff.mp ran
    cases isMatch with
    | false =>
      obtain ⟨-, rfl⟩ := Prod.mk.inj (Option.some.inj ran)
      exact ⟨[], state, .none, .inl attempted⟩
    | true =>
      by_cases idle : behind.position = state.position
      · simp only [idle, ↓reduceIte, Option.some.injEq, Prod.mk.injEq] at ran
        obtain ⟨-, rfl⟩ := ran
        exact ⟨[(state, behind)], _, .next attempted .none, .inr ⟨rfl, _, rfl, idle⟩⟩
      · simp only [idle, ↓reduceIte] at ran
        obtain ⟨turns, last, later, stops⟩ := ih ran
        refine ⟨(state, behind) :: turns, last, .next attempted later, ?_⟩
        rcases stops with failed | ⟨same, turn, isLast, still⟩
        · exact .inl failed
        · refine .inr ⟨same, turn, ?_, still⟩
          rw [List.getLast?_cons, isLast]
          rfl

/-- Turns end where the last of them does. -/
theorem Turns.position_eq (taken : Turns attempt (wrapped checkpoint kind) state turns last) :
    last.position = ((turns.map Prod.snd).getLastD state).position := by
  induction taken with
  | none => rfl
  | @next state behind last turns _ _ ih =>
    rw [ih, List.map_cons, List.getLastD_cons]
    cases turns with
    | nil => rfl
    | cons turn rest => rw [List.map_cons, List.getLastD_cons, List.getLastD_cons]

/-- The log of a chain: all its nodes are opened in front of the first piece, and each later piece
closes one. -/
def chainLog (kind : Syntax.Kind) (first : List Event) (pieces : List (List Event)) : List Event :=
  List.replicate pieces.length (.start kind) ++
    (first ++ pieces.flatMap fun piece => piece ++ [.finish])

/-- A longer chain has the node of its first turn for its start. -/
theorem chainLog_cons (kind : Syntax.Kind) (first piece : List Event) (pieces : List (List Event)) :
    chainLog kind first (piece :: pieces) =
      chainLog kind (.start kind :: (first ++ piece ++ [.finish])) pieces := by
  simp [chainLog, List.replicate_succ']

/-- With every turn, one more node comes around all there is. -/
theorem Turns.adds
    (onward : ∀ state answer, attempt state = some answer → state.trail.GoesOnTo answer.2.trail)
    {base : State} (taken : Turns attempt (wrapped base.checkpoint kind) state turns last)
    {first : List Event} (begun : Adds base state first) :
    ∃ pieces, List.Forall₂ (fun turn piece => Adds turn.1 turn.2 piece) turns pieces ∧
      Adds base last (chainLog kind first pieces) := by
  induction taken generalizing first with
  | none => exact ⟨[], .nil, by simpa [chainLog] using begun⟩
  | @next state behind last turns matched _ ih =>
    obtain ⟨piece, own⟩ := Adds.exists_of_goesOnTo (onward state _ matched)
    obtain ⟨pieces, others, adds⟩ := ih ((begun.trans own).wrapped kind)
    exact ⟨piece :: pieces, .cons own others, chainLog_cons .. ▸ adds⟩

end

/-- A chain that matches consists of its start and of some turns, each of which is a match of what
follows and closes one node. All these nodes are opened in front of what the start added. The chain
ends where the last turn ended, either because what follows does not match there or because that
turn took no word. -/
theorem fold_leans_left {grammar : Grammar} {words : Array Word} {naive : Bool} {fuel : Nat}
    {stamp : Stamp} {kind : Syntax.Kind} {start next : Node} {state after : State}
    (ran : grammar.runNode words naive (fuel + 1) (.fold stamp kind start next) state =
      some (true, after)) :
    let run := grammar.runNode words naive fuel
    let attempt := grammar.runHealed words run next
    ∃ begun first turns pieces last,
      run start state = some (true, begun) ∧ Adds state begun first ∧
      Turns attempt (wrapped state.checkpoint kind) begun turns last ∧
      List.Forall₂ (fun turn piece => Adds turn.1 turn.2 piece) turns pieces ∧
      Adds state after (chainLog kind first pieces) ∧
      (state.trail.IsSettled →
        after.log = state.log ++ chainLog kind first pieces ∧
          after.trail.IsSettled) ∧
      after.position = ((turns.map Prod.snd).getLastD begun).position ∧
      (attempt last = some (false, after) ∨
        after = last ∧ ∃ turn, turns.getLast? = some turn ∧
          turn.2.position = turn.1.position) := by
  intro run attempt
  have onward : Keeps (fun state after => state.trail.GoesOnTo after.trail) run :=
    (goesOnTo_moves words).runNode naive fuel
  have attempts : ∀ state answer, attempt state = some answer →
      state.trail.GoesOnTo answer.2.trail :=
    (goesOnTo_moves words).within.runHealed (onward next)
  change grammar.step words run naive _ state = _ at ran
  rw [step_fold] at ran
  split at ran
  swap
  · cases ran
  obtain ⟨⟨isMatch, begun⟩, ranStart, ran⟩ := Option.bind_eq_some_iff.mp ran
  cases isMatch with
  | false => cases ran
  | true =>
    obtain ⟨first, starts⟩ := Adds.exists_of_goesOnTo (onward start state _ ranStart)
    obtain ⟨turns, last, taken, stops⟩ := turns_of_runFold ran
    obtain ⟨pieces, own, added⟩ := taken.adds attempts starts
    have sameTrail : after.trail = last.trail := by
      rcases stops with failed | ⟨rfl, -⟩
      · exact trail_of_runHealed onward failed
      · rfl
    have adds := added.of_same_trail sameTrail
    refine ⟨begun, first, turns, pieces, last, ranStart, starts, taken, own, adds,
      fun settled => ⟨adds.log_eq settled, adds.isSettled settled⟩, ?_, stops⟩
    exact (congrArg Trail.position sameTrail).trans taken.position_eq

/-- An operator chain whose start is an application: both open their nodes in front of the first
word, and the application ends up inside. -/
theorem fold_leans_left_of_application :
    let grammar := ofRules .empty
    let words : Array Word :=
      #[⟨.lowerName, "a"⟩, ⟨.lowerName, "b"⟩, ⟨.operator, "+"⟩, ⟨.lowerName, "c"⟩]
    let name : Node := .token (.made 0) .lowerName
    let application : Node := .fold (.made 1) .exprApp name name
    let operand : Node := .seq (.made 3) [.token (.made 2) .operator, name]
    let run := grammar.runNode words false 4
    let after : State :=
      ⟨4, #[.token, .token, .finish, .token, .token, .finish],
        #[⟨0, .exprApp⟩, ⟨0, .exprInfix⟩], ⟨4, .single .operator, []⟩, 4⟩
    grammar.runNode words false 5 (.fold (.made 4) .exprInfix application operand) .start =
        some (true, after) ∧
      (∃ begun first turns pieces last,
        run application .start = some (true, begun) ∧ Adds .start begun first ∧
        Turns (grammar.runHealed words run operand) (wrapped 0 .exprInfix) begun turns last ∧
        List.Forall₂ (fun turn piece => Adds turn.1 turn.2 piece) turns pieces ∧
        after.log = chainLog .exprInfix first pieces) ∧
      after.log = [.start .exprInfix, .start .exprApp, .token, .token, .finish,
        .token, .token, .finish] := by
  intro grammar words name application operand run after
  have ran : grammar.runNode words false 5 (.fold (.made 4) .exprInfix application operand)
      .start = some (true, after) := by decide
  have settled : State.start.trail.IsSettled := by simp [Trail.IsSettled, State.trail, State.start]
  obtain ⟨begun, first, turns, pieces, last, starts, own, taken, later, -, log, -⟩ :=
    fold_leans_left ran
  have empty : State.start.log = [] := splice_eq_inserted settled
  refine ⟨ran, ⟨begun, first, turns, pieces, last, starts, own, taken, later, ?_⟩, ?_⟩
  · rw [(log settled).1, empty, List.nil_append]
  · rw [State.log_eq, splice_eq_inserted (by decide)]
    rfl

end Offside.Grammar
