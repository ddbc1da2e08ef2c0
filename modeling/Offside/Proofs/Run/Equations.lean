import Offside.Proofs.Run.Trail
import Offside.Parse.Run

/-! # Runs as sequences of runs

Each part of a run is some runs of nodes one after the other, where what a run came to decides
whether and how to go on. These equations say so for every part, and nothing behind them opens the
definitions again.
-/

namespace Offside.Grammar

open Parse
open Token (Kind KindSet)

/-- A run does not end, or it matches, or it fails. -/
@[elab_as_elim]
theorem answer_cases {α : Type} {motive : Option (Bool × α) → Prop} (none : motive none)
    (matched : ∀ after, motive (some (true, after)))
    (failed : ∀ after, motive (some (false, after))) (answer : Option (Bool × α)) :
    motive answer := by
  rcases answer with _ | ⟨isMatch, after⟩
  · exact none
  · cases isMatch with
    | true => exact matched after
    | false => exact failed after

/-- What is left of an attempt: all of it if it matched, and otherwise what was there before. -/
def kept (marker : Marker) (answer : Bool × State) : Bool × State :=
  (answer.1, if answer.1 then answer.2 else answer.2.rollback marker)

section

variable (grammar : Grammar) (words : Array Word) (run : Runner)

/-- The state behind a word that a node cannot start with. -/
def refused (node : Node) (state : State) : State :=
  state.expect ((grammar.prediction node).getD .empty)

/-- Whether the next word is one that a node may start with. -/
def starts (node : Node) (state : State) : Bool :=
  mayStart (grammar.prediction node) (state.currentKind? words)

theorem admits_eq (node : Node) (state : State) :
    grammar.admits words node state =
      if grammar.starts words node state then (true, state)
      else (false, grammar.refused node state) := by
  unfold admits starts refused mayStart
  cases grammar.prediction node with
  | none => rfl
  | some kinds =>
    cases state.currentKind? words with
    | none => rfl
    | some kind => rfl

theorem runHealed_eq (node : Node) (state : State) :
    grammar.runHealed words run node state =
      if grammar.starts words node state then (run node state).map (kept state.mark)
      else some (false, grammar.refused node state) := by
  unfold runHealed
  rw [admits_eq]
  cases grammar.starts words node state with
  | false => rfl
  | true =>
    simp only [↓reduceIte]
    cases run node state using answer_cases <;> rfl

section

variable {grammar words run} {node : Node} {state after : State}

/-- An attempt matches as its node does. -/
theorem matched_of_runHealed
    (ended : grammar.runHealed words run node state = some (true, after)) :
    run node state = some (true, after) := by
  rw [runHealed_eq] at ended
  split at ended
  · obtain ⟨⟨matched, behind⟩, ran, same⟩ := Option.map_eq_some_iff.mp ended
    cases matched with
    | true =>
      cases same
      exact ran
    | false => cases same
  · cases ended

/-- An attempt fails at its check, or goes back to where it began when the node has failed. -/
theorem failed_of_runHealed
    (ended : grammar.runHealed words run node state = some (false, after)) :
    after = grammar.refused node state ∨
      ∃ behind, run node state = some (false, behind) ∧ after = behind.rollback state.mark := by
  rw [runHealed_eq] at ended
  split at ended
  · obtain ⟨⟨matched, behind⟩, ran, same⟩ := Option.map_eq_some_iff.mp ended
    cases matched with
    | true => cases same
    | false =>
      cases same
      exact .inr ⟨behind, ran, rfl⟩
  · cases ended
    exact .inl rfl

end

theorem runAll_cons (node : Node) (rest : List Node) (state : State) :
    runAll run (node :: rest) state = (run node state).bind fun answer =>
      if answer.1 then runAll run rest answer.2 else some answer := by
  rw [runAll]
  cases run node state using answer_cases <;> rfl

theorem runAny_cons (node : Node) (rest : List Node) (state : State) :
    grammar.runAny words run (node :: rest) state =
      (grammar.runHealed words run node state).bind fun answer =>
        if answer.1 then some answer else grammar.runAny words run rest answer.2 := by
  rw [runAny]
  cases grammar.runHealed words run node state using answer_cases <;> rfl

/-- The alternatives that a choice tries. -/
def tried (naive : Bool) (stamp : Stamp) (alternatives : List Node) (next? : Option Kind) :
    List Node :=
  if naive then alternatives else grammar.candidates stamp alternatives next?

/-- What a choice comes to when its alternatives came to `answer`. -/
def chosen (alternatives : List Node) (isOptional : Bool) (answer : Bool × State) : Bool × State :=
  if answer.1 then answer
  else (isOptional,
    if (grammar.knownFirst alternatives).isEmpty then answer.2
    else answer.2.expect (grammar.knownFirst alternatives))

theorem runChoice_eq (naive : Bool) (stamp : Stamp) (alternatives : List Node) (isOptional : Bool)
    (state : State) :
    grammar.runChoice words run naive stamp alternatives isOptional state =
      (grammar.runAny words run
        (grammar.tried naive stamp alternatives (state.currentKind? words)) state).map
        (grammar.chosen alternatives isOptional) := by
  simp only [runChoice, tried]
  cases grammar.runAny words run _ state using answer_cases <;> rfl

theorem runMore_succ (child : Node) (limit : Nat) (state : State) :
    grammar.runMore words run child (limit + 1) state =
      if grammar.starts words child state then
        (run child state).bind fun answer =>
          if answer.1 && answer.2.position != state.position then
            grammar.runMore words run child limit answer.2
          else some (true, answer.2)
      else some (true, grammar.refused child state) := by
  rw [runMore, admits_eq]
  cases grammar.starts words child state with
  | false => rfl
  | true =>
    simp only [↓reduceIte]
    cases run child state using answer_cases <;> rfl

/-- The state with a node around everything since a checkpoint. -/
def wrapped (checkpoint : Nat) (kind : Syntax.Kind) (state : State) : State :=
  (state.wrapAt checkpoint kind).record .finish

theorem runFold_succ (kind : Syntax.Kind) (next : Node) (checkpoint limit : Nat) (state : State) :
    grammar.runFold words run kind next checkpoint (limit + 1) state =
      (grammar.runHealed words run next state).bind fun answer =>
        if answer.1 then
          if answer.2.position = state.position then
            some (true, wrapped checkpoint kind answer.2)
          else grammar.runFold words run kind next checkpoint limit
            (wrapped checkpoint kind answer.2)
        else some (true, answer.2) := by
  rw [runFold]
  cases grammar.runHealed words run next state using answer_cases <;> rfl

/-- How many blocks are open behind a word that is skipped. -/
def depthBehind (depth : Nat) : Kind → Nat
  | .layoutStart => depth + 1
  | .layoutEnd => depth - 1
  | _ => depth

/-- The state behind a probe: nothing happened. -/
def probed (state : State) (answer : Bool × State) : State :=
  state.follow (answer.2.trail.rollback state.mark)

theorem skipTo_succ (recovery : Node) (depth limit : Nat) (state : State) :
    skipTo words run recovery depth (limit + 1) state =
      match state.currentKind? words with
      | none => some state
      | some kind =>
        if depth = 0 then
          (run recovery state).bind fun answer =>
            if answer.1 then some (probed state answer)
            else skipTo words run recovery (depthBehind depth kind) limit
              ((probed state answer).bump words)
        else skipTo words run recovery (depthBehind depth kind) limit (state.bump words) := by
  rw [skipTo]
  rcases state.currentKind? words with _ | kind
  · rfl
  · by_cases outside : depth = 0
    · simp only [outside, ↓reduceIte, recovers, State.probe]
      cases run recovery state using answer_cases with
      | none => rfl
      | matched after | failed after =>
        simp only [Option.bind_some, probed, State.forget_eq]
        rfl
    · simp only [outside, ↓reduceIte]
      rfl

/-! ## One step -/

variable (naive : Bool)

theorem step_oneOrMore (stamp : Stamp) (child : Node) (state : State) :
    grammar.step words run naive (.oneOrMore stamp child) state =
      (run child state).bind fun answer =>
        if answer.1 then grammar.runMore words run child (words.size + 1) answer.2
        else some answer := by
  delta step
  dsimp only
  cases run child state using answer_cases <;> rfl

theorem step_symbolic (stamp : Stamp) (kind : Syntax.Kind) (child : Node) (state : State) :
    grammar.step words run naive (.symbolic stamp kind child) state =
      if grammar.starts words child state then
        (run child (state.record (.start kind))).map fun answer =>
          (answer.1, if answer.1 then answer.2.record .finish
            else answer.2.abandon state.checkpoint)
      else some (false, grammar.refused child state) := by
  delta step
  dsimp only
  rw [admits_eq]
  cases grammar.starts words child state <;> rfl

theorem step_fold (stamp : Stamp) (kind : Syntax.Kind) (start next : Node) (state : State) :
    grammar.step words run naive (.fold stamp kind start next) state =
      if grammar.starts words start state then
        (run start state).bind fun answer =>
          if answer.1 then
            grammar.runFold words run kind next state.checkpoint (words.size + 1) answer.2
          else some answer
      else some (false, grammar.refused start state) := by
  delta step
  dsimp only
  rw [admits_eq]
  cases grammar.starts words start state with
  | false => rfl
  | true =>
    simp only [↓reduceIte]
    cases run start state using answer_cases <;> rfl

theorem step_cont (stamp : Stamp) (kind : Syntax.Kind) (start rest : Node) (state : State) :
    grammar.step words run naive (.cont stamp kind start rest) state =
      (run start state).bind fun answer =>
        if answer.1 then
          (grammar.runHealed words run rest answer.2).map fun answer =>
            (true, if answer.1 then wrapped state.checkpoint kind answer.2 else answer.2)
        else some answer := by
  delta step
  dsimp only
  cases run start state using answer_cases <;> rfl

theorem step_ref (stamp : Stamp) (rule : String) (state : State) :
    grammar.step words run naive (.ref stamp rule) state =
      match grammar.rules.body? rule with
      | some body => run body state
      | none => some (false, state) := rfl

theorem step_relaxTo (stamp : Stamp) (child recovery : Node) (message : String) (state : State) :
    grammar.step words run naive (.relaxTo stamp child recovery message) state =
      (grammar.runHealed words run child state).bind fun answer =>
        if answer.1 then some answer
        else (skipTo words run recovery 0 (words.size + 1) (answer.2.record (.start .error))).map
          fun skipped => (true, (skipped.record .finish).record
            (.diagnostic message answer.2.position skipped.position)) := by
  delta step
  dsimp only
  cases grammar.runHealed words run child state using answer_cases <;> rfl

end

end Offside.Grammar
