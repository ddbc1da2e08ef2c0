import Offside.Proofs.Run.Dispatch
import Offside.Proofs.Run.Steady

/-! # What dispatch refuses

Dispatch does not run the alternatives that the next word rules out. In order they are run, and
refuse that word. Merged neighbours refuse together what they refuse one after the other. So between
steady nodes the two ways to make choices differ in refusals up to the cursor and in nothing else,
and what is refused behind it is the same.

Merging is about what is refused, too, but the laws it rests on are laws of effects. A bound on the
refusals makes effects of it: beyond the bound a node has no effect, and what has the same effect
within every bound refuses the same.
-/

namespace Offside.Grammar

open Parse
open Token (Kind KindSet)

section

variable {grammar : Grammar} {words : Array Word} {run : Runner} {node : Node}

/-! ## Steady nodes stay near -/

/-- Choices apart, one step of a steady node keeps runs near each other. -/
theorem Steady.step (steady : grammar.Steady words node) {naive : Bool}
    (onward : Keeps (fun state after => state.failure.position ≤ after.failure.position) run)
    (runs : ∀ child, grammar.Steady words child →
      SimulatesAt Near Level run (grammar.meaning words true) child)
    (choices : ∀ stamp alternatives isOptional,
      grammar.Steady words (.choice stamp alternatives isOptional) →
      ∀ state state', Near state state' → Within (SameAnswer Near Level)
        (grammar.runChoice words run naive stamp alternatives isOptional state)
        (grammar.runChoice words (grammar.meaning words true) true stamp alternatives isOptional
          state')) :
    SimulatesAt Near Level (grammar.step words run naive) (grammar.meaning words true) node := by
  have alike := near_alike words
  rw [show grammar.meaning words true = grammar.step words (grammar.meaning words true) true
    from funext fun node => funext fun state => (step_meaning node state).symm]
  cases node with
  | choice stamp alternatives isOptional => exact choices stamp alternatives isOptional steady
  | ahead stamp child =>
    refine alike.step_ahead (runs child (steady.child (List.mem_singleton_self _))) ?_
    intro state state' after after' same behind ran ran'
    obtain ⟨fuel, ran'⟩ := meaning_eq_some_iff.mp ran'
    have looks := steady.looks stamp child .root fuel state' after' ran'
    have further := onward child state _ ran
    refine ⟨by rw [State.trail_rollback, State.trail_rollback, behind.trail], behind.refusals, ?_⟩
    change after'.failure.position ≤ max after.failure.position state.position
    rw [← same.max_eq] at looks
    dsimp only at further
    omega
  | ref stamp rule =>
    refine Alike.step_ref (fun body lookup => runs body (steady.body lookup)) fun missing => ?_
    have defined := steady.defined stamp rule .root
    rw [missing] at defined
    cases defined
  | _ => exact alike.step rfl fun child member => runs child (steady.child member)

/-- Refusing more up to the cursor makes no difference but that. -/
theorem Steady.runNode_simulates_self (fuel : Nat) (steady : grammar.Steady words node) :
    SimulatesAt Near Level (grammar.runNode words true fuel) (grammar.meaning words true) node := by
  induction fuel generalizing node with
  | zero => exact fun _ _ _ => .none _
  | succ fuel ih =>
    refine steady.step ((failure_moves words).runNode true fuel) (fun child => ih) ?_
    intro stamp alternatives isOptional steady state state' same
    refine (near_alike words).runChoice isOptional
      (fun _ alternative member => ih (steady.child member)) same ?_
    rintro none - rfl
    obtain rfl : alternatives = [] := none
    exact absurd .root (steady.filled stamp)

theorem Steady.simulates_self (steady : grammar.Steady words node) :
    SimulatesAt Near Level (grammar.meaning words true) (grammar.meaning words true) node := by
  intro state state' same answer ended
  obtain ⟨fuel, ran⟩ := meaning_eq_some_iff.mp ended
  exact steady.runNode_simulates_self fuel state state' same answer ran

theorem failure_meaning {naive : Bool} {state : State} {answer : Bool × State}
    (ended : grammar.meaning words naive node state = some answer) :
    state.failure.position ≤ answer.2.failure.position :=
  (failure_moves words).meaning node state answer ended

theorem failure_runAny {naive : Bool} {nodes : List Node} {state : State} {answer : Bool × State}
    (ended : grammar.runAny words (grammar.meaning words naive) nodes state = some answer) :
    state.failure.position ≤ answer.2.failure.position :=
  (failure_moves words).within.runAny (fun node _ => (failure_moves words).meaning node) ended

/-- Steady nodes of which all fail have refused the word they began at, or one behind it. -/
theorem position_le_of_runAny {nodes : List Node} (filled : nodes ≠ [])
    (steady : ∀ node ∈ nodes, grammar.Steady words node) {state after : State}
    (ended : grammar.runAny words (grammar.meaning words true) nodes state = some (false, after)) :
    after.position ≤ after.failure.position := by
  have refused := refuses_runAny (failure_moves words).meaning filled
    (fun node member => (steady node member).grounded.refusesAt) ended
  have back := trail_of_runAny (goesOnTo_moves words).meaning ended
  rwa [← show after.position = state.position from congrArg Trail.position back] at refused

/-! ## Effects within a bound -/

/-- What can be seen of an answer as long as no word behind a bound was refused. -/
def upTo (bound : Nat) (answer : Bool × State) : Option (Bool × Trail) :=
  if answer.2.failure.position ≤ bound then some (seen answer) else none

variable (grammar words) in
/-- What a node does to a trail, choices in order, as long as it refuses no word behind a bound. -/
noncomputable def effectUpTo (bound : Nat) (node : Node) : Effect := fun trail =>
  (grammar.meaning words true node (State.start.follow trail)).bind (upTo bound)

variable {bound : Nat} {state : State}

theorem upTo_of_le {answer : Bool × State} (within : answer.2.failure.position ≤ bound) :
    upTo bound answer = some (seen answer) := if_pos within

theorem upTo_eq_some_iff {answer : Bool × State} {looks : Bool × Trail} :
    upTo bound answer = some looks ↔ answer.2.failure.position ≤ bound ∧ seen answer = looks := by
  unfold upTo
  split <;> simp_all

/-- From any state within the bound, a node has the effect it has on the state's trail. -/
theorem bind_upTo_meaning (within : state.failure.position ≤ bound) :
    (grammar.meaning words true node state).bind (upTo bound) =
      grammar.effectUpTo words bound node state.trail := by
  have raised : Raised state.failure.position state (State.start.follow state.trail) := by
    refine ⟨(State.trail_follow ..).symm, ?_⟩
    exact (Nat.max_zero _).symm
  have looks : (grammar.meaning words true node state).map seen =
      grammar.effect words true node state.trail := map_seen_meaning node state
  unfold effectUpTo
  cases ended : grammar.meaning words true node state with
  | none =>
    rw [ended, effect] at looks
    rw [Option.map_eq_none_iff.mp looks.symm]
  | some answer =>
    obtain ⟨other, ran, same⟩ :=
      (raised_alike words state.failure.position).meaning true node _ _ raised answer ended
    rw [ran]
    have refusals : answer.2.failure.position ≤ bound ↔ other.2.failure.position ≤ bound := by
      cases same with
      | matched same | failed same =>
        rw [same.refusals, Nat.max_le]
        exact and_iff_right within
    have trails : seen answer = seen other := by
      cases same with
      | matched same | failed same => exact congrArg (Prod.mk _) same.trail
    simp only [Option.bind_some, upTo, refusals, trails]

/-- What follows on an answer within the bound decides what can be seen in the end. -/
theorem bind_upTo_bind {first : Option (Bool × State)} {next : Bool × State → Option (Bool × State)}
    {onward : Bool × Trail → Option (Bool × Trail)}
    (grows : ∀ answer last, next answer = some last →
      answer.2.failure.position ≤ last.2.failure.position)
    (same : ∀ answer, first = some answer → answer.2.failure.position ≤ bound →
      (next answer).bind (upTo bound) = onward (seen answer)) :
    (first.bind next).bind (upTo bound) = (first.bind (upTo bound)).bind onward := by
  cases first with
  | none => rfl
  | some answer =>
    simp only [Option.bind_some]
    by_cases within : answer.2.failure.position ≤ bound
    · rw [same answer rfl within, upTo_of_le within]
      rfl
    · have beyond : upTo bound answer = none := if_neg within
      rw [beyond]
      cases ended : next answer with
      | none => rfl
      | some last =>
        have further := grows answer last ended
        exact if_neg fun inside => within (further.trans inside)

theorem bind_upTo_runAll (nodes : List Node) (within : state.failure.position ≤ bound) :
    (runAll (grammar.meaning words true) nodes state).bind (upTo bound) =
      Effect.all (nodes.map (grammar.effectUpTo words bound)) state.trail := by
  induction nodes generalizing state with
  | nil => exact upTo_of_le within
  | cons node rest ih =>
    rw [runAll_cons, List.map_cons, Effect.all_cons, Effect.andThen, ← bind_upTo_meaning within]
    refine bind_upTo_bind ?_ ?_
    · intro answer last ended
      split at ended
      · exact (failure_moves words).within.runAll
          (fun node _ => (failure_moves words).meaning node) ended
      · cases ended
        exact Nat.le_refl _
    · rintro ⟨matched, after⟩ - inside
      cases matched with
      | true => exact ih inside
      | false => exact upTo_of_le inside

/-- A healed run of a steady node is an attempt. -/
theorem Steady.bind_upTo_runHealed (steady : grammar.Steady words node)
    (within : state.failure.position ≤ bound) :
    (grammar.runHealed words (grammar.meaning words true) node state).bind (upTo bound) =
      (grammar.effectUpTo words bound node).attempt state.trail := by
  rw [Effect.attempt, ← bind_upTo_meaning within]
  cases starts : grammar.starts words node state with
  | false =>
    obtain ⟨after, ran, back⟩ : Fails (grammar.meaning words true) node state :=
      fails_of_not_starts starts
    -- Both refuse the word at the cursor and none behind it.
    have refusals : after.failure.position = (grammar.refused node state).failure.position := by
      rw [refused, failure_expect]
      exact Nat.le_antisymm back.refusals
        (Nat.max_le.mpr ⟨failure_meaning ran, steady.grounded.refusesAt state after ran⟩)
    rw [runHealed_eq, starts, ran]
    simp only [Bool.false_eq_true, ↓reduceIte, Option.bind_some, upTo, refusals]
    split
    · simp [seen, refused]
    · rfl
  | true =>
    rw [runHealed_eq, starts]
    simp only [↓reduceIte]
    cases ended : grammar.meaning words true node state using answer_cases with
    | none => rfl
    | matched after =>
      simp only [Option.map_some, Option.bind_some, kept, ↓reduceIte, upTo]
      split <;> rfl
    | failed after =>
      have back := rollback_meaning ended
      simp only [Option.map_some, Option.bind_some, kept, Bool.false_eq_true, ↓reduceIte, upTo]
      rw [show (after.rollback state.mark).failure = after.failure from rfl]
      split
      · simpa [seen] using back
      · rfl

theorem bind_upTo_runAny {nodes : List Node}
    (steady : ∀ node ∈ nodes, grammar.Steady words node)
    (within : state.failure.position ≤ bound) :
    (grammar.runAny words (grammar.meaning words true) nodes state).bind (upTo bound) =
      Effect.firstOf (nodes.map (grammar.effectUpTo words bound)) state.trail := by
  induction nodes generalizing state with
  | nil => exact upTo_of_le within
  | cons node rest ih =>
    obtain ⟨own, others⟩ := List.forall_mem_cons.mp steady
    rw [runAny_cons, List.map_cons, Effect.firstOf_cons, Effect.orElse,
      ← own.bind_upTo_runHealed within]
    refine bind_upTo_bind ?_ ?_
    · intro answer last ended
      split at ended
      · cases ended
        exact Nat.le_refl _
      · exact failure_runAny ended
    · rintro ⟨matched, after⟩ - inside
      cases matched with
      | true => exact upTo_of_le inside
      | false => exact ih others inside

/-- A steady choice attempts its alternatives in order. -/
theorem Steady.effectUpTo_choice {stamp : Stamp} {alternatives : List Node} {isOptional : Bool}
    (steady : grammar.Steady words (.choice stamp alternatives isOptional)) :
    grammar.effectUpTo words bound (.choice stamp alternatives isOptional) =
      (Effect.firstOf (alternatives.map (grammar.effectUpTo words bound))).orNothing
        isOptional := by
  have parts : ∀ alternative ∈ alternatives, grammar.Steady words alternative :=
    fun alternative member => steady.child member
  funext trail
  have run : (grammar.runAny words (grammar.meaning words true) alternatives
      (State.start.follow trail)).bind (upTo bound) = _ :=
    bind_upTo_runAny parts (Nat.zero_le bound)
  rw [State.trail_follow] at run
  rw [effectUpTo, ← step_meaning]
  change (grammar.runChoice words _ true stamp alternatives isOptional _).bind _ = _
  rw [runChoice_eq, Option.map_eq_bind, Effect.orNothing, Effect.orElse, ← run]
  refine bind_upTo_bind ?_ ?_
  · rintro ⟨matched, after⟩ last ended
    obtain rfl : grammar.chosen alternatives isOptional (matched, after) = last :=
      Option.some.inj ended
    unfold chosen
    split
    · exact Nat.le_refl _
    · dsimp only
      split
      · exact Nat.le_refl _
      · exact (failure_moves words).expect _ _
  · rintro ⟨matched, after⟩ ended inside
    change upTo bound (grammar.chosen alternatives isOptional (matched, after)) = _
    cases matched with
    | true => exact upTo_of_le inside
    | false =>
      simp only [chosen, Bool.false_eq_true, ↓reduceIte, seen]
      split
      · exact upTo_of_le inside
      · next expects =>
        -- What is expected in the end lies where the alternatives have refused a word.
        have filled : alternatives ≠ [] := by
          rintro rfl
          exact expects rfl
        have refused := position_le_of_runAny filled parts ended
        have expected : (after.expect (grammar.knownFirst alternatives)).failure.position ≤
            bound := by
          rw [failure_expect, Nat.max_eq_left refused]
          exact inside
        rw [upTo_of_le expected, seen, State.trail_expect]

variable (grammar words bound) in
/-- Within a bound, the laws hold for the effects of steady nodes. -/
theorem lawful_effectUpTo : Lawful (grammar.Steady words) (grammar.effectUpTo words bound) where
  toClosed := Steady.closed grammar words
  succeed stamp := by
    funext trail
    rw [effectUpTo, ← step_meaning]
    have within : (State.start.follow trail).failure.position ≤ bound := Nat.zero_le bound
    change upTo bound (true, State.start.follow trail) = _
    rw [upTo_of_le within, seen, State.trail_follow]
    rfl
  all {stamp items} _ := by
    funext trail
    have within : (State.start.follow trail).failure.position ≤ bound := Nat.zero_le bound
    have run : (runAll (grammar.meaning words true) items _).bind (upTo bound) = _ :=
      bind_upTo_runAll items within
    rw [State.trail_follow] at run
    rw [effectUpTo, ← step_meaning]
    exact run
  attempt {stamp child} steady := by
    funext trail
    have within : (State.start.follow trail).failure.position ≤ bound := Nat.zero_le bound
    have run := steady.bind_upTo_runHealed within
    rw [State.trail_follow] at run
    rw [effectUpTo, ← step_meaning]
    exact run
  restores {node} _ undoes trail after ended := by
    obtain ⟨answer, ran, looks⟩ := Option.bind_eq_some_iff.mp ended
    have failed : grammar.effect words true node trail = some (false, after) := by
      rw [effect, ran, Option.map_some, (upTo_eq_some_iff.mp looks).2]
    exact trail_of_undoesFailure undoes failed
  same same := by
    unfold effectUpTo
    rw [meaning_eq_of_isSame same]

/-! ## Merging -/

/-- What looks the same within every bound has refused the same. -/
theorem within_of_bind_upTo_eq {first second : Option (Bool × State)}
    (growsFirst : ∀ answer, first = some answer →
      state.failure.position ≤ answer.2.failure.position)
    (growsSecond : ∀ answer, second = some answer →
      state.failure.position ≤ answer.2.failure.position)
    (same : ∀ bound, state.failure.position ≤ bound →
      first.bind (upTo bound) = second.bind (upTo bound)) :
    Within (SameAnswer Level Level) first second := by
  rintro answer rfl
  have looks := same _ (growsFirst answer rfl)
  rw [Option.bind_some, upTo_of_le (Nat.le_refl _)] at looks
  obtain ⟨other, rfl, within⟩ := Option.bind_eq_some_iff.mp looks.symm
  obtain ⟨further, trails⟩ := upTo_eq_some_iff.mp within
  have looks := same _ (growsSecond other rfl)
  rw [Option.bind_some, Option.bind_some,
    upTo_of_le (Nat.le_refl other.2.failure.position)] at looks
  obtain ⟨furtherBack, -⟩ := upTo_eq_some_iff.mp looks
  refine ⟨other, rfl, ?_⟩
  have refusals := Nat.le_antisymm furtherBack further
  obtain ⟨matched, after⟩ := answer
  obtain ⟨matched', after'⟩ := other
  obtain ⟨rfl, trail⟩ := Prod.mk.inj trails
  cases matched' with
  | true => exact .matched ⟨trail.symm, refusals⟩
  | false => exact .failed ⟨trail.symm, refusals⟩

/-- Merged neighbours refuse what they refuse one after the other. -/
theorem runAny_candidates {alternatives : List Node}
    (steady : ∀ alternative ∈ alternatives, grammar.Steady words alternative) (stamp : Stamp)
    (next? : Option Kind) (state : State) :
    Within (SameAnswer Level Level)
      (grammar.runAny words (grammar.meaning words true)
        (grammar.candidates stamp alternatives next?) state)
      (grammar.runAny words (grammar.meaning words true)
        (alternatives.filter fun node => mayStart (grammar.prediction node) next?) state) := by
  refine within_of_bind_upTo_eq (fun _ => failure_runAny) (fun _ => failure_runAny) ?_
  intro bound within
  have lawful := lawful_effectUpTo grammar words bound
  have merged := lawful.firstOf_candidates grammar stamp steady
    (fun stamp alternatives isOptional steady _ => steady.effectUpTo_choice) next?
  rw [bind_upTo_runAny (lawful.candidates grammar stamp steady next?) within,
    bind_upTo_runAny (fun node member => steady node (List.mem_of_mem_filter member)) within,
    merged]

/-! ## Ruling out -/

theorem Near.refused_right {state other : State} (near : Near state other) (node : Node) :
    Near state (grammar.refused node other) where
  trail := by
    rw [refused, State.trail_expect]
    exact near.trail
  refusals := by
    rw [refused, failure_expect, ← near.max_eq]
    exact Nat.le_max_left ..
  upToHere := by
    rw [refused, failure_expect, ← near.max_eq]

/-- Alternatives that the next word rules out refuse that word and nothing behind it. -/
theorem runAny_filter_mayStart {alternatives : List Node}
    (steady : ∀ alternative ∈ alternatives, grammar.Steady words alternative) {next? : Option Kind}
    {state other : State} (next : state.currentKind? words = next?) (near : Near state other) :
    Within (SameAnswer Near Near)
      (grammar.runAny words (grammar.meaning words true)
        (alternatives.filter fun node => mayStart (grammar.prediction node) next?) state)
      (grammar.runAny words (grammar.meaning words true) alternatives other) := by
  have alike := near_alike words
  induction alternatives generalizing state other with
  | nil => exact .some (.failed near)
  | cons node rest ih =>
    obtain ⟨own, others⟩ := List.forall_mem_cons.mp steady
    cases starts : mayStart (grammar.prediction node) next? with
    | false =>
      have ruledOut : grammar.starts words node other = false := by
        rw [← alike.starts_eq near]
        unfold Grammar.starts
        rwa [next]
      rw [List.filter_cons_of_neg (by simp [starts]), runAny_cons, runHealed_eq, ruledOut]
      exact ih others next (near.refused_right node)
    | true =>
      rw [List.filter_cons_of_pos (by simp only [starts]), runAny_cons, runAny_cons]
      intro answer ended
      obtain ⟨first, ran, ended⟩ := Option.bind_eq_some_iff.mp ended
      obtain ⟨first', ran', after⟩ := alike.runHealed own.simulates_self _ _ near _ ran
      cases after with
      | matched after =>
        cases ended
        exact ⟨_, by rw [ran']; rfl, .matched after⟩
      | failed after =>
        have back := trail_of_runHealed (goesOnTo_moves words).meaning ran
        have sameNext := (State.currentKind?_eq_of_trail back words).trans next
        obtain ⟨last, lastRan, same⟩ := ih others sameNext after.near answer ended
        exact ⟨last, by rw [ran']; exact lastRan, same⟩

/-! ## The two ways to make choices -/

/-- If dispatch finds anything to try, that refuses behind the cursor what the alternatives refuse
in order. -/
theorem runAny_dispatched
    (runs : ∀ child, grammar.Steady words child →
      SimulatesAt Near Level run (grammar.meaning words true) child)
    {alternatives : List Node}
    (steady : ∀ alternative ∈ alternatives, grammar.Steady words alternative) {stamp : Stamp}
    {state state' : State} (near : Near state state')
    (filled : grammar.candidates stamp alternatives (state.currentKind? words) ≠ []) :
    Within (SameAnswer Near Level)
      (grammar.runAny words run
        (grammar.candidates stamp alternatives (state.currentKind? words)) state)
      (grammar.runAny words (grammar.meaning words true) alternatives state') := by
  have alike := near_alike words
  have candidates := (Steady.closed grammar words).candidates grammar stamp steady
    (state.currentKind? words)
  intro first ran
  obtain ⟨second, secondRan, same⟩ := alike.runAny
    (fun node member => runs node (candidates node member)) near
    (fun none => absurd none filled) first ran
  obtain ⟨third, thirdRan, merged⟩ :=
    runAny_candidates steady stamp (state.currentKind? words) state' second secondRan
  obtain ⟨last, lastRan, pruned⟩ :=
    runAny_filter_mayStart steady (alike.currentKind?_eq near).symm (.refl state') third thirdRan
  refine ⟨last, lastRan, ?_⟩
  cases same with
  | matched same =>
    cases merged with
    | matched merged =>
      cases pruned with
      | matched pruned => exact .matched (same.trans (merged.near.trans pruned))
  | failed same =>
    have refused := position_le_of_runAny filled candidates secondRan
    cases merged with
    | failed merged =>
      cases pruned with
      | failed pruned => exact .failed (same.trans ((merged.near.trans pruned).level refused))

/-- A choice that is dispatched refuses behind the cursor what it refuses in order. -/
theorem Steady.runChoice_dispatched
    (runs : ∀ child, grammar.Steady words child →
      SimulatesAt Near Level run (grammar.meaning words true) child)
    {stamp : Stamp} {alternatives : List Node} {isOptional : Bool}
    (steady : grammar.Steady words (.choice stamp alternatives isOptional)) {state state' : State}
    (near : Near state state') :
    Within (SameAnswer Near Level)
      (grammar.runChoice words run false stamp alternatives isOptional state)
      (grammar.runChoice words (grammar.meaning words true) true stamp alternatives isOptional
        state') := by
  have alike := near_alike words
  have parts : ∀ alternative ∈ alternatives, grammar.Steady words alternative :=
    fun alternative member => steady.child member
  intro answer ended
  rw [runChoice_eq] at ended
  obtain ⟨first, ran, rfl⟩ := Option.map_eq_some_iff.mp ended
  change grammar.runAny words run (grammar.candidates stamp alternatives _) state = _ at ran
  suffices ∃ last, grammar.runAny words (grammar.meaning words true) alternatives state' =
      some last ∧ SameAnswer Near Level (grammar.chosen alternatives isOptional first)
        (grammar.chosen alternatives isOptional last) by
    obtain ⟨last, lastRan, same⟩ := this
    exact ⟨_, by rw [runChoice_eq]; exact Option.map_eq_some_iff.mpr ⟨last, lastRan, rfl⟩, same⟩
  by_cases nothing : grammar.candidates stamp alternatives (state.currentKind? words) = []
  · rw [nothing] at ran
    cases ran
    obtain ⟨last, lastRan, same⟩ := runAny_filter_mayStart parts rfl near (false, state)
      (by rw [filter_eq_nil_of_candidates nothing]; rfl)
    cases same with
    | failed behind =>
      refine ⟨_, lastRan, alike.chosen_failed alternatives isOptional behind ?_⟩
      rintro unexpected rfl
      have expected := steady.knownFirst_of_candidates nothing
      rw [unexpected] at expected
      cases expected
  · obtain ⟨last, lastRan, same⟩ := runAny_dispatched runs parts near nothing first ran
    exact ⟨last, lastRan, alike.chosen alternatives isOptional same⟩

/-- Where every node is steady, a run in which choices are dispatched ends like one in which they
are made in order, with no difference in what it refused but up to the cursor, and none at all if it
failed. -/
theorem Steady.runNode_simulates_inOrder (fuel : Nat) (steady : grammar.Steady words node) :
    SimulatesAt Near Level (grammar.runNode words false fuel) (grammar.meaning words true)
      node := by
  induction fuel generalizing node with
  | zero => exact fun _ _ _ => .none _
  | succ fuel ih =>
    refine steady.step ((failure_moves words).runNode false fuel) (fun child => ih) ?_
    intro stamp alternatives isOptional steady state state' near
    exact steady.runChoice_dispatched (fun child => ih) near

end

end Offside.Grammar
