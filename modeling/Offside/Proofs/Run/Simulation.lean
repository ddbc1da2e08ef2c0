import Offside.Proofs.Run.Limit

/-! # Runs side by side

Two ways to run nodes are compared on states that are near each other. If the second comes to an
answer like that of the first wherever the first comes to one, then so do the runs made of them,
part by part. Choices, lookahead and names are left open here, as they may be run differently on the
two sides.

A failure is undone, so states behind one have to bear going back, which states behind a match need
not: they are level then, which is more than near. States with the same trail are both: refusals and
counts decide nothing.
-/

namespace Offside.Grammar

open Parse
open Token (Kind KindSet)

/-- Wherever the first comes to something, the second comes to something that is related. -/
def Within {α β : Type} (rel : α → β → Prop) (first : Option α) (second : Option β) : Prop :=
  ∀ answer, first = some answer → ∃ other, second = some other ∧ rel answer other

namespace Within

variable {α β γ δ : Type} {rel : α → β → Prop} {next : γ → δ → Prop}

theorem some {answer : α} {other : β} (related : rel answer other) :
    Within rel (some answer) (some other) := by
  rintro _ ⟨⟩
  exact ⟨other, rfl, related⟩

theorem none (second : Option β) : Within rel none second := by
  rintro _ ⟨⟩

theorem bind {first : Option α} {second : Option β} {f : α → Option γ} {g : β → Option δ}
    (begun : Within rel first second)
    (onward : ∀ answer other, rel answer other → Within next (f answer) (g other)) :
    Within next (first.bind f) (second.bind g) := by
  intro answer ended
  obtain ⟨middle, ran, ended⟩ := Option.bind_eq_some_iff.mp ended
  obtain ⟨other, otherRan, related⟩ := begun middle ran
  obtain ⟨last, lastRan, relatedLast⟩ := onward middle other related answer ended
  exact ⟨last, Option.bind_eq_some_iff.mpr ⟨other, otherRan, lastRan⟩, relatedLast⟩

theorem map {first : Option α} {second : Option β} {f : α → γ} {g : β → δ}
    (begun : Within rel first second)
    (onward : ∀ answer other, rel answer other → next (f answer) (g other)) :
    Within next (first.map f) (second.map g) := by
  intro answer ended
  obtain ⟨middle, ran, rfl⟩ := Option.map_eq_some_iff.mp ended
  obtain ⟨other, otherRan, related⟩ := begun middle ran
  exact ⟨g other, Option.map_eq_some_iff.mpr ⟨other, otherRan, rfl⟩, onward middle other related⟩

end Within

/-- Two relations between states, near and level, that make runs go on alike. -/
structure Alike (words : Array Word) (near level : State → State → Prop) : Prop where
  /-- States near each other are on the same trail. -/
  trail {state other : State} : near state other → state.trail = other.trail
  near_of_level {state other : State} : level state other → near state other
  /-- What takes no word keeps states near each other. -/
  log {state other : State} (trail : Trail) : trail.position = state.position →
    near state other → near (state.follow trail) (other.follow trail)
  /-- Level states stay level wherever they go back to. -/
  back {state other : State} (trail : Trail) :
    level state other → level (state.follow trail) (other.follow trail)
  /-- Taking a word keeps states near each other. -/
  bump {state other : State} : near state other → near (state.bump words) (other.bump words)
  expect {state other : State} (kinds : KindSet) :
    near state other → level (state.expect kinds) (other.expect kinds)
  expectText {state other : State} (text : String) :
    near state other → level (state.expectText text) (other.expectText text)

/-- The same answer, in states that are near each other behind a match and level behind a
failure. -/
inductive SameAnswer (near level : State → State → Prop) : Bool × State → Bool × State → Prop
  | matched {state other : State} (same : near state other) :
    SameAnswer near level (true, state) (true, other)
  | failed {state other : State} (same : level state other) :
    SameAnswer near level (false, state) (false, other)

/-- From states near each other, the second way to run a node comes to what the first comes to. -/
def SimulatesAt (near level : State → State → Prop) (run other : Runner) (node : Node) : Prop :=
  ∀ state state', near state state' →
    Within (SameAnswer near level) (run node state) (other node state')

/-- The second way to run nodes comes to what the first comes to at every node. -/
def Simulates (near level : State → State → Prop) (run other : Runner) : Prop :=
  ∀ node, SimulatesAt near level run other node

/-- Neither a choice nor lookahead nor a name. -/
def Node.isPlain : Node → Bool
  | .choice .. | .ahead .. | .ref .. => false
  | _ => true

namespace Alike

variable {grammar : Grammar} {words : Array Word} {run other : Runner}
  {near level : State → State → Prop} (alike : Alike words near level) {state state' : State}

include alike

theorem position_eq (same : near state state') : state.position = state'.position :=
  congrArg Trail.position (alike.trail same)

theorem mark_eq (same : near state state') : state.mark = state'.mark := by
  rw [State.mark_eq, State.mark_eq, alike.trail same]

theorem checkpoint_eq (same : near state state') : state.checkpoint = state'.checkpoint := by
  rw [State.checkpoint_eq, State.checkpoint_eq, alike.trail same]

theorem currentKind?_eq (same : near state state') :
    state.currentKind? words = state'.currentKind? words :=
  State.currentKind?_eq_of_trail (alike.trail same) words

theorem starts_eq (same : near state state') (node : Node) :
    grammar.starts words node state = grammar.starts words node state' := by
  unfold starts
  rw [alike.currentKind?_eq same]

theorem near_of_answer {answer answer' : Bool × State}
    (same : SameAnswer near level answer answer') : near answer.2 answer'.2 := by
  cases same with
  | matched same => exact same
  | failed same => exact alike.near_of_level same

theorem record (same : near state state') (event : Event) :
    near (state.record event) (state'.record event) := by
  rw [State.record_eq, State.record_eq, alike.trail same]
  exact alike.log _ (alike.position_eq same).symm same

theorem rollback (same : level state state') (marker : Marker) :
    level (state.rollback marker) (state'.rollback marker) := by
  rw [State.rollback_eq, State.rollback_eq, alike.trail (alike.near_of_level same)]
  exact alike.back _ same

theorem abandon (same : level state state') (place : Nat) :
    level (state.abandon place) (state'.abandon place) := by
  rw [State.abandon_eq, State.abandon_eq, alike.trail (alike.near_of_level same)]
  exact alike.back _ same

theorem wrapped (same : near state state') (checkpoint : Nat) (kind : Syntax.Kind) :
    near (wrapped checkpoint kind state) (wrapped checkpoint kind state') := by
  unfold Grammar.wrapped
  rw [State.wrapAt_eq, State.wrapAt_eq, alike.trail same]
  exact alike.record (alike.log _ (alike.position_eq same).symm same) .finish

theorem probed (same : near state state') {answer answer' : Bool × State}
    (after : SameAnswer near level answer answer') :
    near (probed state answer) (probed state' answer') := by
  unfold Grammar.probed
  rw [alike.trail (alike.near_of_answer after), alike.mark_eq same]
  exact alike.log _ (alike.position_eq same).symm same

theorem refused (same : near state state') (node : Node) :
    level (grammar.refused node state) (grammar.refused node state') :=
  alike.expect _ same

theorem eat (same : near state state') (kind : Kind) :
    SameAnswer near level (state.eat words kind) (state'.eat words kind) := by
  unfold State.eat State.isAt
  rw [alike.currentKind?_eq same]
  split
  · exact .matched (alike.bump same)
  · exact .failed (alike.expect _ same)

theorem eatText (same : near state state') (kind : Kind) (text : String) :
    SameAnswer near level (state.eatText words kind text) (state'.eatText words kind text) := by
  unfold State.eatText State.current?
  rw [alike.position_eq same]
  split
  · exact .matched (alike.bump same)
  · exact .failed (alike.expectText _ same)

theorem kept {answer answer' : Bool × State} (same : SameAnswer near level answer answer')
    (marker : Marker) : SameAnswer near level (kept marker answer) (kept marker answer') := by
  cases same with
  | matched same => exact .matched same
  | failed same => exact .failed (alike.rollback same marker)

theorem runHealed {node : Node} (runs : SimulatesAt near level run other node) :
    SimulatesAt near level (grammar.runHealed words run) (grammar.runHealed words other) node := by
  intro state state' same
  rw [runHealed_eq, runHealed_eq, alike.starts_eq same, alike.mark_eq same]
  split
  · exact (runs state state' same).map fun _ _ after => alike.kept after _
  · exact .some (.failed (alike.refused same node))

omit alike in
theorem runAll {nodes : List Node} (runs : ∀ node ∈ nodes, SimulatesAt near level run other node)
    (same : near state state') :
    Within (SameAnswer near level) (runAll run nodes state) (runAll other nodes state') := by
  induction nodes generalizing state state' with
  | nil => exact .some (.matched same)
  | cons node rest ih =>
    obtain ⟨first, others⟩ := List.forall_mem_cons.mp runs
    rw [runAll_cons, runAll_cons]
    refine (first state state' same).bind fun answer answer' after => ?_
    cases after with
    | matched after => exact ih others after
    | failed after => exact .some (.failed after)

/-- Nodes in turn, none of which leave states as near each other as they were. -/
theorem runAny {nodes : List Node} (runs : ∀ node ∈ nodes, SimulatesAt near level run other node)
    (same : near state state') (none : nodes = [] → level state state') :
    Within (SameAnswer near level) (grammar.runAny words run nodes state)
      (grammar.runAny words other nodes state') := by
  induction nodes generalizing state state' with
  | nil => exact .some (.failed (none rfl))
  | cons node rest ih =>
    obtain ⟨first, others⟩ := List.forall_mem_cons.mp runs
    rw [runAny_cons, runAny_cons]
    refine (alike.runHealed first state state' same).bind fun answer answer' after => ?_
    cases after with
    | matched after => exact .some (.matched after)
    | failed after => exact ih others (alike.near_of_level after) fun _ => after

/-- If nothing matched, states near each other have to be level only if nothing is expected. -/
theorem chosen_failed (alternatives : List Node) (isOptional : Bool) (same : near state state')
    (none : (grammar.knownFirst alternatives).isEmpty = true → isOptional = false →
      level state state') :
    SameAnswer near level (grammar.chosen alternatives isOptional (false, state))
      (grammar.chosen alternatives isOptional (false, state')) := by
  simp only [Grammar.chosen, Bool.false_eq_true, ↓reduceIte]
  cases isOptional with
  | true =>
    refine .matched ?_
    split
    · exact same
    · exact alike.near_of_level (alike.expect _ same)
  | false =>
    refine .failed ?_
    split
    · next nothing => exact none nothing rfl
    · exact alike.expect _ same

theorem chosen (alternatives : List Node) (isOptional : Bool) {answer answer' : Bool × State}
    (same : SameAnswer near level answer answer') :
    SameAnswer near level (grammar.chosen alternatives isOptional answer)
      (grammar.chosen alternatives isOptional answer') := by
  cases same with
  | matched same => exact .matched same
  | failed same =>
    exact alike.chosen_failed alternatives isOptional (alike.near_of_level same) fun _ _ => same

/-- Choices made in the same way from runs that simulate each other. -/
theorem runChoice {naive : Bool} {stamp : Stamp} {alternatives : List Node} (isOptional : Bool)
    (runs : ∀ next?, ∀ node ∈ grammar.tried naive stamp alternatives next?,
      SimulatesAt near level run other node)
    (same : near state state')
    (none : grammar.tried naive stamp alternatives (state.currentKind? words) = [] →
      (grammar.knownFirst alternatives).isEmpty = true → isOptional = false →
        level state state') :
    Within (SameAnswer near level)
      (grammar.runChoice words run naive stamp alternatives isOptional state)
      (grammar.runChoice words other naive stamp alternatives isOptional state') := by
  rw [runChoice_eq, runChoice_eq, ← alike.currentKind?_eq same]
  by_cases nothing : grammar.tried naive stamp alternatives (state.currentKind? words) = []
  · rw [nothing]
    exact .some (alike.chosen_failed alternatives isOptional same (none nothing))
  · exact (alike.runAny (runs _) same fun missing => absurd missing nothing).map
      fun _ _ => alike.chosen alternatives isOptional

theorem runMore {child : Node} (runs : SimulatesAt near level run other child) (limit : Nat)
    (same : near state state') :
    Within (SameAnswer near level) (grammar.runMore words run child limit state)
      (grammar.runMore words other child limit state') := by
  induction limit generalizing state state' with
  | zero => exact .none _
  | succ limit ih =>
    rw [runMore_succ, runMore_succ, alike.starts_eq same, alike.position_eq same]
    split
    · refine (runs state state' same).bind fun answer answer' after => ?_
      have behind := alike.near_of_answer after
      cases after with
      | matched after =>
        rw [alike.position_eq behind]
        split
        · exact ih after
        · exact .some (.matched after)
      | failed => exact .some (.matched behind)
    · exact .some (.matched (alike.near_of_level (alike.refused same child)))

theorem runFold (kind : Syntax.Kind) {next : Node} (runs : SimulatesAt near level run other next)
    (checkpoint limit : Nat) (same : near state state') :
    Within (SameAnswer near level) (grammar.runFold words run kind next checkpoint limit state)
      (grammar.runFold words other kind next checkpoint limit state') := by
  induction limit generalizing state state' with
  | zero => exact .none _
  | succ limit ih =>
    rw [runFold_succ, runFold_succ, alike.position_eq same]
    refine (alike.runHealed runs state state' same).bind fun answer answer' after => ?_
    cases after with
    | matched after =>
      have around := alike.wrapped after checkpoint kind
      simp only [↓reduceIte, alike.position_eq after]
      split
      · exact .some (.matched around)
      · exact ih around
    | failed after => exact .some (.matched (alike.near_of_level after))

theorem skipTo {recovery : Node} (runs : SimulatesAt near level run other recovery)
    (depth limit : Nat) (same : near state state') :
    Within near (skipTo words run recovery depth limit state)
      (skipTo words other recovery depth limit state') := by
  induction limit generalizing depth state state' with
  | zero => exact .none _
  | succ limit ih =>
    rw [skipTo_succ, skipTo_succ, alike.currentKind?_eq same]
    split
    · exact .some same
    · split
      · refine (runs state state' same).bind fun answer answer' after => ?_
        have back := alike.probed same after
        cases after with
        | matched => exact .some back
        | failed => exact ih _ (alike.bump back)
      · exact ih _ (alike.bump same)

section

variable {naive naive' : Bool} {stamp : Stamp} {kind : Syntax.Kind} {child : Node}

theorem oneOrMore (runs : SimulatesAt near level run other child) :
    SimulatesAt near level (grammar.step words run naive) (grammar.step words other naive')
      (.oneOrMore stamp child) := by
  intro state state' same
  rw [step_oneOrMore, step_oneOrMore]
  refine (runs state state' same).bind fun answer answer' after => ?_
  cases after with
  | matched after => exact alike.runMore runs _ after
  | failed after => exact .some (.failed after)

theorem symbolic (runs : SimulatesAt near level run other child) :
    SimulatesAt near level (grammar.step words run naive) (grammar.step words other naive')
      (.symbolic stamp kind child) := by
  intro state state' same
  rw [step_symbolic, step_symbolic, alike.starts_eq same, alike.checkpoint_eq same]
  split
  · have inside := alike.record same (.start kind)
    refine (runs _ _ inside).map fun answer answer' after => ?_
    cases after with
    | matched after => exact .matched (alike.record after _)
    | failed after => exact .failed (alike.abandon after _)
  · exact .some (.failed (alike.refused same child))

theorem fold {next : Node} (runs : SimulatesAt near level run other child)
    (runsNext : SimulatesAt near level run other next) :
    SimulatesAt near level (grammar.step words run naive) (grammar.step words other naive')
      (.fold stamp kind child next) := by
  intro state state' same
  rw [step_fold, step_fold, alike.starts_eq same, alike.checkpoint_eq same]
  split
  · refine (runs state state' same).bind fun answer answer' after => ?_
    cases after with
    | matched after => exact alike.runFold kind runsNext _ _ after
    | failed after => exact .some (.failed after)
  · exact .some (.failed (alike.refused same child))

theorem cont {rest : Node} (runs : SimulatesAt near level run other child)
    (runsRest : SimulatesAt near level run other rest) :
    SimulatesAt near level (grammar.step words run naive) (grammar.step words other naive')
      (.cont stamp kind child rest) := by
  intro state state' same
  rw [step_cont, step_cont, alike.checkpoint_eq same]
  refine (runs state state' same).bind fun answer answer' after => ?_
  cases after with
  | matched after =>
    refine (alike.runHealed runsRest _ _ after).map fun last last' behind => ?_
    cases behind with
    | matched behind => exact .matched (alike.wrapped behind _ kind)
    | failed behind => exact .matched (alike.near_of_level behind)
  | failed after => exact .some (.failed after)

theorem relax {message : String} (runs : SimulatesAt near level run other child) :
    SimulatesAt near level (grammar.step words run naive) (grammar.step words other naive')
      (.relax stamp child message) := by
  intro state state' same
  refine (alike.runHealed runs state state' same).map fun answer answer' after => ?_
  cases after with
  | matched after => exact .matched after
  | failed after =>
    have behind := alike.near_of_level after
    simp only [Bool.false_eq_true, ↓reduceIte, alike.position_eq behind]
    exact .matched (alike.record behind _)

theorem relaxTo {recovery : Node} {message : String} (runs : SimulatesAt near level run other child)
    (runsRecovery : SimulatesAt near level run other recovery) :
    SimulatesAt near level (grammar.step words run naive) (grammar.step words other naive')
      (.relaxTo stamp child recovery message) := by
  intro state state' same
  rw [step_relaxTo, step_relaxTo]
  refine (alike.runHealed runs state state' same).bind fun answer answer' after => ?_
  cases after with
  | matched after => exact .some (.matched after)
  | failed after =>
    have behind := alike.near_of_level after
    refine (alike.skipTo runsRecovery 0 _ (alike.record behind _)).map
      fun skipped skipped' beyond => ?_
    simp only [alike.position_eq behind, alike.position_eq beyond]
    exact .matched (alike.record (alike.record beyond _) _)

end

/-- One step of a node over runs that simulate each other at its parts. -/
theorem step {naive naive' : Bool} {node : Node} (plain : node.isPlain = true)
    (runs : ∀ child ∈ node.children, SimulatesAt near level run other child) :
    SimulatesAt near level (grammar.step words run naive) (grammar.step words other naive')
      node := by
  cases node with
  | choice | ahead | ref => cases plain
  | token _ kind => exact fun _ _ same => .some (alike.eat same kind)
  | text _ kind spelling => exact fun _ _ same => .some (alike.eatText same kind spelling)
  | empty => exact fun _ _ same => .some (.matched same)
  | seq => exact fun _ _ same => Alike.runAll runs same
  | heal => exact alike.runHealed (List.forall_mem_singleton.mp runs)
  | oneOrMore => exact alike.oneOrMore (List.forall_mem_singleton.mp runs)
  | symbolic => exact alike.symbolic (List.forall_mem_singleton.mp runs)
  | relax => exact alike.relax (List.forall_mem_singleton.mp runs)
  | fold =>
    obtain ⟨runsStart, behind⟩ := List.forall_mem_cons.mp runs
    exact alike.fold runsStart (List.forall_mem_singleton.mp behind)
  | cont =>
    obtain ⟨runsStart, behind⟩ := List.forall_mem_cons.mp runs
    exact alike.cont runsStart (List.forall_mem_singleton.mp behind)
  | relaxTo =>
    obtain ⟨runsChild, behind⟩ := List.forall_mem_cons.mp runs
    exact alike.relaxTo runsChild (List.forall_mem_singleton.mp behind)

/-- Lookahead, if going back behind a match leaves states near each other. -/
theorem step_ahead {naive naive' : Bool} {stamp : Stamp} {child : Node}
    (runs : SimulatesAt near level run other child)
    (goesBack : ∀ state state' after after', near state state' → near after after' →
      run child state = some (true, after) → other child state' = some (true, after') →
      near (after.rollback state.mark) (after'.rollback state.mark)) :
    SimulatesAt near level (grammar.step words run naive) (grammar.step words other naive')
      (.ahead stamp child) := by
  intro state state' same answer ended
  obtain ⟨first, ran, rfl⟩ := Option.map_eq_some_iff.mp ended
  obtain ⟨second, ran', after⟩ := runs state state' same first ran
  refine ⟨_, Option.map_eq_some_iff.mpr ⟨second, ran', rfl⟩, ?_⟩
  rw [← alike.mark_eq same]
  cases after with
  | matched after => exact .matched (goesBack _ _ _ _ same after ran ran')
  | failed after => exact .failed (alike.rollback after _)

omit alike in
/-- A name, if its body simulates and, without one, states are level at once. -/
theorem step_ref {naive naive' : Bool} {stamp : Stamp} {rule : String}
    (runs : ∀ body, grammar.rules.body? rule = some body → SimulatesAt near level run other body)
    (undefined : grammar.rules.body? rule = none →
      ∀ state state', near state state' → level state state') :
    SimulatesAt near level (grammar.step words run naive) (grammar.step words other naive')
      (.ref stamp rule) := by
  intro state state' same
  rw [Grammar.step_ref, Grammar.step_ref]
  split
  · next body lookup => exact runs body lookup state state' same
  · next lookup => exact .some (.failed (undefined lookup state state' same))

end Alike

/-! ## Relations that bear going back from everywhere -/

namespace Alike

variable {grammar : Grammar} {words : Array Word} {run other : Runner} {rel : State → State → Prop}
  (alike : Alike words rel rel)

include alike

/-- If choices simulate each other, then so do all nodes, one step over runs that do. -/
theorem step_all (runs : Simulates rel rel run other) {naive naive' : Bool}
    (choices : ∀ stamp alternatives isOptional state state', rel state state' →
      Within (SameAnswer rel rel)
        (grammar.runChoice words run naive stamp alternatives isOptional state)
        (grammar.runChoice words other naive' stamp alternatives isOptional state')) :
    Simulates rel rel (grammar.step words run naive) (grammar.step words other naive') := by
  intro node
  cases node with
  | choice stamp alternatives isOptional => exact choices stamp alternatives isOptional
  | ahead stamp child =>
    exact alike.step_ahead (runs child) fun _ _ _ _ _ after _ _ => alike.rollback after _
  | ref stamp rule => exact step_ref (fun body _ => runs body) fun _ _ _ same => same
  | _ => exact alike.step rfl fun child _ => runs child

/-- Runs in the same mode simulate each other from states that are alike. -/
theorem runNode (naive : Bool) (fuel : Nat) :
    Simulates rel rel (grammar.runNode words naive fuel) (grammar.runNode words naive fuel) := by
  induction fuel with
  | zero => exact fun _ _ _ _ => .none _
  | succ fuel ih =>
    exact alike.step_all ih fun stamp alternatives isOptional _ _ same =>
      alike.runChoice isOptional (fun _ node _ => ih node) same fun _ _ _ => same

theorem meaning (naive : Bool) :
    Simulates rel rel (grammar.meaning words naive) (grammar.meaning words naive) := by
  intro node state state' same answer ended
  obtain ⟨fuel, ran⟩ := meaning_eq_some_iff.mp ended
  obtain ⟨answer', ran', related⟩ := alike.runNode naive fuel node state state' same answer ran
  exact ⟨answer', meaning_eq_some_iff.mpr ⟨fuel, ran'⟩, related⟩

end Alike

/-- On the same trail. -/
def SameTrail (state other : State) : Prop := state.trail = other.trail

/-- States on the same trail go on alike. -/
theorem sameTrail_alike (words : Array Word) : Alike words SameTrail SameTrail where
  trail same := same
  near_of_level same := same
  log trail _ _ := by rw [SameTrail, State.trail_follow, State.trail_follow]
  back trail _ := by rw [SameTrail, State.trail_follow, State.trail_follow]
  bump {state other} same := by
    have atEnd : state.atEnd words = other.atEnd words := by
      unfold State.atEnd
      rw [show state.position = other.position from congrArg Trail.position same]
    unfold SameTrail at *
    rw [State.trail_bump, State.trail_bump, same, atEnd]
  expect kinds same := by
    unfold SameTrail at *
    rw [State.trail_expect, State.trail_expect, same]
  expectText text same := by
    unfold SameTrail at *
    rw [State.trail_expectText, State.trail_expectText, same]

end Offside.Grammar
