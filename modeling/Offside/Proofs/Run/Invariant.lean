import Offside.Proofs.Run.Equations

/-! # What every run keeps

A relation between the state before and the state after holds of all runs when it holds of the few
moves that runs are made of. The moves are listed once, and every part of a run is taken through
them once; what is to be known about runs is then a matter of moves. The first use is that runs
only add to the log.

Some relations hold only as long as no node of certain kinds is opened. For them the moves are told
which kinds may be, and only the nodes that a run really comes to have to keep to that.
-/

namespace Offside.Grammar

open Parse
open Token (Kind KindSet)

/-- Words that are skipped one by one, with probes in between. -/
inductive Passes (words : Array Word) (rel : State → State → Prop) : State → State → Prop
  | stop (state : State) : Passes words rel state state
  | probe {state after : State} {answer : Bool × State} (within : rel state answer.2)
    (later : Passes words rel (probed state answer) after) : Passes words rel state after
  | word {state after : State} {word : Word} (next : state.current? words = some word)
    (later : Passes words rel (state.bump words) after) : Passes words rel state after

/-- A relation between states that the moves of a parse keep, as long as only nodes of some kinds
are opened. -/
structure KeptWithin (words : Array Word) (opens : Syntax.Kind → Prop)
    (rel : State → State → Prop) : Prop where
  refl (state : State) : rel state state
  trans {first second third : State} : rel first second → rel second third → rel first third
  bump (state : State) : rel state (state.bump words)
  expect (state : State) (kinds : KindSet) : rel state (state.expect kinds)
  expectText (state : State) (text : String) : rel state (state.expectText text)
  report (state : State) (message : String) :
    rel state (state.record (.diagnostic message state.position state.position))
  /-- A node around what happened inside of it. -/
  node {state after : State} {kind : Syntax.Kind} (allowed : opens kind) :
    rel (state.record (.start kind)) after → rel state (after.record .finish)
  abandon {state after : State} {kind : Syntax.Kind} (allowed : opens kind) :
    rel (state.record (.start kind)) after → rel state (after.abandon state.checkpoint)
  wrap {state after : State} {kind : Syntax.Kind} (allowed : opens kind) :
    rel state after → rel state (wrapped state.checkpoint kind after)
  undo {state after : State} : rel state after → rel state (after.rollback state.mark)
  skip {state after : State} (message : String)
    (passes : Passes words rel (state.record (.start .error)) after) :
    rel state ((after.record .finish).record (.diagnostic message state.position after.position))

/-- A way to run nodes keeps a relation at a node. -/
def KeepsAt (rel : State → State → Prop) (run : Runner) (node : Node) : Prop :=
  ∀ state answer, run node state = some answer → rel state answer.2

/-- The nodes that one step of a node may ask for. -/
inductive Asks (grammar : Grammar) (naive : Bool) : Node → Node → Prop
  | part {node child : Node} (member : child ∈ node.children) : Asks grammar naive node child
  | tried {stamp : Stamp} {alternatives : List Node} {isOptional : Bool} {next? : Option Kind}
    {child : Node} (member : child ∈ grammar.tried naive stamp alternatives next?) :
    Asks grammar naive (.choice stamp alternatives isOptional) child
  | body {stamp : Stamp} {rule : String} {body : Node}
    (lookup : grammar.rules.body? rule = some body) : Asks grammar naive (.ref stamp rule) body

/-- The kind of syntax node that a node opens. -/
def Node.opened? : Node → Option Syntax.Kind
  | .symbolic _ kind _ | .fold _ kind _ _ | .cont _ kind _ _ => some kind
  | _ => none

namespace KeptWithin

variable {grammar : Grammar} {words : Array Word} {opens : Syntax.Kind → Prop} {run : Runner}
  {rel : State → State → Prop} (moves : KeptWithin words opens rel)

include moves

theorem eat (state : State) (kind : Kind) : rel state (state.eat words kind).2 := by
  unfold State.eat
  split
  · exact moves.bump state
  · exact moves.expect state _

theorem eatText (state : State) (kind : Kind) (text : String) :
    rel state (state.eatText words kind text).2 := by
  unfold State.eatText
  split
  · exact moves.bump state
  · exact moves.expectText state _

theorem runHealed {node : Node} (runs : KeepsAt rel run node) :
    KeepsAt rel (grammar.runHealed words run) node := by
  intro state answer ended
  rw [runHealed_eq] at ended
  split at ended
  · obtain ⟨answer, ran, rfl⟩ := Option.map_eq_some_iff.mp ended
    have within := runs _ _ ran
    unfold kept
    split
    · exact within
    · exact moves.undo within
  · cases ended
    exact moves.expect state _

theorem runAll {nodes : List Node} (runs : ∀ node ∈ nodes, KeepsAt rel run node) {state : State}
    {answer : Bool × State} (ended : runAll run nodes state = some answer) :
    rel state answer.2 := by
  induction nodes generalizing state with
  | nil =>
    cases ended
    exact moves.refl state
  | cons node rest ih =>
    obtain ⟨own, others⟩ := List.forall_mem_cons.mp runs
    rw [runAll_cons] at ended
    obtain ⟨first, ran, ended⟩ := Option.bind_eq_some_iff.mp ended
    have within := own _ _ ran
    split at ended
    · exact moves.trans within (ih others ended)
    · cases ended
      exact within

theorem runAny {nodes : List Node} (runs : ∀ node ∈ nodes, KeepsAt rel run node) {state : State}
    {answer : Bool × State} (ended : grammar.runAny words run nodes state = some answer) :
    rel state answer.2 := by
  induction nodes generalizing state with
  | nil =>
    cases ended
    exact moves.refl state
  | cons node rest ih =>
    obtain ⟨own, others⟩ := List.forall_mem_cons.mp runs
    rw [runAny_cons] at ended
    obtain ⟨first, ran, ended⟩ := Option.bind_eq_some_iff.mp ended
    have within := moves.runHealed own _ _ ran
    split at ended
    · cases ended
      exact within
    · exact moves.trans within (ih others ended)

theorem runChoice {naive : Bool} {stamp : Stamp} {alternatives : List Node} {isOptional : Bool}
    (runs : ∀ next?, ∀ node ∈ grammar.tried naive stamp alternatives next?, KeepsAt rel run node)
    {state : State} {answer : Bool × State}
    (ended : grammar.runChoice words run naive stamp alternatives isOptional state = some answer) :
    rel state answer.2 := by
  rw [runChoice_eq] at ended
  obtain ⟨answer, ran, rfl⟩ := Option.map_eq_some_iff.mp ended
  have within := moves.runAny (runs _) ran
  unfold chosen
  split
  · exact within
  · dsimp only
    split
    · exact within
    · exact moves.trans within (moves.expect _ _)

theorem runMore {child : Node} (runs : KeepsAt rel run child) {limit : Nat} {state : State}
    {answer : Bool × State} (ended : grammar.runMore words run child limit state = some answer) :
    rel state answer.2 := by
  induction limit generalizing state with
  | zero => cases ended
  | succ limit ih =>
    rw [runMore_succ] at ended
    split at ended
    · obtain ⟨first, ran, ended⟩ := Option.bind_eq_some_iff.mp ended
      have within := runs _ _ ran
      split at ended
      · exact moves.trans within (ih ended)
      · cases ended
        exact within
    · cases ended
      exact moves.expect state _

theorem runFold {kind : Syntax.Kind} (allowed : opens kind) {next : Node}
    (runs : KeepsAt rel run next) {limit : Nat} {base state : State} {answer : Bool × State}
    (sofar : rel base state)
    (ended : grammar.runFold words run kind next base.checkpoint limit state = some answer) :
    rel base answer.2 := by
  induction limit generalizing state with
  | zero => cases ended
  | succ limit ih =>
    rw [runFold_succ] at ended
    obtain ⟨first, ran, ended⟩ := Option.bind_eq_some_iff.mp ended
    have within := moves.trans sofar (moves.runHealed runs _ _ ran)
    split at ended
    · split at ended
      · cases ended
        exact moves.wrap allowed within
      · exact ih (moves.wrap allowed within) ended
    · cases ended
      exact within

omit moves in
theorem skipTo {recovery : Node} (runs : KeepsAt rel run recovery) {depth limit : Nat}
    {state after : State} (ended : skipTo words run recovery depth limit state = some after) :
    Passes words rel state after := by
  induction limit generalizing depth state with
  | zero => cases ended
  | succ limit ih =>
    rw [skipTo_succ] at ended
    split at ended
    · cases ended
      exact .stop _
    · next kind present =>
      obtain ⟨word, next, -⟩ := Option.map_eq_some_iff.mp present
      split at ended
      · obtain ⟨answer, ran, ended⟩ := Option.bind_eq_some_iff.mp ended
        split at ended
        · cases ended
          exact .probe (runs _ _ ran) (.stop _)
        · exact .probe (runs _ _ ran) (.word next (ih ended))
      · exact .word next (ih ended)

section

variable {naive : Bool} {stamp : Stamp} {kind : Syntax.Kind} {child : Node}

theorem oneOrMore (runs : KeepsAt rel run child) :
    KeepsAt rel (grammar.step words run naive) (.oneOrMore stamp child) := by
  intro state answer ended
  rw [step_oneOrMore] at ended
  obtain ⟨first, ran, ended⟩ := Option.bind_eq_some_iff.mp ended
  have within := runs _ _ ran
  split at ended
  · exact moves.trans within (moves.runMore runs ended)
  · cases ended
    exact within

theorem symbolic (allowed : opens kind) (runs : KeepsAt rel run child) :
    KeepsAt rel (grammar.step words run naive) (.symbolic stamp kind child) := by
  intro state answer ended
  rw [step_symbolic] at ended
  split at ended
  · obtain ⟨answer, ran, rfl⟩ := Option.map_eq_some_iff.mp ended
    have within := runs _ _ ran
    dsimp only
    split
    · exact moves.node allowed within
    · exact moves.abandon allowed within
  · cases ended
    exact moves.expect state _

theorem fold {next : Node} (allowed : opens kind) (runs : KeepsAt rel run child)
    (runsNext : KeepsAt rel run next) :
    KeepsAt rel (grammar.step words run naive) (.fold stamp kind child next) := by
  intro state answer ended
  rw [step_fold] at ended
  split at ended
  · obtain ⟨first, ran, ended⟩ := Option.bind_eq_some_iff.mp ended
    have within := runs _ _ ran
    split at ended
    · exact moves.runFold allowed runsNext within ended
    · cases ended
      exact within
  · cases ended
    exact moves.expect state _

theorem cont {rest : Node} (allowed : opens kind) (runs : KeepsAt rel run child)
    (runsRest : KeepsAt rel run rest) :
    KeepsAt rel (grammar.step words run naive) (.cont stamp kind child rest) := by
  intro state answer ended
  rw [step_cont] at ended
  obtain ⟨first, ran, ended⟩ := Option.bind_eq_some_iff.mp ended
  have within := runs _ _ ran
  split at ended
  · obtain ⟨last, ran, rfl⟩ := Option.map_eq_some_iff.mp ended
    have through := moves.trans within (moves.runHealed runsRest _ _ ran)
    dsimp only
    split
    · exact moves.wrap allowed through
    · exact through
  · cases ended
    exact within

theorem ref {rule : String}
    (runs : ∀ body, grammar.rules.body? rule = some body → KeepsAt rel run body) :
    KeepsAt rel (grammar.step words run naive) (.ref stamp rule) := by
  intro state answer ended
  rw [step_ref] at ended
  split at ended
  · next body lookup => exact runs body lookup _ _ ended
  · cases ended
    exact moves.refl state

theorem relax {message : String} (runs : KeepsAt rel run child) :
    KeepsAt rel (grammar.step words run naive) (.relax stamp child message) := by
  intro state answer ended
  obtain ⟨answer, ran, rfl⟩ := Option.map_eq_some_iff.mp ended
  have within := moves.runHealed runs _ _ ran
  dsimp only
  split
  · exact within
  · exact moves.trans within (moves.report _ _)

theorem relaxTo {recovery : Node} {message : String} (runs : KeepsAt rel run child)
    (runsRecovery : KeepsAt rel run recovery) :
    KeepsAt rel (grammar.step words run naive) (.relaxTo stamp child recovery message) := by
  intro state answer ended
  rw [step_relaxTo] at ended
  obtain ⟨first, ran, ended⟩ := Option.bind_eq_some_iff.mp ended
  have within := moves.runHealed runs _ _ ran
  split at ended
  · cases ended
    exact within
  · obtain ⟨skipped, ran, rfl⟩ := Option.map_eq_some_iff.mp ended
    exact moves.trans within (moves.skip message (skipTo runsRecovery ran))

end

/-- What runs of the nodes keep that it may ask for, one step of a node keeps. -/
theorem step (naive : Bool) {node : Node} (allowed : ∀ kind, node.opened? = some kind → opens kind)
    (runs : ∀ child, Asks grammar naive node child → KeepsAt rel run child) :
    KeepsAt rel (grammar.step words run naive) node := by
  have parts : ∀ child ∈ node.children, KeepsAt rel run child := fun child member =>
    runs child (.part member)
  cases node with
  | token _ kind =>
    intro state answer ended
    cases ended
    exact moves.eat state kind
  | text _ kind spelling =>
    intro state answer ended
    cases ended
    exact moves.eatText state kind spelling
  | empty =>
    intro state answer ended
    cases ended
    exact moves.refl state
  | seq => exact fun _ _ ended => moves.runAll parts ended
  | choice =>
    exact fun _ _ ended => moves.runChoice (fun _ child member => runs child (.tried member)) ended
  | ref => exact moves.ref fun body lookup => runs body (.body lookup)
  | ahead =>
    intro state answer ended
    obtain ⟨answer, ran, rfl⟩ := Option.map_eq_some_iff.mp ended
    exact moves.undo (List.forall_mem_singleton.mp parts _ _ ran)
  | heal => exact fun _ _ ended => moves.runHealed (List.forall_mem_singleton.mp parts) _ _ ended
  | oneOrMore => exact moves.oneOrMore (List.forall_mem_singleton.mp parts)
  | symbolic _ kind =>
    exact moves.symbolic (allowed kind rfl) (List.forall_mem_singleton.mp parts)
  | relax => exact moves.relax (List.forall_mem_singleton.mp parts)
  | fold _ kind =>
    obtain ⟨runsStart, behind⟩ := List.forall_mem_cons.mp parts
    exact moves.fold (allowed kind rfl) runsStart (List.forall_mem_singleton.mp behind)
  | cont _ kind =>
    obtain ⟨runsStart, behind⟩ := List.forall_mem_cons.mp parts
    exact moves.cont (allowed kind rfl) runsStart (List.forall_mem_singleton.mp behind)
  | relaxTo =>
    obtain ⟨runsChild, behind⟩ := List.forall_mem_cons.mp parts
    exact moves.relaxTo runsChild (List.forall_mem_singleton.mp behind)

/-- What the moves keep, runs keep at all nodes of a set that they do not leave, if those open only
nodes of the allowed kinds. -/
theorem runNode_of_closed {naive : Bool} {inside : Node → Prop}
    (allowed : ∀ node, inside node → ∀ kind, node.opened? = some kind → opens kind)
    (closed : ∀ node, inside node → ∀ child, Asks grammar naive node child → inside child)
    (fuel : Nat) {node : Node} (member : inside node) :
    KeepsAt rel (grammar.runNode words naive fuel) node := by
  induction fuel generalizing node with
  | zero => intro state answer ended; cases ended
  | succ fuel ih =>
    exact moves.step naive (allowed node member) fun child asks =>
      ih (closed node member child asks)

end KeptWithin

/-! ## Whatever is opened -/

/-- A relation between states that the moves of a parse keep. -/
structure KeptByMoves (words : Array Word) (rel : State → State → Prop) : Prop where
  refl (state : State) : rel state state
  trans {first second third : State} : rel first second → rel second third → rel first third
  bump (state : State) : rel state (state.bump words)
  expect (state : State) (kinds : KindSet) : rel state (state.expect kinds)
  expectText (state : State) (text : String) : rel state (state.expectText text)
  report (state : State) (message : String) (start stop : Nat) :
    rel state (state.record (.diagnostic message start stop))
  /-- A node around what happened inside of it. -/
  node {state after : State} {kind : Syntax.Kind} :
    rel (state.record (.start kind)) after → rel state (after.record .finish)
  abandon {state after : State} {kind : Syntax.Kind} :
    rel (state.record (.start kind)) after → rel state (after.abandon state.checkpoint)
  wrap {state after : State} (kind : Syntax.Kind) :
    rel state after → rel state (wrapped state.checkpoint kind after)
  undo {state after : State} : rel state after → rel state (after.rollback state.mark)
  forget {state : State} {answer : Bool × State} :
    rel state answer.2 → rel state (probed state answer)

/-- A way to run nodes keeps a relation. -/
def Keeps (rel : State → State → Prop) (run : Runner) : Prop :=
  ∀ node state answer, run node state = some answer → rel state answer.2

namespace KeptByMoves

variable {grammar : Grammar} {words : Array Word} {run : Runner} {rel : State → State → Prop}
  (moves : KeptByMoves words rel)

include moves

theorem passes {state after : State} (passes : Passes words rel state after) : rel state after := by
  induction passes with
  | stop state => exact moves.refl state
  | probe within _ ih => exact moves.trans (moves.forget within) ih
  | word _ _ ih => exact moves.trans (moves.bump _) ih

/-- Skipping is no move of its own where nodes of every kind may be opened. -/
theorem within : KeptWithin words (fun _ => True) rel where
  refl := moves.refl
  trans := moves.trans
  bump := moves.bump
  expect := moves.expect
  expectText := moves.expectText
  report state message := moves.report state message _ _
  node _ := moves.node
  abandon _ := moves.abandon
  wrap _ := moves.wrap _
  undo := moves.undo
  skip message passes := moves.trans (moves.node (moves.passes passes)) (moves.report _ message _ _)

/-- What runs of the nodes below keep, one step keeps. -/
theorem step (runs : Keeps rel run) (naive : Bool) : Keeps rel (grammar.step words run naive) :=
  fun _ => moves.within.step naive (fun _ _ => trivial) fun child _ => runs child

/-- What the moves keep, runs keep. -/
theorem runNode (naive : Bool) (fuel : Nat) : Keeps rel (grammar.runNode words naive fuel) := by
  induction fuel with
  | zero => intro node state answer ended; cases ended
  | succ fuel ih => exact moves.step ih naive

end KeptByMoves

/-- Runs go on from the trail they began with. -/
theorem goesOnTo_moves (words : Array Word) :
    KeptByMoves words fun state after => state.trail.GoesOnTo after.trail where
  refl state := .refl state.trail
  trans := .trans
  bump state := by
    rw [State.trail_bump]
    split
    · exact .refl state.trail
    · exact .token state.trail
  expect state kinds := by
    rw [State.trail_expect]
    exact .refl state.trail
  expectText state text := by
    rw [State.trail_expectText]
    exact .refl state.trail
  report state message start stop := by
    rw [State.trail_record]
    exact .report state.trail message start stop
  node inner := by
    rw [State.trail_record] at *
    exact inner.node
  abandon inner := by
    rw [State.trail_abandon, State.checkpoint_eq]
    rw [State.trail_record] at inner
    exact inner.abandon
  wrap kind onward := by
    unfold wrapped
    rw [State.trail_record, State.trail_wrapAt, State.checkpoint_eq]
    exact onward.wrap kind
  undo onward := by
    rw [State.trail_rollback, State.mark_eq, onward.rollback]
    exact .refl _
  forget onward := by
    unfold probed
    rw [State.trail_follow, State.mark_eq, onward.rollback]
    exact .refl _

end Offside.Grammar
