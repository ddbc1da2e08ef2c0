import Offside.Proofs.Grammar.Closed
import Offside.Proofs.Run.Prediction

/-! # Whatever fails has refused a word

A node fails because of a word that it refuses: the one it began at, or one behind it that it came
to. Two nodes alone fail for nothing, a choice that has no alternatives and a name that has no body.
In order, a node without these two in it never fails before it has refused a word, however it is put
together.
-/

namespace Offside.Grammar

open Parse
open Token (Kind KindSet)

/-- No part of a node fails for nothing. -/
structure Grounded (grammar : Grammar) (root : Node) : Prop where
  filled (stamp : Stamp) : ¬Reaches grammar.rules root (.choice stamp [] false)
  defined : grammar.Defined root

namespace Grounded

variable {grammar : Grammar} {root node : Node} {stamp : Stamp} {rule : String}

theorem of_reaches (grounded : grammar.Grounded root)
    (reached : Reaches grammar.rules root node) : grammar.Grounded node where
  filled stamp below := grounded.filled stamp (reached.trans below)
  defined := grounded.defined.of_reaches reached

theorem child (grounded : grammar.Grounded root) (member : node ∈ root.children) :
    grammar.Grounded node :=
  grounded.of_reaches (.part .root member)

theorem body (grounded : grammar.Grounded (.ref stamp rule))
    (lookup : grammar.rules.body? rule = some node) : grammar.Grounded node :=
  grounded.of_reaches (.body .root lookup)

theorem of_children (parts : ∀ child ∈ root.children, grammar.Grounded child)
    (filled : ∀ stamp, root ≠ .choice stamp [] false)
    (noName : ∀ stamp rule, root ≠ .ref stamp rule) : grammar.Grounded root where
  filled stamp reached := by
    obtain same | ⟨child, member, below⟩ := reached.eq_or_below noName
    · exact filled stamp same.symm
    · exact (parts child member).filled stamp below
  defined := NamesAre.of_children (fun child member => (parts child member).defined) noName

/-- Normal forms stay grounded. -/
theorem closed (grammar : Grammar) : Closed grammar.Grounded where
  seq := by
    intro stamp items
    constructor
    · exact fun grounded item member => grounded.child member
    · exact fun each => of_children each (by simp) (by simp)
  heal := by
    intro stamp child
    constructor
    · exact fun grounded => grounded.child (List.mem_singleton_self _)
    · exact fun grounded => of_children (List.forall_mem_singleton.mpr grounded) (by simp) (by simp)
  empty stamp := of_children (by simp [Node.children]) (by simp) (by simp)
  alternatives grounded alternative member := grounded.child member
  choice some grounded := by
    refine of_children grounded ?_ (by simp)
    rintro stamp ⟨⟩
    simp at some
  never grounded := absurd .root (grounded.filled _)

end Grounded

/-! ## The first step of a node around others -/

/-- The node that is run first, if it is run whenever its word may start it. -/
def Node.leading? : Node → Option Node
  | .oneOrMore _ child | .heal _ child | .ahead _ child | .symbolic _ _ child => some child
  | .fold _ _ start _ | .cont _ _ start _ => some start
  | _ => none

section

variable {grammar : Grammar} {words : Array Word} {run : Runner} {node child : Node}
  {state after : State}

theorem prediction_leading (leads : node.leading? = some child) :
    grammar.prediction node = grammar.prediction child := by
  cases node <;> cases leads <;> rfl

theorem mem_children_of_leading (leads : node.leading? = some child) : child ∈ node.children := by
  cases node <;> cases leads <;> simp [Node.children]

theorem matched_of_runMore {limit : Nat} {answer : Bool × State}
    (ended : grammar.runMore words run child limit state = some answer) : answer.1 = true := by
  induction limit generalizing state with
  | zero => cases ended
  | succ limit ih =>
    rw [runMore_succ] at ended
    split at ended
    · obtain ⟨first, -, ended⟩ := Option.bind_eq_some_iff.mp ended
      split at ended
      · exact ih ended
      · cases ended
        rfl
    · cases ended
      rfl

theorem matched_of_runFold {kind : Syntax.Kind} {checkpoint limit : Nat} {answer : Bool × State}
    (ended : grammar.runFold words run kind child checkpoint limit state = some answer) :
    answer.1 = true := by
  induction limit generalizing state with
  | zero => cases ended
  | succ limit ih =>
    rw [runFold_succ] at ended
    obtain ⟨first, -, ended⟩ := Option.bind_eq_some_iff.mp ended
    split at ended
    · split at ended
      · cases ended
        rfl
      · exact ih ended
    · cases ended
      rfl

theorem eq_of_eat {kind : Kind} (failed : state.eat words kind = (false, after)) :
    after = state.expect (.single kind) := by
  unfold State.eat at failed
  split at failed
  · cases failed
  · exact (congrArg Prod.snd failed).symm

theorem eq_of_eatText {kind : Kind} {spelling : String}
    (failed : state.eatText words kind spelling = (false, after)) :
    after = state.expectText spelling := by
  unfold State.eatText at failed
  split at failed
  · cases failed
  · exact (congrArg Prod.snd failed).symm

/-- A choice fails behind its alternatives, and expects what they are known to start with. -/
theorem eq_of_runChoice {naive isOptional : Bool} {stamp : Stamp} {alternatives : List Node}
    (ended : grammar.runChoice words run naive stamp alternatives isOptional state =
      some (false, after)) :
    isOptional = false ∧ ∃ behind,
      grammar.runAny words run (grammar.tried naive stamp alternatives (state.currentKind? words))
        state = some (false, behind) ∧
      after = if (grammar.knownFirst alternatives).isEmpty then behind
        else behind.expect (grammar.knownFirst alternatives) := by
  rw [runChoice_eq] at ended
  obtain ⟨⟨matched, behind⟩, ran, same⟩ := Option.map_eq_some_iff.mp ended
  cases matched with
  | true => cases same
  | false =>
    simp only [chosen, Bool.false_eq_true, ↓reduceIte, Prod.mk.injEq] at same
    exact ⟨same.1, behind, ran, same.2.symm⟩

/-- How a node fails around its first step: the next word is refused at once, or the step fails
where the node began. -/
inductive FailsAtFirst (grammar : Grammar) (run : Runner) (child : Node) (state after : State) :
    Prop
  | refused (same : after.failure = (grammar.refused child state).failure)
  | failed {begun behind : State} (ran : run child begun = some (false, behind))
    (position : begun.position = state.position) (begins : begun.failure = state.failure)
    (ends : after.failure = behind.failure)

theorem failsAtFirst_of_step {naive : Bool} (leads : node.leading? = some child)
    (ended : grammar.step words run naive node state = some (false, after)) :
    grammar.FailsAtFirst run child state after := by
  cases node with
  | token | text | empty | seq | choice | ref | relax | relaxTo => cases leads
  | oneOrMore stamp inner =>
    cases leads
    rw [step_oneOrMore] at ended
    obtain ⟨⟨matched, behind⟩, ran, ended⟩ := Option.bind_eq_some_iff.mp ended
    cases matched with
    | true => cases matched_of_runMore ended
    | false =>
      cases ended
      exact .failed ran rfl rfl rfl
  | heal stamp inner =>
    cases leads
    change grammar.runHealed words run child state = _ at ended
    obtain rfl | ⟨behind, ran, rfl⟩ := failed_of_runHealed ended
    · exact .refused rfl
    · exact .failed ran rfl rfl rfl
  | ahead stamp inner =>
    cases leads
    obtain ⟨⟨matched, behind⟩, ran, same⟩ := Option.map_eq_some_iff.mp ended
    cases same
    exact .failed ran rfl rfl rfl
  | symbolic stamp kind inner =>
    cases leads
    rw [step_symbolic] at ended
    split at ended
    · obtain ⟨⟨matched, behind⟩, ran, same⟩ := Option.map_eq_some_iff.mp ended
      cases matched with
      | true => cases same
      | false =>
        cases same
        exact .failed ran rfl rfl (State.failure_abandon ..)
    · cases ended
      exact .refused rfl
  | fold stamp kind start next =>
    cases leads
    rw [step_fold] at ended
    split at ended
    · obtain ⟨⟨matched, behind⟩, ran, ended⟩ := Option.bind_eq_some_iff.mp ended
      cases matched with
      | true => cases matched_of_runFold ended
      | false =>
        cases ended
        exact .failed ran rfl rfl rfl
    · cases ended
      exact .refused rfl
  | cont stamp kind start rest =>
    cases leads
    rw [step_cont] at ended
    obtain ⟨⟨matched, behind⟩, ran, ended⟩ := Option.bind_eq_some_iff.mp ended
    cases matched with
    | true =>
      obtain ⟨answer, -, same⟩ := Option.map_eq_some_iff.mp ended
      cases same
    | false =>
      cases ended
      exact .failed ran rfl rfl rfl

end

/-! ## Failures in order -/

/-- If the node fails, it has refused a word that is not in front of the one it began at. -/
def RefusesAt (run : Runner) (node : Node) : Prop :=
  ∀ state after, run node state = some (false, after) → state.position ≤ after.failure.position

section

variable {grammar : Grammar} {words : Array Word} {run : Runner} {node : Node} {nodes : List Node}
  {state after : State}

theorem refusesAt_runHealed (refuses : RefusesAt run node) :
    RefusesAt (grammar.runHealed words run) node := by
  intro state after ended
  obtain rfl | ⟨behind, ran, rfl⟩ := failed_of_runHealed ended
  · exact failure_expect state _ ▸ Nat.le_max_right ..
  · exact refuses state behind ran

/-- Items that are run in turn fail at the first of them, or behind what they took. -/
theorem refuses_runAll (onward : Keeps (fun state after => state.trail.GoesOnTo after.trail) run)
    (refuses : ∀ node ∈ nodes, RefusesAt run node)
    (ended : runAll run nodes state = some (false, after)) :
    state.position ≤ after.failure.position := by
  induction nodes generalizing state with
  | nil => cases ended
  | cons node rest ih =>
    obtain ⟨own, others⟩ := List.forall_mem_cons.mp refuses
    rw [runAll_cons] at ended
    obtain ⟨⟨matched, behind⟩, ran, ended⟩ := Option.bind_eq_some_iff.mp ended
    cases matched with
    | true => exact (onward node state _ ran).position_le.trans (ih others ended)
    | false =>
      cases ended
      exact own state after ran

/-- Nodes that are tried in turn refuse what the first of them refuses. -/
theorem refuses_runAny
    (further : Keeps (fun state after => state.failure.position ≤ after.failure.position) run)
    (filled : nodes ≠ []) (refuses : ∀ node ∈ nodes, RefusesAt run node)
    (ended : grammar.runAny words run nodes state = some (false, after)) :
    state.position ≤ after.failure.position := by
  obtain ⟨node, rest, rfl⟩ := List.exists_cons_of_ne_nil filled
  rw [runAny_cons] at ended
  obtain ⟨⟨matched, behind⟩, ran, ended⟩ := Option.bind_eq_some_iff.mp ended
  cases matched with
  | true => cases ended
  | false =>
    have refused := refusesAt_runHealed (refuses node (List.mem_cons_self ..)) state behind ran
    exact refused.trans ((failure_moves words).within.runAny (fun node _ => further node) ended)

/-- One step of a grounded node refuses a word if it fails. -/
theorem Grounded.refusesAt_step (grounded : grammar.Grounded node)
    (onward : Keeps (fun state after => state.trail.GoesOnTo after.trail) run)
    (further : Keeps (fun state after => state.failure.position ≤ after.failure.position) run)
    (runs : ∀ child, grammar.Grounded child → RefusesAt run child) :
    RefusesAt (grammar.step words run true) node := by
  intro state after ended
  cases leads : node.leading? with
  | some child =>
    have part : grammar.Grounded child := grounded.child (mem_children_of_leading leads)
    cases failsAtFirst_of_step leads ended with
    | refused same =>
      rw [same]
      exact failure_expect state _ ▸ Nat.le_max_right ..
    | failed ran position begins ends =>
      rw [ends, ← position]
      exact runs child part _ _ ran
  | none =>
    cases node with
    | oneOrMore | heal | ahead | symbolic | fold | cont => cases leads
    | token stamp kind =>
      obtain rfl := eq_of_eat (Option.some.inj ended)
      exact failure_expect state _ ▸ Nat.le_max_right ..
    | text stamp kind spelling =>
      obtain rfl := eq_of_eatText (Option.some.inj ended)
      exact failure_expectText state _ ▸ Nat.le_max_right ..
    | empty => cases ended
    | seq stamp items =>
      exact refuses_runAll onward (fun item member => runs item (grounded.child member)) ended
    | choice stamp alternatives isOptional =>
      obtain ⟨rfl, behind, ran, rfl⟩ := eq_of_runChoice ended
      have filled : alternatives ≠ [] := by
        rintro rfl
        exact grounded.filled stamp .root
      have refused := refuses_runAny further filled
        (fun alternative member => runs alternative (grounded.child member)) ran
      split
      · exact refused
      · exact refused.trans ((failure_moves words).expect behind _)
    | ref stamp rule =>
      rw [step_ref] at ended
      split at ended
      · next body lookup => exact runs body (grounded.body lookup) state after ended
      · next missing =>
        have defined := grounded.defined stamp rule .root
        rw [missing] at defined
        cases defined
    | relax stamp child message =>
      obtain ⟨answer, -, same⟩ := Option.map_eq_some_iff.mp ended
      cases same
    | relaxTo stamp child recovery message =>
      rw [step_relaxTo] at ended
      obtain ⟨⟨matched, behind⟩, -, ended⟩ := Option.bind_eq_some_iff.mp ended
      cases matched with
      | true => cases ended
      | false =>
        obtain ⟨skipped, -, same⟩ := Option.map_eq_some_iff.mp ended
        cases same

theorem Grounded.refusesAt_runNode (fuel : Nat) (grounded : grammar.Grounded node) :
    RefusesAt (grammar.runNode words true fuel) node := by
  induction fuel generalizing node with
  | zero => exact fun state after ended => nomatch ended
  | succ fuel ih =>
    exact grounded.refusesAt_step ((goesOnTo_moves words).runNode true fuel)
      ((failure_moves words).runNode true fuel) fun child => ih

/-- In order, a grounded node that fails has refused the word it began at, or one behind it. -/
theorem Grounded.refusesAt (grounded : grammar.Grounded node) :
    RefusesAt (grammar.meaning words true) node := by
  intro state after ended
  obtain ⟨fuel, ran⟩ := meaning_eq_some_iff.mp ended
  exact grounded.refusesAt_runNode fuel state after ran

end

end Offside.Grammar
