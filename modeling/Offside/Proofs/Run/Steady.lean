import Offside.Proofs.Grammar.Language
import Offside.Proofs.Run.Dispatch
import Offside.Proofs.Run.Grounded
import Offside.Proofs.Run.Refusals

/-! # Nodes whose refusals stay in view

Runs that differ in refusals up to the cursor stay that close as long as whatever fails refuses the
word it began at, or one behind it, and nothing goes back behind a refusal but failures. Two
constructs break this: a choice without alternatives fails without refusing anything, and lookahead
that matches goes back behind what it refused. Nodes among which neither is found are steady.
-/

namespace Offside.Grammar

open Parse
open Token (Kind KindSet)

/-- When the node matches, with choices tried in order, it has refused no word behind the one that
it began at. -/
def RefusesNothingBehind (grammar : Grammar) (words : Array Word) (node : Node) : Prop :=
  ∀ fuel state after, grammar.runNode words true fuel node state = some (true, after) →
    after.failure.position ≤ max state.failure.position state.position

/-- No part of a node takes refusals out of view. -/
structure Steady (grammar : Grammar) (words : Array Word) (root : Node) : Prop where
  filled (stamp : Stamp) : ¬Reaches grammar.rules root (.choice stamp [] false)
  defined : grammar.Defined root
  /-- Lookahead goes back behind nothing that it refused. -/
  looks (stamp : Stamp) (child : Node) : Reaches grammar.rules root (.ahead stamp child) →
    grammar.RefusesNothingBehind words child

/-- A choice without candidates has no alternatives that the next token does not rule out. -/
theorem filter_eq_nil_of_candidates {grammar : Grammar} {stamp : Stamp} {alternatives : List Node}
    {next? : Option Kind} (nothing : grammar.candidates stamp alternatives next? = []) :
    (alternatives.filter fun node => mayStart (grammar.prediction node) next?) = [] := by
  rw [← map_fst_selected]
  have runs := List.mapIdx_eq_nil_iff.mp nothing
  rw [← List.flatten_splitBy (fun first second : Node => first.head.isSame second.head)
    ((grammar.selected alternatives next?).map Prod.fst), runs]
  rfl

namespace Steady

variable {grammar : Grammar} {words : Array Word} {root node : Node} {stamp : Stamp}

theorem of_reaches (steady : grammar.Steady words root)
    (reached : Reaches grammar.rules root node) : grammar.Steady words node where
  filled stamp below := steady.filled stamp (reached.trans below)
  defined stamp rule below := steady.defined stamp rule (reached.trans below)
  looks stamp child below := steady.looks stamp child (reached.trans below)

theorem child (steady : grammar.Steady words root) (member : node ∈ root.children) :
    grammar.Steady words node :=
  steady.of_reaches (.part .root member)

theorem body (steady : grammar.Steady words (.ref stamp rule))
    (lookup : grammar.rules.body? rule = some node) : grammar.Steady words node :=
  steady.of_reaches (.body .root lookup)

theorem grounded (steady : grammar.Steady words root) : grammar.Grounded root :=
  ⟨steady.filled, steady.defined⟩

/-- A node is steady if its parts are, unless it is one of those that have to be looked at. -/
theorem of_children (parts : ∀ child ∈ root.children, grammar.Steady words child)
    (filled : ∀ stamp, root ≠ .choice stamp [] false)
    (noName : ∀ stamp rule, root ≠ .ref stamp rule)
    (noLookahead : ∀ stamp child, root ≠ .ahead stamp child) : grammar.Steady words root where
  filled stamp reached := by
    obtain same | ⟨child, member, below⟩ := reached.eq_or_below noName
    · exact filled stamp same.symm
    · exact (parts child member).filled stamp below
  defined stamp rule reached := by
    obtain same | ⟨child, member, below⟩ := reached.eq_or_below noName
    · exact absurd same.symm (noName stamp rule)
    · exact (parts child member).defined stamp rule below
  looks stamp inner reached := by
    obtain same | ⟨child, member, below⟩ := reached.eq_or_below noName
    · exact absurd same.symm (noLookahead stamp inner)
    · exact (parts child member).looks stamp inner below

/-! ## Normal forms -/

/-- Steady nodes stay steady in normal form. -/
theorem closed (grammar : Grammar) (words : Array Word) : Closed (grammar.Steady words) where
  seq := by
    intro stamp items
    constructor
    · exact fun steady item member => steady.child member
    · exact fun each => of_children each (by simp) (by simp) (by simp)
  heal := by
    intro stamp child
    constructor
    · exact fun steady => steady.child (List.mem_singleton_self _)
    · exact fun steady => of_children (List.forall_mem_singleton.mpr steady) (by simp) (by simp)
        (by simp)
  empty stamp := of_children (by simp [Node.children]) (by simp) (by simp) (by simp)
  alternatives steady alternative member := steady.child member
  choice some steady := by
    refine of_children steady ?_ (by simp) (by simp)
    rintro stamp ⟨⟩
    simp at some
  never {stamp _} steady := absurd .root (steady.filled stamp)

/-! ## Something is expected -/

/-- By what is known about rules whose sets have members, every set that is known has members. -/
private theorem exists_contains_of_first {known : FirstSets}
    (rules : ∀ stamp rule kinds, grammar.Steady words (.ref stamp rule) →
      known.of rule = some kinds → ∃ kind, kinds.contains kind = true) (node : Node) :
    ∀ kinds, grammar.Steady words node → node.first known = some kinds →
      ∃ kind, kinds.contains kind = true := by
  induction node using Node.childInduction with
  | step node ih =>
    intro kinds steady found
    cases node with
    | token _ kind | text _ kind _ =>
      cases found
      exact ⟨kind, by simp⟩
    | empty | relax | relaxTo => cases found
    | seq _ items =>
      cases items with
      | nil => cases found
      | cons item rest =>
        have member := List.mem_cons_self (a := item) (l := rest)
        exact ih item member kinds (steady.child member) found
    | choice stamp alternatives isOptional =>
      cases isOptional with
      | true => cases found
      | false =>
        cases alternatives with
        | nil => exact absurd .root (steady.filled stamp)
        | cons first rest =>
          obtain ⟨own, others, foundOwn, -, rfl⟩ := Node.firstOfAll_cons_eq_some.mp found
          have member := List.mem_cons_self (a := first) (l := rest)
          obtain ⟨kind, inside⟩ := ih first member own (steady.child member) foundOwn
          exact ⟨kind, by simp [inside]⟩
    | oneOrMore _ child | heal _ child | ahead _ child | symbolic _ _ child =>
      exact ih child (List.mem_singleton_self _) kinds
        (steady.child (List.mem_singleton_self _)) found
    | fold _ _ start _ | cont _ _ start _ =>
      exact ih start (List.mem_cons_self ..) kinds (steady.child (List.mem_cons_self ..)) found
    | ref stamp rule => exact rules stamp rule kinds steady found

/-- A steady node is never known to start with nothing at all. -/
theorem exists_contains {kinds : KindSet} (steady : grammar.Steady words node)
    (predicted : grammar.prediction node = some kinds) : ∃ kind, kinds.contains kind = true := by
  suffices ∀ rounds, ∀ (node : Node) (kinds : KindSet), grammar.Steady words node →
      node.first (grammar.rules.firstSetsAfter rounds) = some kinds →
      ∃ kind, kinds.contains kind = true by
    rw [prediction, firstSets_eq_after] at predicted
    exact this _ node kinds steady predicted
  intro rounds
  induction rounds with
  | zero =>
    refine exists_contains_of_first fun stamp rule kinds _ found => ?_
    cases found
  | succ rounds ih =>
    refine exists_contains_of_first fun stamp rule kinds steady found => ?_
    rw [Rules.firstSetsAfter, Rules.of_lookThrough] at found
    obtain ⟨body, lookup, first⟩ := Option.bind_eq_some_iff.mp found
    exact ih body kinds (steady.body lookup) first

/-- Where no alternative of a choice that has to match is left, some are known to start
otherwise. -/
theorem knownFirst_of_candidates {alternatives : List Node} {next? : Option Kind}
    (steady : grammar.Steady words (.choice stamp alternatives false))
    (nothing : grammar.candidates stamp alternatives next? = []) :
    (grammar.knownFirst alternatives).isEmpty = false := by
  cases alternatives with
  | nil => exact absurd .root (steady.filled stamp)
  | cons first rest =>
    have member := List.mem_cons_self (a := first) (l := rest)
    have ruledOut := List.filter_eq_nil_iff.mp (filter_eq_nil_of_candidates nothing) first member
    cases predicted : grammar.prediction first with
    | none =>
      rw [predicted] at ruledOut
      exact absurd rfl ruledOut
    | some kinds =>
      obtain ⟨kind, inside⟩ := (steady.child member).exists_contains predicted
      exact KindSet.isEmpty_of_contains (contains_knownFirst member predicted inside)

end Steady

/-! ## Checking that nodes are steady -/

mutual

/-- Whether a node looks at the next word and at none behind it. -/
def Node.looksAtOneWord : Node → Bool
  | .token .. | .text .. | .empty _ => true
  | .choice _ alternatives _ => Node.allLookAtOneWord alternatives
  | .heal _ child => child.looksAtOneWord
  | _ => false

/-- Whether several nodes do, each on its own. -/
def Node.allLookAtOneWord : List Node → Bool
  | [] => true
  | node :: rest => node.looksAtOneWord && Node.allLookAtOneWord rest

end

mutual

/-- Whether every lookahead in a node looks at one word, and every choice has alternatives or may
be left out. -/
def Node.staysInView : Node → Bool
  | .token .. | .text .. | .empty _ | .ref .. => true
  | .seq _ items => Node.allStayInView items
  | .choice _ alternatives isOptional =>
    (isOptional || !alternatives.isEmpty) && Node.allStayInView alternatives
  | .ahead _ child => child.looksAtOneWord && child.staysInView
  | .oneOrMore _ child | .heal _ child | .symbolic _ _ child | .relax _ child _ =>
    child.staysInView
  | .fold _ _ first second | .cont _ _ first second | .relaxTo _ first second _ =>
    first.staysInView && second.staysInView

/-- Whether that is so in several nodes. -/
def Node.allStayInView : List Node → Bool
  | [] => true
  | node :: rest => node.staysInView && Node.allStayInView rest

end

/-- Whether it is so in a node and in the bodies of all rules. -/
def Rules.stayInView (rules : Rules) (root : Node) : Bool :=
  root.staysInView && rules.bodies.all fun (_, body) => body.staysInView

section

variable {grammar : Grammar} {words : Array Word} {run : Runner} {root node : Node}

theorem looksAtOneWord_of_mem {nodes : List Node} (looks : Node.allLookAtOneWord nodes = true) :
    ∀ node ∈ nodes, node.looksAtOneWord = true := by
  induction nodes with
  | nil => simp
  | cons first rest ih =>
    obtain ⟨own, others⟩ := Bool.and_eq_true_iff.mp looks
    exact List.forall_mem_cons.mpr ⟨own, ih others⟩

theorem staysInView_of_mem {nodes : List Node} (stay : Node.allStayInView nodes = true) :
    ∀ node ∈ nodes, node.staysInView = true := by
  induction nodes with
  | nil => simp
  | cons first rest ih =>
    obtain ⟨own, others⟩ := Bool.and_eq_true_iff.mp stay
    exact List.forall_mem_cons.mpr ⟨own, ih others⟩

/-- The state before a run, and the state behind it if no word further on was refused. -/
def RefusesHere (state after : State) : Prop :=
  after.failure.position ≤ max state.failure.position state.position

theorem refusesHere_runHealed (runs : KeepsAt RefusesHere run node) :
    KeepsAt RefusesHere (grammar.runHealed words run) node := by
  intro state answer ended
  rw [runHealed_eq] at ended
  split at ended
  · obtain ⟨first, ran, rfl⟩ := Option.map_eq_some_iff.mp ended
    have here := runs state first ran
    unfold kept
    split
    · exact here
    · exact here
  · cases ended
    exact Nat.le_of_eq (failure_expect state _)

theorem refusesHere_runAny
    (onward : Keeps (fun state after => state.trail.GoesOnTo after.trail) run) {nodes : List Node}
    (runs : ∀ node ∈ nodes, KeepsAt RefusesHere run node) {state : State}
    {answer : Bool × State} (ended : grammar.runAny words run nodes state = some answer) :
    RefusesHere state answer.2 := by
  induction nodes generalizing state with
  | nil =>
    cases ended
    exact Nat.le_max_left ..
  | cons node rest ih =>
    obtain ⟨own, others⟩ := List.forall_mem_cons.mp runs
    rw [runAny_cons] at ended
    obtain ⟨⟨matched, behind⟩, ran, ended⟩ := Option.bind_eq_some_iff.mp ended
    have here := refusesHere_runHealed own state _ ran
    cases matched with
    | true =>
      cases ended
      exact here
    | false =>
      have position : behind.position = state.position :=
        congrArg Trail.position (trail_of_runHealed onward ran)
      have later := ih others ended
      unfold RefusesHere at *
      rw [position] at later
      exact later.trans (Nat.max_le.mpr ⟨here, Nat.le_max_right ..⟩)

/-- What looks at the next word only refuses no word behind it. -/
theorem refusesHere_of_looksAtOneWord (looks : node.looksAtOneWord = true) (fuel : Nat) :
    KeepsAt RefusesHere (grammar.runNode words true fuel) node := by
  induction node using Node.childInduction generalizing fuel with
  | step node ih =>
    intro state answer ended
    obtain ⟨less, -, ended⟩ := step_of_runNode ended
    cases node with
    | token _ kind =>
      cases ended
      unfold State.eat
      split
      · rw [RefusesHere, State.failure_bump]
        exact Nat.le_max_left ..
      · exact Nat.le_of_eq (failure_expect state _)
    | text _ kind spelling =>
      cases ended
      unfold State.eatText
      split
      · rw [RefusesHere, State.failure_bump]
        exact Nat.le_max_left ..
      · exact Nat.le_of_eq (failure_expectText state _)
    | empty =>
      cases ended
      exact Nat.le_max_left ..
    | choice stamp alternatives isOptional =>
      change grammar.runChoice words _ true stamp alternatives isOptional state = _ at ended
      rw [runChoice_eq] at ended
      obtain ⟨⟨matched, after⟩, ran, rfl⟩ := Option.map_eq_some_iff.mp ended
      have onward : Keeps (fun state after => state.trail.GoesOnTo after.trail)
          (grammar.runNode words true less) := (goesOnTo_moves words).runNode true less
      have here := refusesHere_runAny onward
        (fun node member => ih node member (looksAtOneWord_of_mem looks node member) less) ran
      cases matched with
      | true => exact here
      | false =>
        simp only [chosen, Bool.false_eq_true, ↓reduceIte]
        split
        · exact here
        · have position : after.position = state.position :=
            congrArg Trail.position (trail_of_runAny onward ran)
          rw [RefusesHere, failure_expect, position]
          exact Nat.max_le.mpr ⟨here, Nat.le_max_right ..⟩
    | heal _ child =>
      exact refusesHere_runHealed (ih child (List.mem_singleton_self _) looks less) state _ ended
    | seq | oneOrMore | ahead | symbolic | fold | cont | ref | relax | relaxTo => cases looks

theorem staysInView_child (stays : root.staysInView = true) (member : node ∈ root.children) :
    node.staysInView = true := by
  cases root with
  | token | text | empty | ref => cases member
  | seq => exact staysInView_of_mem stays node member
  | choice => exact staysInView_of_mem (Bool.and_eq_true_iff.mp stays).2 node member
  | ahead =>
    obtain rfl := List.mem_singleton.mp member
    exact (Bool.and_eq_true_iff.mp stays).2
  | oneOrMore | heal | symbolic | relax =>
    obtain rfl := List.mem_singleton.mp member
    exact stays
  | fold | cont | relaxTo =>
    obtain ⟨first, second⟩ := Bool.and_eq_true_iff.mp stays
    simp only [Node.children, List.mem_cons, List.not_mem_nil, or_false] at member
    rcases member with rfl | rfl
    · exact first
    · exact second

/-- A root is steady if it is defined and checked. -/
theorem steady_of_stayInView (defined : grammar.Defined root)
    (stay : grammar.rules.stayInView root = true) : grammar.Steady words root := by
  obtain ⟨inRoot, inBodies⟩ := Bool.and_eq_true_iff.mp stay
  have checked : ∀ {node}, Reaches grammar.rules root node → node.staysInView = true := by
    intro node reached
    induction reached with
    | root => exact inRoot
    | part _ member ih => exact staysInView_child ih member
    | body _ lookup => exact List.all_eq_true.mp inBodies _ (Rules.mem_bodies lookup)
  refine ⟨fun stamp reached => ?_, defined, fun stamp child reached => ?_⟩
  · cases checked reached
  · have looks := (Bool.and_eq_true_iff.mp (checked reached)).1
    exact fun fuel state after ended =>
      refusesHere_of_looksAtOneWord looks fuel state (true, after) ended

end

end Offside.Grammar
