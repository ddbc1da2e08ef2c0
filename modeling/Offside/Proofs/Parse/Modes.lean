import Offside.Proofs.Grammar.Closure
import Offside.Proofs.Parse.Clean
import Offside.Proofs.Run.Modes
import Offside.Proofs.Run.Termination

/-! # Both ways to make choices report the same

What a parse of a whole file hands out depends on the furthest word that was refused: it is where a
parse that stops short is said to have stopped, and where the rest of the input is set apart. Up to
that word, the two ways to make choices differ in what they expected there and in nothing else,
provided that nothing goes back behind what it refused.
-/

namespace Offside.Parse

open Grammar Source Token Syntax

/-- Results that differ in nothing but what would have been expected. -/
structure Result.ReportsAs (first second : Result) : Prop where
  success : first.outcome.success = second.outcome.success
  position : first.outcome.position = second.outcome.position
  tree : first.tree = second.tree
  /-- The same kinds of errors are reported at the same places. -/
  errors : first.errors.map (fun error => (error.code, error.span)) =
    second.errors.map fun error => (error.code, error.span)

/-! ## The rest of the input -/

section

variable {words : Array Word} {state other : State}

/-- A parse got as far as it took or refused words. -/
theorem State.position_outcome (state : State) (success : Bool) :
    (state.outcome success).position = max state.failure.position state.position := by
  unfold State.outcome
  split
  · next behind =>
    have le : state.failure.position ≤ state.position :=
      of_decide_eq_true (Bool.and_eq_true_iff.mp behind).2
    exact (Nat.max_eq_right le).symm
  · rfl

theorem State.atEnd_eq_of_trail (same : state.trail = other.trail) :
    state.atEnd words = other.atEnd words := by
  unfold State.atEnd
  rw [show state.position = other.position from congrArg Trail.position same]

theorem State.trail_bumpTimes_eq (same : state.trail = other.trail) (count : Nat) :
    (state.bumpTimes words count).trail = (other.bumpTimes words count).trail := by
  induction count generalizing state other with
  | zero => exact same
  | succ count ih => exact ih (trail_bump_eq same)

/-- Setting the rest apart depends on the trail and on how far the parse got. -/
theorem State.trail_setApart_eq (same : state.trail = other.trail) (index : Nat) :
    (state.setApart words index).trail = (other.setApart words index).trail := by
  have position : state.position = other.position := congrArg Trail.position same
  have begun : (state.bumpTimes words _).trail = (other.bumpTimes words _).trail :=
    trail_bumpTimes_eq same (min index words.size - state.position)
  unfold State.setApart
  rw [← position]
  dsimp only
  generalize state.bumpTimes words (min index words.size - state.position) = behind at begun ⊢
  generalize other.bumpTimes words (min index words.size - state.position) = behind' at begun ⊢
  have stop : behind.position = behind'.position := congrArg Trail.position begun
  rw [atEnd_eq_of_trail begun, stop]
  split
  · exact begun
  · have opened : (behind.record (.start .error)).trail =
        (behind'.record (.start .error)).trail := by rw [trail_record, trail_record, begun]
    rw [trail_record, trail_record, trail_bumpTimes_eq opened]

variable (words) in
/-- What a grammar came to decides the log, how far it got, and whether it succeeded, by its trail
and by the words it refused behind the cursor. -/
theorem conclude_eq_of_near (matched : Bool) (near : Near state other) :
    let first := conclude words (matched, state)
    let second := conclude words (matched, other)
    first.1.success = second.1.success ∧ first.1.position = second.1.position ∧
      first.2 = second.2 := by
  have complete : (matched && state.atEnd words) = (matched && other.atEnd words) := by
    rw [State.atEnd_eq_of_trail near.trail]
  have position : (state.outcome (matched && state.atEnd words)).position =
      (other.outcome (matched && other.atEnd words)).position := by
    rw [State.position_outcome, State.position_outcome, near.max_eq]
  refine ⟨?_, position, ?_⟩
  · exact (success_outcome ..).trans (complete.trans (success_outcome ..).symm)
  · rw [complete] at position
    simp only [conclude, complete, position]
    apply State.log_eq_of_trail
    rw [State.trail_record, State.trail_record]
    split
    · rw [near.trail]
    · rw [State.trail_setApart_eq near.trail]

end

/-! ## The report -/

theorem span_stoppedShort (source : String) (tokens : List Placed) (index : Nat)
    (expected other : List String) :
    (stoppedShort source tokens index expected).code =
        (stoppedShort source tokens index other).code ∧
      (stoppedShort source tokens index expected).span =
        (stoppedShort source tokens index other).span := by
  unfold stoppedShort
  dsimp only
  split <;> exact ⟨rfl, rfl⟩

/-- What a grammar came to on the same trail is reported alike, if no word behind the cursor was
refused on one side only. -/
theorem reportsAs_of_near (source : String) (tokens : List Placed) (matched : Bool)
    {state other : State} (near : Near state other) :
    (Result.ofAnswer source tokens (matched, state)).ReportsAs
      (Result.ofAnswer source tokens (matched, other)) := by
  have concluded := conclude_eq_of_near (wordsOf source tokens) matched near
  unfold Result.ofAnswer
  generalize conclude (wordsOf source tokens) (matched, state) = first at *
  generalize conclude (wordsOf source tokens) (matched, other) = second at *
  obtain ⟨outcome, events⟩ := first
  obtain ⟨outcome', events'⟩ := second
  obtain ⟨success, position, log⟩ := concluded
  dsimp only at success position log ⊢
  rw [log, success, position]
  cases succeeded : outcome'.success with
  | true => exact ⟨success, position, rfl, rfl⟩
  | false =>
    obtain ⟨code, span⟩ := span_stoppedShort source tokens outcome'.position outcome.expected
      outcome'.expected
    obtain ⟨tree, errors⟩ := Tree.ofCalls_report (replay tokens events') code span
    exact ⟨success, position, tree, errors⟩

/-- In a grammar without left recursion all of whose nodes are steady, the way choices are made
cannot be told from what is reported. -/
theorem reportsAs_of_steady {compiled : Compiled} (free : compiled.grammar.rules.LeftRecursionFree)
    (source : String) (tokens : List Placed)
    (steady : compiled.grammar.Steady (wordsOf source tokens) compiled.root) :
    (parseTokens compiled false source tokens).ReportsAs
      (parseTokens compiled true source tokens) := by
  let words := wordsOf source tokens
  have dispatched :=
    runNode_eq_parse free words false compiled.root .underRoot (Nat.le_refl _)
  have inOrder := runNode_eq_parse free words true compiled.root .underRoot (Nat.le_refl _)
  obtain ⟨answer, ended, same⟩ :=
    steady.runNode_simulates_inOrder _ .underRoot .underRoot (.refl _) _ dispatched
  have ran := runNode_below_meaning _ _ _ _ inOrder
  obtain rfl := Option.some.inj (ended.symm.trans ran)
  unfold parseTokens
  generalize compiled.grammar.parse (wordsOf source tokens) false compiled.root .underRoot = first
    at same ⊢
  generalize compiled.grammar.parse (wordsOf source tokens) true compiled.root .underRoot = second
    at same ⊢
  cases same with
  | matched near => exact reportsAs_of_near source tokens true near
  | failed level => exact reportsAs_of_near source tokens false level.near

/-- A parse that dispatches choices reports what a parse reports that tries alternatives in order,
whatever the source: it succeeds if the other does, gets equally far, builds the same tree and finds
the same errors at the same places. That is so in a checked grammar without left recursion, unless a
choice that has to match is left without alternatives or lookahead that matches goes back behind a
word that it refused. -/
theorem parse_reports_as_in_order {grammar : Grammar} {root : Node} {compiled : Compiled}
    (accepted : compile grammar root = .ok compiled) (free : grammar.rules.LeftRecursionFree)
    (source : String) (tokens : List Placed)
    (filled : ∀ stamp, ¬Reaches grammar.rules root (.choice stamp [] false))
    (looks : ∀ stamp child, Reaches grammar.rules root (.ahead stamp child) →
      grammar.RefusesNothingBehind (wordsOf source tokens) child) :
    (parseTokens compiled false source tokens).ReportsAs
      (parseTokens compiled true source tokens) := by
  obtain ⟨rfl, rfl, defined⟩ := of_compile accepted
  exact reportsAs_of_steady free source tokens ⟨filled, defined, looks⟩

/-- Lookahead at a name of either kind, and then a name that something else than a number
follows. -/
theorem parse_reports_as_in_order_of_lookahead :
    let name : Node :=
      .choice (.made 2) [.token (.made 0) .lowerName, .token (.made 1) .properName] false
    let root : Node := .seq (.made 5) [.ahead (.made 3) name, name, .token (.made 4) .integer]
    let grammar := ofRules .empty
    let tokens := lex .default "a B"
    ∃ stats, compile grammar root = .ok ⟨grammar, root, stats⟩ ∧
      (parseTokens ⟨grammar, root, stats⟩ false "a B" tokens).ReportsAs
        (parseTokens ⟨grammar, root, stats⟩ true "a B" tokens) ∧
      (parseTokens ⟨grammar, root, stats⟩ true "a B" tokens).outcome.position = 1 := by
  intro name root grammar tokens
  have defined : grammar.Defined root :=
    defined_ofRules (show Rules.empty.areDefined root = true by decide)
  have free : grammar.rules.LeftRecursionFree :=
    Rules.leftRecursionFree_of_isInOrder (show Rules.empty.isInOrder [] [] = true by decide)
  have steady : grammar.Steady (wordsOf "a B" tokens) root :=
    steady_of_stayInView defined (by decide)
  obtain ⟨stats, accepted⟩ := exists_compile defined
  have short : (Result.ofAnswer "a B" tokens
      (grammar.parse (wordsOf "a B" tokens) true root .underRoot)).outcome.position = 1 := by
    decide +kernel
  exact ⟨stats, accepted,
    parse_reports_as_in_order accepted free "a B" tokens steady.filled steady.looks, short⟩

/-- Lookahead that matches behind a word that it refused: in order, that word is reported as where
the parse stopped, and with dispatch the one in front of the lookahead. -/
theorem parse_behind_refusal_of_lookahead :
    let pair : Node := .seq (.made 4) [.token (.made 0) .lowerName,
      .choice (.made 3) [.token (.made 1) .integer, .token (.made 2) .properName] false]
    let root : Node := .seq (.made 7) [.ahead (.made 5) pair, .token (.made 6) .integer]
    let grammar := ofRules .empty
    let tokens := lex .default "a B"
    ∃ stats, compile grammar root = .ok ⟨grammar, root, stats⟩ ∧
      grammar.rules.LeftRecursionFree ∧
      (parseTokens ⟨grammar, root, stats⟩ false "a B" tokens).outcome.position = 0 ∧
      (parseTokens ⟨grammar, root, stats⟩ true "a B" tokens).outcome.position = 1 ∧
      (parseTokens ⟨grammar, root, stats⟩ false "a B" tokens).errors.map Error.span = [⟨0, 1⟩] ∧
      (parseTokens ⟨grammar, root, stats⟩ true "a B" tokens).errors.map Error.span = [⟨2, 3⟩] := by
  intro pair root grammar tokens
  have defined : grammar.Defined root :=
    defined_ofRules (show Rules.empty.areDefined root = true by decide)
  have free : grammar.rules.LeftRecursionFree :=
    Rules.leftRecursionFree_of_isInOrder (show Rules.empty.isInOrder [] [] = true by decide)
  let dispatched := Result.ofAnswer "a B" tokens
    (grammar.parse (wordsOf "a B" tokens) false root .underRoot)
  let inOrder := Result.ofAnswer "a B" tokens
    (grammar.parse (wordsOf "a B" tokens) true root .underRoot)
  have early : dispatched.outcome.position = 0 ∧ dispatched.errors.map Error.span = [⟨0, 1⟩] := by
    decide +kernel
  have late : inOrder.outcome.position = 1 ∧ inOrder.errors.map Error.span = [⟨2, 3⟩] := by
    decide +kernel
  obtain ⟨stats, accepted⟩ := exists_compile defined
  exact ⟨stats, accepted, free, early.1, late.1, early.2, late.2⟩

end Offside.Parse
