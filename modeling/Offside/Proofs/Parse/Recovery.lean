import Offside.Proofs.Parse.Clean
import Offside.Proofs.Parse.Reported

/-! # Nothing is skipped silently

The one error node without a report of its own is that for the rest of the input, the last below the
root; it starts at the word that the parse stopped short of, and the error at this word is reported.
So a parse without errors left nothing out, and whatever was skipped is told.
-/

namespace Offside.Parse

open Source Token Syntax

/-! ## The log of a whole file -/

section

variable {words : Array Word}

/-- The log of a whole file is accounted for up to where the parse stopped short, and the rest of
the words is set apart. -/
theorem log_conclude_apart {answer : Bool × State}
    (onward : State.underRoot.trail.GoesOnAccounted answer.2.trail)
    (bounded : answer.2.position ≤ words.size) :
    ∃ front, (conclude words answer).2 = .start .file :: ((front ++
        apart (words.size - min (conclude words answer).1.position words.size)) ++ [.finish]) ∧
      Accounted 0 front ∧ Nested Event.role front ∧
      front.count .token = min (conclude words answer).1.position words.size := by
  obtain ⟨events, wraps, grown, same, accounted⟩ := onward
  obtain ⟨log, nested, count⟩ := log_conclude_grown grown same bounded
  exact ⟨_, log, accounted.append (.words _), nested, count⟩

/-- Words are refused where there are words, or behind the last. -/
theorem refusals_moves (words : Array Word) :
    Grammar.KeptByMoves words fun state after =>
      state.position ≤ words.size ∧ state.failure.position ≤ words.size →
        after.position ≤ words.size ∧ after.failure.position ≤ words.size where
  refl _ := id
  trans first second bounded := second (first bounded)
  bump state bounded := by
    refine ⟨(positions_moves words).bump state bounded.1, ?_⟩
    unfold State.bump
    split <;> exact bounded.2
  expect state kinds bounded := by
    refine ⟨(positions_moves words).expect state kinds bounded.1, ?_⟩
    rw [Grammar.failure_expect]
    exact Nat.max_le.mpr bounded.symm
  expectText state text bounded := by
    refine ⟨(positions_moves words).expectText state text bounded.1, ?_⟩
    rw [Grammar.failure_expectText]
    exact Nat.max_le.mpr bounded.symm
  report _ _ _ _ := id
  node inner := inner
  abandon {state after kind} inner bounded := by
    unfold State.abandon
    split <;> exact inner bounded
  wrap _ onward := onward
  undo onward bounded := ⟨bounded.1, (onward bounded).2⟩
  forget _ bounded := bounded

/-- Whether a run ends or not, words are taken and refused up to the end at most. -/
theorem refusals_parseWithin (grammar : Grammar) (words : Array Word) (naive : Bool) (fuel : Nat)
    (node : Grammar.Node) {state : State}
    (bounded : state.position ≤ words.size ∧ state.failure.position ≤ words.size) :
    let after := (grammar.parseWithin words naive fuel node state).2
    after.position ≤ words.size ∧ after.failure.position ≤ words.size := by
  unfold Grammar.parseWithin
  cases ended : grammar.runNode words naive fuel node state with
  | none => exact bounded
  | some answer => exact (refusals_moves words).runNode naive fuel node state answer ended bounded

end

/-! ## Replaying the log of a file -/

/-- The calls for a root node around what is in front of the words set apart, and these words. They
become the tokens from the first of them to the last, with trivia in front and behind. -/
theorem Ahead.replay_apart {tokens later : List Placed} {front : List Event} {calls : List Call}
    {left : Nat} (ahead : Ahead (significant tokens) (front.count .token) later)
    (replayed : ∀ rest, replayFrom (significant tokens).toArray tokens 1 (front ++ rest) =
      calls ++ replayFrom (significant tokens).toArray later 1 rest)
    (all : front.count .token + left = (significant tokens).length) :
    let log := .start .file :: ((front ++ apart left) ++ [.finish])
    left = 0 ∧ replay tokens log = .start .file :: ((calls ++ later.map .token) ++ [.finish]) ∨
      left ≠ 0 ∧ ∃ trivia rest behind : List Placed, later = trivia ++ (rest ++ behind) ∧
        significant trivia = [] ∧
        significant rest = (significant tokens).drop (front.count .token) ∧
        significant behind = [] ∧ rest.head? = (significant rest).head? ∧
        rest.getLast? = (significant rest).getLast? ∧
        replay tokens log = .start .file :: ((calls ++ trivia.map .token) ++ .start .error ::
          (rest.map .token ++ .finish :: (behind.map .token ++ [.finish]))) := by
  intro log
  have begun : replay tokens log = .start .file :: (calls ++
      replayFrom (significant tokens).toArray later 1 (apart left ++ [.finish])) := by
    rw [replay, replayFrom, if_pos rfl, List.append_assoc, replayed]
  rw [begun]
  by_cases none : left = 0
  · refine .inl ⟨none, ?_⟩
    simp [none, apart, replayFrom]
  · obtain ⟨rest, behind, split, same, last, onward, taken⟩ :=
      ahead.dropTrivia.replayFrom_words (Nat.le_of_eq all) 2
    have whole := List.takeWhile_append_dropWhile (p := fun token : Placed => token.kind.isTrivia)
      (l := later)
    have words := onward.left
    rw [all, List.drop_length] at words
    rw [List.take_of_length_le (by rw [List.length_drop]; omega)] at same
    refine .inr ⟨none, _, rest, behind, (split ▸ whole).symm, significant_takeTrivia later, same,
      words, head?_of_dropTrivia split, last, ?_⟩
    rw [apart, if_neg none, List.cons_append, List.append_assoc, replayFrom,
      if_neg (Nat.succ_ne_zero 0)]
    simp [taken, replayFrom]

/-- Where what is in front is accounted for, only the error node for the words set apart is without
a report. -/
theorem replay_accounted {tokens : List Placed} (inOrder : InOrder tokens) {front : List Event}
    (accounted : Accounted 0 front) (nested : Nested Event.role front) {left : Nat}
    (all : front.count .token + left = (significant tokens).length) :
    let log := .start .file :: ((front ++ apart left) ++ [.finish])
    ∃ calls, Reported calls ∧ Nested Call.role calls ∧
      (left = 0 ∧ replay tokens log = .start .file :: (calls ++ [.finish]) ∨
        left ≠ 0 ∧ ∃ rest behind : List Placed,
          rest.head? = (significant tokens)[front.count .token]? ∧
          replay tokens log = .start .file :: (calls ++ .start .error :: (rest.map .token ++
            .finish :: (behind.map .token ++ [.finish])))) := by
  intro log
  have fresh : Ahead (significant tokens) 0 tokens := ⟨inOrder, rfl⟩
  obtain ⟨calls, later, reported, ahead, replayed⟩ := replayFrom_accounted accounted
    (nested.depthAfter 0) (by omega) fresh
  rw [Nat.zero_add] at ahead
  have callsNested : Nested Call.role calls := by
    obtain ⟨other, _, handsOn, -, same⟩ :=
      replayFrom_nested (significant tokens).toArray nested tokens 0
    have both := (replayed []).symm.trans (same [])
    simp only [replayFrom, List.append_nil] at both
    exact both ▸ handsOn.nested
  have more : ∀ passed : List Placed, Reported (calls ++ passed.map .token) ∧
      Nested Call.role (calls ++ passed.map .token) := fun passed =>
    ⟨reported.append (List.append_nil (passed.map Call.token) ▸ Reported.tokens passed .nil),
      callsNested.append (HandsOn.tokens passed []).nested⟩
  rcases ahead.replay_apart replayed all with
    ⟨none, same⟩ | ⟨some, trivia, rest, behind, -, -, words, -, first, -, same⟩
  · exact ⟨_, (more later).1, (more later).2, .inl ⟨none, same⟩⟩
  · refine ⟨_, (more trivia).1, (more trivia).2, .inr ⟨some, rest, behind, ?_, same⟩⟩
    rw [first, words, List.head?_drop]

/-! ## Error nodes of trees -/

/-- What accounts for an error node: a report over just the bytes under it, or, for the last child
of the root, the error at the word where it starts. -/
def IsAccountedFor (tree : Tree) (errors : List Error) (id : Nat) : Prop :=
  (∃ message span, .recovered message span ∈ errors ∧
      (tree.HasToken id → tree.span? id = some span)) ∨
    tree.parent? id = some 0 ∧ (∀ other ∈ tree.nodesOfKind .error, other ≤ id) ∧
      ∃ found expected span, .unexpected found expected span ∈ errors ∧
        (tree.HasToken id → ∃ own, tree.span? id = some own ∧ span.lo = own.lo)

/-- Where all error nodes are reported, all are accounted for. -/
theorem isAccountedFor_of_reported {calls : List Call} (reported : Reported calls) :
    ∀ id ∈ (Tree.ofCalls calls).1.nodesOfKind .error,
      IsAccountedFor (Tree.ofCalls calls).1 (Tree.ofCalls calls).2 id := by
  intro id member
  obtain ⟨before, after, split, rfl⟩ := Tree.exists_start_of_mem member
  obtain ⟨tokens, message, span, others, rfl, covers⟩ := reported.of_start split
  exact .inl ⟨message, span, span?_of_reported covers split⟩

/-- Nor is anything else left when the rest of the tokens is set apart below the root and the error
at the first of them is reported. -/
theorem isAccountedFor_of_apart {calls : List Call} (reported : Reported calls)
    (nested : Nested Call.role calls) {rest : List Placed} {first : Placed}
    (leads : rest.head? = some first) (behind : List Placed) (found expected : String) :
    let tail : List Call :=
      behind.map .token ++ [.finish, .report (.unexpected found expected first.span)]
    let whole := .start .file :: (calls ++ .start .error :: (rest.map .token ++ .finish :: tail))
    ∀ id ∈ (Tree.ofCalls whole).1.nodesOfKind .error,
      IsAccountedFor (Tree.ofCalls whole).1 (Tree.ofCalls whole).2 id := by
  intro tail whole id member
  have rooted : Reported (.start .file :: calls) := .call (by simp) reported
  have last : .start .error ∉ rest.map Call.token ++ .finish :: tail := by simp [tail]
  obtain ⟨before, after, split, rfl⟩ := Tree.exists_start_of_mem member
  rcases start_error_cases rooted last split with
    ⟨rfl, rfl⟩ | ⟨-, tokens, message, span, others, rfl, covers⟩
  · obtain ⟨-, -, -, parent, -⟩ := Tree.ofCalls_leaves (.start .file :: calls) tail .error rest
    obtain ⟨added, adds⟩ := Builder.AddsBelow.of_nested nested
      (Builder.AddsBelow.isCurrent_start .empty .file)
    refine .inr ⟨?_, fun other member => ?_, found, expected, first.span, ?_, fun some => ?_⟩
    · exact parent.trans
        (adds.isCurrent (Builder.AddsBelow.isCurrent_start .empty .file)).first
    · obtain ⟨before, after, split, rfl⟩ := Tree.exists_start_of_mem member
      have inFront : before <+: .start .file :: calls := by
        rcases start_error_cases rooted last split with ⟨rfl, -⟩ | ⟨inFront, -⟩
        · exact List.prefix_refl _
        · exact inFront
      obtain ⟨more, same⟩ := inFront
      rw [← same, List.foldl_append]
      exact Builder.size_le_calls _ more
    · exact Tree.mem_errors_ofCalls (by simp [whole, tail])
    · obtain ⟨token, range, isFirst, -, starts, same⟩ :=
        Tree.ofCalls_leaves_of_hasToken (.start .file :: calls) tail .error rest some
      obtain rfl := Option.some.inj (isFirst.symm.trans leads)
      exact ⟨range.span, same, (congrArg Position.offset starts).symm⟩
  · exact .inl ⟨message, span, span?_of_reported covers split⟩

/-! ## Whole files -/

section

variable {source : String} {tokens : List Placed} {answer : Bool × State}

theorem exists_stoppedShort (source : String) {index : Nat} {token : Placed}
    (there : (significant tokens)[index]? = some token) (expected : List String) :
    ∃ found, stoppedShort source tokens index expected =
      .unexpected found (joinExpected expected) token.span := by
  simp only [stoppedShort, there]
  exact ⟨_, rfl⟩

theorem position_le_conclude (words : Array Word) (answer : Bool × State) :
    answer.2.position ≤ (conclude words answer).1.position :=
  answer.2.position_le_outcome _

/-- All error nodes are accounted for when what is in the log is. -/
theorem isAccountedFor_ofAnswer (inOrder : InOrder tokens)
    (onward : State.underRoot.trail.GoesOnAccounted answer.2.trail)
    (bounded : answer.2.position ≤ (wordsOf source tokens).size) :
    let result := Result.ofAnswer source tokens answer
    ∀ id ∈ result.tree.nodesOfKind .error, IsAccountedFor result.tree result.errors id := by
  obtain ⟨front, log, accounted, nested, count⟩ := log_conclude_apart onward bounded
  have complete := @success_ofAnswer source tokens answer
  have reached := position_le_conclude (wordsOf source tokens) answer
  simp only [Result.ofAnswer] at complete ⊢
  generalize conclude (wordsOf source tokens) answer = concluded at *
  obtain ⟨outcome, events⟩ := concluded
  rw [size_wordsOf] at *
  dsimp only at *
  subst log
  have all : front.count .token + ((significant tokens).length -
      min outcome.position (significant tokens).length) = (significant tokens).length := by omega
  obtain ⟨calls, reported, callsNested, shape⟩ := replay_accounted inOrder accounted nested all
  rcases shape with ⟨none, replayed⟩ | ⟨some, rest, behind, leads, replayed⟩
  · rw [replayed]
    refine isAccountedFor_of_reported ?_
    have closed : Reported (.start .file :: (calls ++ [.finish])) :=
      .call (by simp) (reported.append (.call (by simp) .nil))
    split
    · exact closed.append .nil
    · exact closed.append (.call (by simp) .nil)
  · have short : outcome.position < (significant tokens).length := by omega
    have failed : outcome.success = false := by
      refine Bool.eq_false_iff.mpr fun success => ?_
      have all : (wordsOf source tokens).size ≤ answer.2.position :=
        of_decide_eq_true (complete success).2.1
      rw [size_wordsOf] at all
      omega
    have there := List.getElem?_eq_getElem short
    obtain ⟨found, stopped⟩ := exists_stoppedShort source there outcome.expected
    rw [count, Nat.min_eq_left (Nat.le_of_lt short), there] at leads
    rw [replayed, failed, if_neg Bool.false_ne_true, stopped]
    have accountedFor := isAccountedFor_of_apart reported callsNested leads behind found
      (joinExpected outcome.expected)
    simpa using accountedFor

/-- A parse that failed reports it. -/
theorem success_of_errors_eq_nil (none : (Result.ofAnswer source tokens answer).errors = []) :
    (Result.ofAnswer source tokens answer).outcome.success = true := by
  by_contra failed
  have reported : stoppedShort source tokens (conclude (wordsOf source tokens) answer).1.position
      (conclude (wordsOf source tokens) answer).1.expected ∈
        (Result.ofAnswer source tokens answer).errors := by
    simp only [Result.ofAnswer] at failed ⊢
    exact Tree.mem_errors_ofCalls (by simp [failed])
  rw [none] at reported
  cases reported

/-- A parse that succeeded expects nothing more. -/
theorem outcome_of_success (success : (Result.ofAnswer source tokens answer).outcome.success = true)
    (bounded : answer.2.position ≤ (wordsOf source tokens).size ∧
      answer.2.failure.position ≤ (wordsOf source tokens).size) :
    (Result.ofAnswer source tokens answer).outcome = ⟨true, (significant tokens).length, []⟩ := by
  obtain ⟨matched, atEnd, -⟩ := success_ofAnswer success
  have all : (wordsOf source tokens).size ≤ answer.2.position := of_decide_eq_true atEnd
  have behind : answer.2.failure.position ≤ answer.2.position := by omega
  have same : (Result.ofAnswer source tokens answer).outcome =
      answer.2.outcome (answer.1 && answer.2.atEnd (wordsOf source tokens)) := rfl
  rw [same, matched, atEnd, State.outcome, if_pos (by simp [behind])]
  rw [← size_wordsOf source, Nat.le_antisymm bounded.1 all]
  rfl

end

/-- Nothing is skipped silently, whatever the source and however much fuel the run is given, as long
as the grammar opens no error nodes itself. A parse without errors succeeded, took all words,
expects nothing more and left no error node. And every error node with a token in it is accounted
for by an error: one that tells that the grammar recovered, over just the bytes of the node, or, for
the last error node, below the root, one for the unexpected word where the node starts. -/
theorem errors_account_for_skipped (compiled : Grammar.Compiled) (config : Layout.Config)
    (naive : Bool) (source : String) (fuel : Nat)
    (unnamed : compiled.grammar.NamesNo .error compiled.root) :
    let tokens := lex config source
    let answer := compiled.grammar.parseWithin (wordsOf source tokens) naive fuel compiled.root
      .underRoot
    let result := Result.ofAnswer source tokens answer
    (result.errors = [] → result.outcome = ⟨true, (significant tokens).length, []⟩ ∧
        result.tree.nodesOfKind .error = []) ∧
      ∀ id ∈ result.tree.nodesOfKind .error, result.tree.HasToken id →
        ∃ span, result.tree.span? id = some span ∧
          ((∃ message, .recovered message span ∈ result.errors) ∨
            result.tree.parent? id = some 0 ∧
              (∀ other ∈ result.tree.nodesOfKind .error, other ≤ id) ∧
              ∃ found expected stopped, .unexpected found expected stopped ∈ result.errors ∧
                stopped.lo = span.lo) := by
  intro tokens answer result
  obtain ⟨onward, bounded⟩ : State.underRoot.trail.GoesOnAccounted answer.2.trail ∧
      answer.2.position ≤ (wordsOf source tokens).size ∧
      answer.2.failure.position ≤ (wordsOf source tokens).size := by
    have begun : State.underRoot.position ≤ (wordsOf source tokens).size ∧
        State.underRoot.failure.position ≤ (wordsOf source tokens).size :=
      ⟨Nat.zero_le _, Nat.zero_le _⟩
    simp only [answer, Grammar.parseWithin]
    cases ended : compiled.grammar.runNode (wordsOf source tokens) naive fuel compiled.root
        .underRoot with
    | none => exact ⟨.refl _, begun⟩
    | some other => exact ⟨Grammar.goesOnAccounted_runNode unnamed ended,
        (refusals_moves _).runNode naive fuel compiled.root .underRoot other ended begun⟩
  have accountedFor : ∀ id ∈ result.tree.nodesOfKind .error,
      IsAccountedFor result.tree result.errors id :=
    isAccountedFor_ofAnswer (inOrder_lex config source) onward bounded.1
  refine ⟨fun none => ⟨outcome_of_success (success_of_errors_eq_nil none) bounded, ?_⟩,
    fun id member some => ?_⟩
  · refine List.eq_nil_iff_forall_not_mem.mpr fun id member => ?_
    rcases accountedFor id member with ⟨message, span, reported, -⟩ | ⟨-, -, _, _, _, reported, -⟩
    · rw [none] at reported
      cases reported
    · rw [none] at reported
      cases reported
  · rcases accountedFor id member with ⟨message, span, reported, same⟩ |
      ⟨parent, last, found, expected, stopped, reported, same⟩
    · exact ⟨span, same some, .inl ⟨message, reported⟩⟩
    · obtain ⟨span, own, starts⟩ := same some
      exact ⟨span, own, .inr ⟨parent, last, found, expected, stopped, reported, starts⟩⟩

/-- A number is missing in front of a name, and one name is left over. -/
theorem errors_account_for_skipped_words :
    let number : Grammar.Node := .token (.made 0) .integer
    let name : Grammar.Node := .token (.made 1) .properName
    let root : Grammar.Node := .seq (.made 3) [.relaxTo (.made 2) number name "no number", name]
    let compiled : Grammar.Compiled := ⟨.ofRules .empty, root, ⟨4, 0, 0, 0⟩⟩
    let tokens := lex .default "a b C d"
    let answer := compiled.grammar.parseWithin (wordsOf "a b C d" tokens) false 6 compiled.root
      .underRoot
    let result := Result.ofAnswer "a b C d" tokens answer
    compiled.grammar.NamesNo .error compiled.root ∧
      result.tree.nodesOfKind .error = [1, 8] ∧
      result.tree.span? 1 = some ⟨0, 3⟩ ∧ result.tree.span? 8 = some ⟨6, 7⟩ ∧
      ∀ id ∈ result.tree.nodesOfKind .error, result.tree.HasToken id →
        ∃ span, result.tree.span? id = some span ∧
          ((∃ message, .recovered message span ∈ result.errors) ∨
            result.tree.parent? id = some 0 ∧
              (∀ other ∈ result.tree.nodesOfKind .error, other ≤ id) ∧
              ∃ found expected stopped, .unexpected found expected stopped ∈ result.errors ∧
                stopped.lo = span.lo) := by
  intro number name root compiled tokens answer result
  have unnamed : compiled.grammar.NamesNo .error compiled.root := by
    intro node reached
    let nodes : List Grammar.Node :=
      [compiled.root, .relaxTo (.made 2) number name "no number", number, name]
    have inside : node ∈ nodes := reached.mem_of_closed (by simp [nodes])
      (by simp [nodes, compiled, root, number, name, Grammar.Node.children])
    have opens : ∀ node ∈ nodes, node.opened? = none := by
      simp [nodes, compiled, root, number, name, Grammar.Node.opened?]
    rw [opens node inside]
    exact (Option.some_ne_none _).symm
  have nodes : result.tree.nodesOfKind .error = [1, 8] := by decide +kernel
  have first : result.tree.span? 1 = some ⟨0, 3⟩ := by decide +kernel
  have last : result.tree.span? 8 = some ⟨6, 7⟩ := by decide +kernel
  exact ⟨unnamed, nodes, first, last,
    (errors_account_for_skipped compiled .default false "a b C d" 6 unnamed).2⟩

end Offside.Parse
