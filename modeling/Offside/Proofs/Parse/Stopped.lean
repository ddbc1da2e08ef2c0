import Offside.PureScript.Diagnosis
import Offside.Proofs.Parse.Recovery

/-! # Where a failed parse stopped

Besides what recovery passed over, a parse reports one thing if it failed and nothing if it did not.
If words are left, it is the first of them that is reported, and they are set apart: all of them are
in the last node below the root, an error node, and all others lie in front of it. So the message
about the word can point at everything from there on.
-/

namespace Offside

open Source Token Syntax

/-- Whether the error is about something that recovery passed over. -/
def Syntax.Error.isRecovered : Error → Bool
  | .recovered .. => true
  | _ => false

namespace Parse

/-! ## What is reported -/

section

variable (source : String) (tokens : List Placed) (answer : Bool × State)

theorem isRecovered_stoppedShort (index : Nat) (expected : List String) :
    (stoppedShort source tokens index expected).isRecovered = false := by
  rw [stoppedShort]
  split <;> rfl

/-- Besides what recovery passed over, a parse that failed reports where it stopped, and no other
parse reports anything. -/
theorem stops_ofAnswer :
    let result := Result.ofAnswer source tokens answer
    (result.errors.filter fun error => !error.isRecovered) =
      if result.outcome.success then []
      else [stoppedShort source tokens result.outcome.position result.outcome.expected] := by
  intro result
  let log := replay tokens (conclude (wordsOf source tokens) answer).2
  let failure := if result.outcome.success then [] else
    [Call.report (stoppedShort source tokens result.outcome.position result.outcome.expected)]
  have inLog : (log.filterMap Call.error?).filter (fun error => !error.isRecovered) = [] := by
    refine List.filter_eq_nil_iff.mpr fun error member => ?_
    rw [show log.filterMap _ = _ from errors_replayFrom ..] at member
    obtain ⟨event, -, reports⟩ := List.mem_filterMap.mp member
    cases event with
    | diagnostic =>
      cases reports
      simp [Error.isRecovered]
    | _ => cases reports
  have reported : result.errors.Perm ((log ++ failure).filterMap Call.error?) :=
    Tree.errors_ofCalls_perm (log ++ failure)
  have others := reported.filter fun error => !error.isRecovered
  rw [List.filterMap_append, List.filter_append, inLog, List.nil_append] at others
  cases success : result.outcome.success with
  | true =>
    simp only [failure, success, ↓reduceIte, List.filterMap_nil, List.filter_nil] at others
    exact others.eq_nil
  | false =>
    simp only [failure, success, Bool.false_eq_true, ↓reduceIte, List.filterMap_cons, Call.error?,
      List.filterMap_nil, List.filter_cons, isRecovered_stoppedShort, Bool.not_false,
      List.filter_nil] at others
    exact List.perm_singleton.mp others

end

/-! ## What is set apart -/

/-- The words from an index on are set apart in a node of a tree. -/
structure SetsApart (tree : Tree) (words : List Placed) (index id : Nat) : Prop where
  /-- It is the last node below the root. -/
  last : (tree.childNodes 0).getLast? = some id
  isError : tree.kind? id = some .error
  /-- The words in it are those from the index on. -/
  inside : significant ((tree.walk tree.size id).filterMap tree.token?) = words.drop index
  /-- The words in front of it are all others, and there are none behind it. -/
  outside : ∃ front back, tree.preorder = front ++ tree.walk tree.size id ++ back ∧
    significant (front.filterMap tree.token?) = words.take index ∧
    significant (back.filterMap tree.token?) = []

section

variable {source : String} {tokens : List Placed} {answer : Bool × State}

/-- Words that become the last node below the root are set apart in it. -/
theorem exists_setsApart {calls : List Call} {trivia rest behind : List Placed} {index : Nat}
    (handsOn : HandsOn calls tokens (trivia ++ (rest ++ behind)))
    (noWords : significant trivia = [])
    (words : significant rest = (significant tokens).drop index)
    (noneBehind : significant behind = []) (errors : List Error) :
    let before : List Call := .start .file :: (calls ++ trivia.map .token)
    let tree := (Tree.ofCalls (before ++ .start .error :: (rest.map .token ++
      .finish :: (behind.map .token ++ .finish :: errors.map .report)))).1
    ∃ id, SetsApart tree (significant tokens) index id ∧ tree.range? id = rangeOf rest := by
  intro before tree
  have nested := handsOn.nested.append (HandsOn.tokens trivia []).nested
  let tail : List Call := behind.map .token ++ .finish :: errors.map .report
  have last := Tree.last_childNode_ofCalls nested .file .error rest behind errors
  obtain ⟨isError, -, -, -, range⟩ := Tree.ofCalls_leaves before tail .error rest
  obtain ⟨front, back, whole, inFront, inside, inBack⟩ :=
    Tree.ofCalls_leaves_between before tail .error rest
  have passed : significant (front.filterMap tree.token?) = (significant tokens).take index := by
    refine (congrArg significant inFront).trans ?_
    change significant ((calls ++ trivia.map Call.token).filterMap Call.token?) = _
    rw [List.filterMap_append, Call.filterMap_token?_tokens, significant_append, noWords,
      List.append_nil]
    have kept := congrArg significant handsOn.kept
    rw [significant_append, significant_append, significant_append, noWords, noneBehind, words,
      List.nil_append, List.append_nil] at kept
    exact List.append_cancel_right (kept.trans (List.take_append_drop index _).symm)
  refine ⟨_, ⟨last, isError, ?_, front, back, whole, passed, ?_⟩, range⟩
  · exact (congrArg significant inside).trans words
  · refine (congrArg significant inBack).trans ?_
    rw [List.filterMap_append, Call.filterMap_token?_tokens, List.filterMap_cons,
      Call.filterMap_token?_reports, significant_append, noneBehind]
    rfl

/-- The words from where a parse stopped short are set apart in a node that reaches from the first
of them to the last. -/
theorem exists_setsApart_ofAnswer (inOrder : InOrder tokens)
    (onward : State.underRoot.trail.GoesOnTo answer.2.trail)
    (bounded : answer.2.position ≤ (wordsOf source tokens).size) {word : Placed} :
    let result := Result.ofAnswer source tokens answer
    (significant tokens)[result.outcome.position]? = some word → ∃ id last,
      SetsApart result.tree (significant tokens) result.outcome.position id ∧
        (significant tokens).getLast? = some last ∧
        result.tree.span? id = some ⟨word.start.offset, last.stop.offset⟩ := by
  intro result stopped
  have short : result.outcome.position < (significant tokens).length :=
    (List.getElem?_eq_some_iff.mp stopped).1
  obtain ⟨events, wraps, grown, same⟩ := onward
  obtain ⟨log, nested, count⟩ := log_conclude_grown grown same bounded
  have reached : min (conclude (wordsOf source tokens) answer).1.position
      (wordsOf source tokens).size = result.outcome.position := by
    rw [size_wordsOf]
    exact Nat.min_eq_left (Nat.le_of_lt short)
  rw [reached] at log nested count
  generalize inserted wraps 1 events ++ _ = front at log nested count
  obtain ⟨calls, later, handsOn, left, replayed⟩ :=
    replayFrom_nested (significant tokens).toArray nested tokens 0
  have ahead : Ahead (significant tokens) (front.count .token) later :=
    ⟨(handsOn.kept ▸ inOrder : InOrder (_ ++ later)).of_append.2, left⟩
  have all : front.count .token + ((wordsOf source tokens).size - result.outcome.position) =
      (significant tokens).length := by
    rw [size_wordsOf]
    omega
  rcases ahead.replay_apart replayed all with
    ⟨none, -⟩ | ⟨-, trivia, rest, behind, rfl, noWords, words, noneBehind, first, last, calledFor⟩
  · rw [size_wordsOf] at none
    omega
  obtain ⟨errors, built⟩ := tree_ofAnswer source tokens answer
  rw [count] at words
  obtain ⟨id, apart, range⟩ := exists_setsApart handsOn noWords words noneBehind errors
  have tree : result.tree = (Tree.ofCalls ((.start .file :: (calls ++ trivia.map .token)) ++
      .start .error :: (rest.map .token ++
        .finish :: (behind.map .token ++ .finish :: errors.map .report)))).1 := by
    refine built.trans ?_
    rw [log, calledFor]
    simp
  obtain ⟨stop, ends⟩ := Option.isSome_iff_exists.mp
    (List.getLast?_isSome.mpr (List.length_pos_iff.mp (Nat.zero_lt_of_lt short)))
  rw [words, List.head?_drop, stopped] at first
  rw [words, List.getLast?_drop, if_neg (Nat.not_le.mpr short), ends] at last
  refine ⟨id, stop, tree ▸ apart, ends, ?_⟩
  have covered : rangeOf rest = some (word.range.through stop.range) := by
    rw [rangeOf, first, last]
    rfl
  rw [Tree.span?, tree, range, covered]
  rfl

/-- What is set apart is what was left unparsed. -/
theorem SetsApart.unparsed?_eq {tree : Tree} {words : List Placed} {index id : Nat}
    (apart : SetsApart tree words index id) (outcome : Outcome) (errors : List Error) :
    (⟨outcome, tree, errors⟩ : PureScript.Module).unparsed? = tree.span? id := by
  obtain ⟨others, nodes⟩ := List.getLast?_eq_some_iff.mp apart.last
  have isError : [id].filter (fun id => tree.kind? id == some .error) = [id] := by
    simp [apart.isError]
  rw [PureScript.Module.unparsed?]
  dsimp only
  rw [nodes, List.filter_append, isError, List.getLast?_concat]
  rfl

/-- A run stops within the words. -/
theorem position_ofAnswer_le (bounded : answer.2.position ≤ (wordsOf source tokens).size ∧
      answer.2.failure.position ≤ (wordsOf source tokens).size) :
    (Result.ofAnswer source tokens answer).outcome.position ≤ (significant tokens).length := by
  rw [size_wordsOf] at bounded
  change (answer.2.outcome _).position ≤ _
  unfold State.outcome
  split
  · exact bounded.1
  · exact Nat.max_le.mpr bounded.symm

end

/-- Whatever the grammar, the source and the fuel, a parse comes to one of three things, and reports
nothing else but what recovery passed over. It succeeds and reports nothing. It fails at the end of
the words and reports that the input ended. Or it fails at a word and reports this word; then the
words from there on are set apart, and the message about the word also points at all of them. -/
theorem parse_reports_where_it_stopped (compiled : Grammar.Compiled) (config : Layout.Config)
    (naive : Bool) (source : String) (fuel file : Nat) :
    let tokens := lex config source
    let words := significant tokens
    let answer := compiled.grammar.parseWithin (wordsOf source tokens) naive fuel compiled.root
      .underRoot
    let result := Result.ofAnswer source tokens answer
    let module : PureScript.Module := ⟨result.outcome, result.tree, result.errors⟩
    let stops := result.errors.filter fun error => !error.isRecovered
    let expected := joinExpected result.outcome.expected
    (result.outcome.success = true ∧ stops = []) ∨
      (result.outcome.success = false ∧ result.outcome.position = words.length ∧
        ∃ span, stops = [.unexpectedEnd expected span]) ∨
      result.outcome.success = false ∧ ∃ word last found id,
        words[result.outcome.position]? = some word ∧ words.getLast? = some last ∧
        stops = [.unexpected found expected word.span] ∧
        SetsApart result.tree words result.outcome.position id ∧
        ∃ message ∈ module.messages file,
          message = PureScript.messageOf file module.unparsed?
            (.unexpected found expected word.span) ∧
          message.labels = [⟨file, word.span, s!"expected {expected}", true⟩,
            ⟨file, ⟨word.span.lo, last.stop.offset⟩, "left unparsed", false⟩] := by
  intro tokens words answer result module stops expected
  have stopsAt : stops = if result.outcome.success then [] else
      [stoppedShort source tokens result.outcome.position result.outcome.expected] :=
    stops_ofAnswer source tokens answer
  cases success : result.outcome.success with
  | true =>
    rw [success, if_pos rfl] at stopsAt
    exact .inl ⟨rfl, stopsAt⟩
  | false =>
    rw [success, if_neg Bool.false_ne_true] at stopsAt
    refine .inr ?_
    have onward := goesOnTo_parseWithin compiled.grammar (wordsOf source tokens) naive fuel
      compiled.root .underRoot
    have bounded : answer.2.position ≤ (wordsOf source tokens).size ∧
        answer.2.failure.position ≤ (wordsOf source tokens).size :=
      refusals_parseWithin compiled.grammar (wordsOf source tokens) naive fuel compiled.root
        ⟨Nat.zero_le _, Nat.zero_le _⟩
    have inside : result.outcome.position ≤ words.length := position_ofAnswer_le bounded
    cases there : words[result.outcome.position]? with
    | none =>
      have behind : words.length ≤ result.outcome.position := List.getElem?_eq_none_iff.mp there
      obtain ⟨span, stopped⟩ : ∃ span, stoppedShort source tokens result.outcome.position
          result.outcome.expected = .unexpectedEnd expected span := by
        rw [stoppedShort, there]
        exact ⟨_, rfl⟩
      exact .inl ⟨rfl, Nat.le_antisymm inside behind, span, stopped ▸ stopsAt⟩
    | some word =>
      obtain ⟨id, last, apart, ends, covered⟩ :=
        exists_setsApart_ofAnswer (inOrder_lex config source) onward bounded.1 there
      obtain ⟨found, stopped⟩ := exists_stoppedShort source there result.outcome.expected
      rw [stopped] at stopsAt
      have unparsed : module.unparsed? = _ :=
        (apart.unparsed?_eq result.outcome result.errors).trans covered
      refine .inr ⟨rfl, word, last, found, id, rfl, ends, stopsAt, apart, _, ?_, rfl, ?_⟩
      · have reported : Error.unexpected found expected word.span ∈ stops :=
          stopsAt ▸ List.mem_singleton_self _
        exact List.mem_map_of_mem (List.mem_of_mem_filter reported)
      · rw [PureScript.messageOf, unparsed]
        rfl

/-- A grammar of one name stops at the second of three words, and points from there to the end. -/
theorem parse_reports_where_it_stopped_at_word :
    let name : Grammar.Node := .token (.made 0) .lowerName
    let compiled : Grammar.Compiled := ⟨.ofRules .empty, name, ⟨1, 0, 0, 0⟩⟩
    let tokens := lex .default "a B c "
    let answer := compiled.grammar.parseWithin (wordsOf "a B c " tokens) false 2 compiled.root
      .underRoot
    let result := Result.ofAnswer "a B c " tokens answer
    let module : PureScript.Module := ⟨result.outcome, result.tree, result.errors⟩
    result.outcome.position = 1 ∧ ∃ id, SetsApart result.tree (significant tokens) 1 id ∧
      ∃ message ∈ module.messages 0, message.labels =
        [⟨0, ⟨2, 3⟩, "expected end of input", true⟩, ⟨0, ⟨2, 5⟩, "left unparsed", false⟩] := by
  intro name compiled tokens answer result module
  have position : result.outcome.position = 1 := by decide +kernel
  have failed : result.outcome.success = false := by decide +kernel
  have expected : joinExpected result.outcome.expected = "end of input" := by decide +kernel
  have second : (significant tokens)[1]?.map Placed.span = some ⟨2, 3⟩ := by decide +kernel
  have third : (significant tokens).getLast?.map Placed.span = some ⟨4, 5⟩ := by decide +kernel
  have length : (significant tokens).length = 3 := by decide +kernel
  obtain ⟨success, -⟩ | ⟨-, atEnd, -⟩ | ⟨-, word, last, found, id, isWord, isLast, -, apart,
      message, reported, -, labels⟩ :=
    parse_reports_where_it_stopped compiled .default false "a B c " 2 0
  · cases failed.symm.trans success
  · cases (position.symm.trans atEnd).trans length
  · rw [show result.outcome.position = 1 from position] at isWord apart
    rw [show (significant tokens)[1]? = some word from isWord] at second
    rw [show (significant tokens).getLast? = some last from isLast] at third
    have ends : last.stop.offset = 5 := congrArg Span.hi (Option.some.inj third)
    refine ⟨position, id, apart, message, reported, ?_⟩
    rw [labels, expected, Option.some.inj second, ends]
    rfl

end Parse

end Offside
