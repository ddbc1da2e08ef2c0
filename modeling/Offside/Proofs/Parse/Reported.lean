import Offside.Proofs.Lex
import Offside.Proofs.Parse.Accounted
import Offside.Proofs.Parse.Replay
import Offside.Proofs.Syntax.Ranges
import Offside.Proofs.Token.Scan

/-! # Error nodes are reported over their bytes

Replaying keeps an error node and the report over it together, and turns the words between them
into the tokens from the first of these words to the last. As tokens lie in order, the bytes that
the report speaks of are those that the node covers.
-/

namespace Offside.Parse

open Source Token Syntax

/-! ## Tokens in order -/

/-- Tokens that lie in order of their offsets. -/
def InOrder (tokens : List Placed) : Prop :=
  (tokens.flatMap fun token => [token.start.offset, token.stop.offset]).Pairwise (· ≤ ·)

namespace InOrder

variable {tokens more : List Placed}

theorem of_append (inOrder : InOrder (tokens ++ more)) : InOrder tokens ∧ InOrder more := by
  unfold InOrder at inOrder
  rw [List.flatMap_append, List.pairwise_append] at inOrder
  exact ⟨inOrder.1, inOrder.2.1⟩

theorem first_le_last (inOrder : InOrder tokens) {first last : Placed}
    (leads : tokens.head? = some first) (ends : tokens.getLast? = some last) :
    first.start.offset ≤ last.stop.offset := by
  obtain ⟨rest, rfl⟩ := List.head?_eq_some_iff.mp leads
  unfold InOrder at inOrder
  rw [List.flatMap_cons] at inOrder
  refine (List.pairwise_cons.mp inOrder).1 _ ?_
  change last.stop.offset ∈ first.stop.offset :: _
  rcases List.mem_cons.mp (List.mem_of_getLast? ends) with rfl | later
  · exact List.mem_cons_self
  · exact List.mem_cons_of_mem _ (List.mem_flatMap.mpr ⟨last, later, by simp⟩)

end InOrder

theorem inOrder_lex (config : Layout.Config) (source : String) : InOrder (lex config source) :=
  offsets_sorted_lexRaw config fun _ member => isLayout_of_mem_scan member

/-- The tokens still to come when some words are taken. -/
structure Ahead (words : List Placed) (taken : Nat) (pending : List Placed) : Prop where
  inOrder : InOrder pending
  /-- The words among the pending tokens are those that are left. -/
  left : significant pending = words.drop taken

namespace Ahead

variable {words pending : List Placed} {taken : Nat} (ahead : Ahead words taken pending)

include ahead

theorem dropTrivia : Ahead words taken (pending.dropWhile fun token => token.kind.isTrivia) := by
  obtain ⟨inOrder, left⟩ := ahead
  rw [← List.takeWhile_append_dropWhile (p := fun token : Placed => token.kind.isTrivia)
    (l := pending)] at inOrder
  exact ⟨inOrder.of_append.2, (significant_dropTrivia pending).trans left⟩

/-- The next word is the first of the tokens behind trivia. -/
theorem exists_next (enough : taken < words.length) :
    ∃ word later, pending.dropWhile (fun token => token.kind.isTrivia) = word :: later ∧
      significant [word] = [word] ∧ words.drop taken = word :: words.drop (taken + 1) ∧
      Ahead words (taken + 1) later := by
  obtain ⟨inOrder, left⟩ := ahead.dropTrivia
  have first := List.head?_dropWhile_not (fun token : Placed => token.kind.isTrivia) pending
  cases behind : pending.dropWhile fun token => token.kind.isTrivia with
  | nil =>
    rw [behind] at left
    have none : words.length ≤ taken := List.drop_eq_nil_iff.mp left.symm
    omega
  | cons word later =>
    rw [behind] at inOrder left first
    have isWord : significant [word] = [word] := List.filter_cons_of_pos (by simpa using first)
    rw [← List.singleton_append, significant_append, isWord] at left
    have others : significant later = words.drop (taken + 1) := by
      rw [← List.drop_drop, ← left]
      rfl
    have behind : InOrder later := (show InOrder ([word] ++ later) from inOrder).of_append.2
    refine ⟨word, later, rfl, isWord, ?_, behind, others⟩
    rw [← left, others]
    rfl

/-- Words that are taken in a row become the tokens up to the last of them. -/
theorem replayFrom_words {count : Nat} (enough : taken + count ≤ words.length) (depth : Nat) :
    ∃ tokens later, pending = tokens ++ later ∧
      significant tokens = (words.drop taken).take count ∧
      tokens.getLast? = (significant tokens).getLast? ∧ Ahead words (taken + count) later ∧
      ∀ rest, replayFrom words.toArray pending depth (List.replicate count .token ++ rest) =
        tokens.map .token ++ replayFrom words.toArray later depth rest := by
  induction count generalizing taken pending with
  | zero => exact ⟨[], pending, rfl, rfl, rfl, ahead, fun _ => rfl⟩
  | succ count ih =>
    obtain ⟨word, behind, next, isWord, first, onward⟩ := ahead.exists_next (by omega)
    obtain ⟨tokens, later, rfl, same, last, rest, replayed⟩ := ih onward (by omega)
    have split := List.takeWhile_append_dropWhile
      (p := fun token : Placed => token.kind.isTrivia) (l := pending)
    have none := significant_takeTrivia pending
    rw [next] at split
    generalize passed : pending.takeWhile (fun token => token.kind.isTrivia) = trivia at split none
    have own : significant (trivia ++ word :: tokens) = word :: significant tokens := by
      rw [significant_append, none, ← List.singleton_append, significant_append, isWord]
      rfl
    refine ⟨trivia ++ word :: tokens, later, by simp [← split], ?_, ?_, ?_, fun more => ?_⟩
    · rw [own, same, first, List.take_succ_cons]
    · rw [own, List.getLast?_append, List.getLast?_cons, List.getLast?_cons, last]
      rfl
    · rwa [Nat.add_right_comm, Nat.add_assoc] at rest
    · rw [List.replicate_succ, List.cons_append, replayFrom, next]
      simp only [passed, replayed, List.map_append, List.map_cons, List.append_assoc,
        List.cons_append]

end Ahead

/-! ## Reports over error nodes -/

/-- A span is what some tokens cover, if there are any. -/
def Covers (tokens : List Placed) (span : Span) : Prop :=
  ∀ range, rangeOf tokens = some range → range.span = span

/-- The tokens from the first of some words to the last cover the bytes of these words. -/
theorem covers_coveredSpan {words tokens : List Placed} {start count : Nat}
    (inOrder : InOrder tokens) (same : significant tokens = (words.drop start).take count)
    (enough : start + count ≤ words.length)
    (first : tokens.head? = (significant tokens).head?)
    (last : tokens.getLast? = (significant tokens).getLast?) :
    Covers tokens (coveredSpan words.toArray start (start + count)) := by
  intro range covered
  obtain ⟨token, leads, covered⟩ := Option.bind_eq_some_iff.mp covered
  obtain ⟨other, ends, joined⟩ := Option.bind_eq_some_iff.mp covered
  have ordered := inOrder.first_le_last leads ends
  rw [first, same] at leads
  rw [last, same] at ends
  have some : 0 < count := by
    refine Nat.pos_of_ne_zero fun none => ?_
    rw [none] at leads
    cases leads
  have atStart : words[start]? = .some token := by
    rw [← leads, List.head?_take, if_neg (Nat.ne_of_gt some), List.head?_drop]
  have atStop : words[start + count - 1]? = .some other := by
    rw [← ends, List.getLast?_eq_getElem?, List.length_take, List.length_drop,
      List.getElem?_take_of_lt (by omega), List.getElem?_drop]
    congr 1
    omega
  cases joined
  simp only [coveredSpan, List.getElem?_toArray, atStart, atStop, Option.map_some,
    Option.getD_some, if_pos (Nat.lt_add_of_pos_right some), Nat.max_eq_right ordered]
  rfl

/-- Among calls, every error node holds nothing but tokens, and is followed by a report over the
bytes that these cover. -/
inductive Reported : List Call → Prop
  | nil : Reported []
  /-- Anything but the start of an error node. -/
  | call {call : Call} {rest : List Call} (isError : call ≠ .start .error)
    (later : Reported rest) : Reported (call :: rest)
  | start {tokens : List Placed} {span : Span} {rest : List Call} (message : String)
    (covers : Covers tokens span)
    (later : Reported (tokens.map .token ++ .finish :: .report (.recovered message span) :: rest)) :
    Reported (.start .error :: (tokens.map .token ++
      .finish :: .report (.recovered message span) :: rest))

namespace Reported

variable {calls : List Call}

theorem tokens (passed : List Placed) (later : Reported calls) :
    Reported (passed.map .token ++ calls) := by
  induction passed with
  | nil => exact later
  | cons token rest ih => exact .call (by simp) ih

theorem skipped {passed : List Placed} {span : Span} (message : String)
    (covers : Covers passed span) (later : Reported calls) :
    Reported (.start .error :: (passed.map .token ++
      .finish :: .report (.recovered message span) :: calls)) :=
  .start message covers (tokens passed (.call (by simp) (.call (by simp) later)))

theorem append {more : List Call} (first : Reported calls) (second : Reported more) :
    Reported (calls ++ more) := by
  induction first with
  | nil => exact second
  | call isError _ ih => exact .call isError ih
  | start message covers _ ih =>
    rw [List.append_assoc, List.cons_append, List.cons_append] at ih
    rw [List.cons_append, List.append_assoc, List.cons_append, List.cons_append]
    exact .start message covers ih

/-- What follows on the start of an error node. -/
theorem of_start (reported : Reported calls) {before after : List Call}
    (split : calls = before ++ .start .error :: after) :
    ∃ tokens message span rest, after = tokens.map .token ++
      .finish :: .report (.recovered message span) :: rest ∧ Covers tokens span := by
  induction reported generalizing before with
  | nil => cases before <;> cases split
  | call isError _ ih =>
    cases before with
    | nil => exact absurd (List.cons.inj split).1 isError
    | cons first others => exact ih (List.cons.inj split).2
  | start message covers _ ih =>
    cases before with
    | nil => exact ⟨_, message, _, _, (List.cons.inj split).2.symm, covers⟩
    | cons first others => exact ih (List.cons.inj split).2

end Reported

/-- The first of the tokens behind trivia is a word. -/
theorem head?_of_dropTrivia {pending tokens later : List Placed}
    (split : pending.dropWhile (fun token => token.kind.isTrivia) = tokens ++ later) :
    tokens.head? = (significant tokens).head? := by
  cases tokens with
  | nil => rfl
  | cons token rest =>
    have isWord : token.kind.isTrivia = false :=
      isWord_of_dropTrivia (congrArg List.head? split)
    simp [significant, isWord]

/-- Replaying an error node around some words gives the trivia in front of it and then the node,
which holds what lies between these words, with the report over it. -/
theorem Ahead.replayFrom_skipped {words pending : List Placed} {taken count : Nat}
    (ahead : Ahead words taken pending) (message : String) (enough : taken + count ≤ words.length)
    (depth : Nat) :
    ∃ tokens later, Covers tokens (coveredSpan words.toArray taken (taken + count)) ∧
      Ahead words (taken + count) later ∧
      ∀ rest, replayFrom words.toArray pending (depth + 1) (.start .error ::
          (List.replicate count .token ++
            .finish :: .diagnostic message taken (taken + count) :: rest)) =
        (pending.takeWhile fun token => token.kind.isTrivia).map .token ++
          .start .error :: (tokens.map .token ++ .finish ::
            .report (.recovered message (coveredSpan words.toArray taken (taken + count))) ::
              replayFrom words.toArray later (depth + 1) rest) := by
  obtain ⟨tokens, later, split, same, last, onward, replayed⟩ :=
    ahead.dropTrivia.replayFrom_words enough (depth + 1 + 1)
  have inOrder := (split ▸ ahead.dropTrivia.inOrder).of_append.1
  refine ⟨tokens, later, ?_, onward, fun rest => ?_⟩
  · exact covers_coveredSpan inOrder same enough (head?_of_dropTrivia split) last
  · rw [replayFrom, if_neg (Nat.succ_ne_zero depth)]
    simp only [replayed, replayFrom, show ¬depth + 1 + 1 ≤ 1 by omega, ↓reduceIte,
      Nat.add_sub_cancel]

/-- Inside of a node, replaying keeps error nodes and the reports over them together. -/
theorem replayFrom_accounted {words : List Placed} {taken : Nat} {events : List Event}
    (accounted : Accounted taken events) {depth reached : Nat}
    (leads : depthAfter Event.role depth events = some reached)
    (enough : taken + events.count .token ≤ words.length) {pending : List Placed}
    (ahead : Ahead words taken pending) :
    ∃ calls later, Reported calls ∧ Ahead words (taken + events.count .token) later ∧
      ∀ rest, replayFrom words.toArray pending (depth + 1) (events ++ rest) =
        calls ++ replayFrom words.toArray later (reached + 1) rest := by
  induction accounted generalizing depth pending with
  | nil =>
    cases leads
    exact ⟨[], pending, .nil, ahead, fun _ => rfl⟩
  | @token taken rest _ ih =>
    rw [List.count_cons_self] at enough ⊢
    obtain ⟨tokens, middle, -, -, -, onward, replayed⟩ :=
      ahead.replayFrom_words (show taken + 1 ≤ words.length by omega) (depth + 1)
    obtain ⟨calls, later, reported, behind, replayedRest⟩ := ih leads (by omega) onward
    refine ⟨_, later, reported.tokens tokens, ?_, fun more => ?_⟩
    · rwa [Nat.add_right_comm, Nat.add_assoc] at behind
    · rw [List.append_assoc, ← replayedRest]
      exact replayed _
  | @event taken event rest isWord isError _ ih =>
    obtain ⟨next, steps, leads⟩ := Option.bind_eq_some_iff.mp leads
    rw [List.count_cons_of_ne isWord] at enough ⊢
    cases event with
    | token => exact absurd rfl isWord
    | start kind =>
      cases steps
      obtain ⟨calls, later, reported, behind, replayed⟩ := ih leads enough ahead.dropTrivia
      have started : Call.start kind ≠ .start .error := by simpa using isError
      let trivia := pending.takeWhile fun token => token.kind.isTrivia
      refine ⟨_, later, .tokens trivia (.call started reported), behind, fun more => ?_⟩
      rw [List.cons_append, replayFrom, if_neg (Nat.succ_ne_zero depth)]
      simp only [trivia, replayed, List.append_assoc, List.cons_append]
    | finish =>
      cases depth with
      | zero => cases steps
      | succ outer =>
        cases steps
        obtain ⟨calls, later, reported, behind, replayed⟩ := ih leads enough ahead
        refine ⟨.finish :: calls, later, .call (by simp) reported, behind, fun more => ?_⟩
        rw [List.cons_append, replayFrom, if_neg (by omega), Nat.add_sub_cancel, replayed,
          List.cons_append]
    | abandoned =>
      cases steps
      obtain ⟨calls, later, reported, behind, replayed⟩ := ih leads enough ahead
      refine ⟨calls, later, reported, behind, fun more => ?_⟩
      rw [List.cons_append, replayFrom, replayed]
    | diagnostic message start stop =>
      cases steps
      obtain ⟨calls, later, reported, behind, replayed⟩ := ih leads enough ahead
      let error := Error.recovered message (coveredSpan words.toArray start stop)
      refine ⟨.report error :: calls, later, .call (by simp) reported, behind, fun more => ?_⟩
      rw [List.cons_append, replayFrom, replayed, List.cons_append]
  | @skipped taken rest message count _ ih =>
    have within : depthAfter Event.role (depth + 1) (List.replicate count .token) =
        some (depth + 1) :=
      depthAfter_of_forall_inside (fun event member => List.eq_of_mem_replicate member ▸ rfl) _
    change depthAfter Event.role (depth + 1) (List.replicate count .token ++ _) = _ at leads
    rw [depthAfter_append, within] at leads
    have counted : (Event.start .error :: (List.replicate count .token ++
        .finish :: .diagnostic message taken (taken + count) :: rest)).count .token =
          count + rest.count .token := by
      simp [List.count_append]
    rw [counted, ← Nat.add_assoc] at enough ⊢
    obtain ⟨tokens, middle, covers, onward, replayed⟩ :=
      ahead.replayFrom_skipped message (Nat.le_of_add_right_le enough) depth
    obtain ⟨calls, later, reported, behind, replayedRest⟩ := ih leads enough onward
    let trivia := pending.takeWhile fun token => token.kind.isTrivia
    refine ⟨_, later, .tokens trivia (.skipped message covers reported), behind, fun more => ?_⟩
    rw [List.cons_append, List.append_assoc, List.cons_append, List.cons_append, replayed,
      replayedRest]
    simp only [trivia, List.append_assoc, List.cons_append]

/-! ## Where error nodes start -/

/-- A started error node lies among calls that report their error nodes, or is the last one. -/
theorem start_error_cases {calls rest : List Call} (reported : Reported calls)
    (last : .start .error ∉ rest) {before after : List Call}
    (split : calls ++ .start .error :: rest = before ++ .start .error :: after) :
    before = calls ∧ after = rest ∨ before <+: calls ∧ ∃ tokens message span others,
      after = tokens.map .token ++ .finish :: .report (.recovered message span) :: others ∧
        Covers tokens span := by
  rcases List.append_eq_append_iff.mp split with ⟨more, rfl, same⟩ | ⟨more, rfl, same⟩
  · cases more with
    | nil =>
      obtain ⟨-, rfl⟩ := List.cons.inj same
      exact .inl ⟨List.append_nil calls, rfl⟩
    | cons first others =>
      obtain ⟨rfl, rfl⟩ := List.cons.inj same
      exact absurd (List.mem_append_right others List.mem_cons_self) last
  · cases more with
    | nil =>
      obtain ⟨-, rfl⟩ := List.cons.inj same
      exact .inl ⟨(List.append_nil before).symm, rfl⟩
    | cons first others =>
      obtain ⟨rfl, rfl⟩ := List.cons.inj same
      obtain ⟨tokens, message, span, behind, rfl, covers⟩ := reported.of_start rfl
      refine .inr ⟨List.prefix_append .., tokens, message, span,
        behind ++ .start .error :: rest, ?_, covers⟩
      simp

/-- An error node with a report behind it: the report is handed out, and its span is that of the
node if there are tokens in it. -/
theorem span?_of_reported {calls before others : List Call} {tokens : List Placed}
    {message : String} {span : Span} (covers : Covers tokens span)
    (split : calls = before ++ .start .error :: (tokens.map .token ++
      .finish :: .report (.recovered message span) :: others)) :
    let id := (before.foldl Builder.call .empty).tree.size
    .recovered message span ∈ (Tree.ofCalls calls).2 ∧
      ((Tree.ofCalls calls).1.HasToken id → (Tree.ofCalls calls).1.span? id = some span) := by
  intro id
  refine ⟨Tree.mem_errors_ofCalls ?_, fun some => ?_⟩
  · rw [split]
    simp
  · rw [split] at some ⊢
    obtain ⟨first, range, -, covered, -, same⟩ :=
      Tree.ofCalls_leaves_of_hasToken before _ .error tokens some
    rw [same, covers range covered]

end Offside.Parse
