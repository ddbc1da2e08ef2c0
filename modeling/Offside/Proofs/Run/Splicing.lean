import Offside.Proofs.Run.Gauge

/-! # Spliced choices save

A choice in normal form has the alternatives of the choices among its own. It leaves at most what
the alternatives leave that it was made of, if these leave at least what their checks do: what the
check before an attempt would refuse, they refuse when they fail. So nothing is refused by the
choice in the end that was not refused by one of them.
-/

namespace Offside.Grammar

open Parse
open Token (Kind KindSet)

section

variable (grammar : Grammar) (words : Array Word) (le : State → State → Prop)

/-- When the node fails, it leaves at least what the check before an attempt would leave. -/
def LeavesAtLeastCheck (node : Node) : Prop :=
  ∀ state after kinds, grammar.prediction node = some kinds →
    grammar.meaning words true node state = some (false, after) → le (state.expect kinds) after

/-- Where the check before an attempt rules the node out, the node leaves at most what the check
leaves. -/
def LeavesAtMostCheck (node : Node) : Prop :=
  ∀ state after, grammar.starts words node state = false →
    grammar.meaning words true node state = some (false, after) →
    le after (grammar.refused node state)

end

/-- Both matched, or the first failed and the second may have matched nothing. Then it leaves no
less than if some kinds were refused. -/
inductive Spliced (le : State → State → Prop) (kinds : KindSet) (isOptional : Bool) :
    Bool × State → Bool × State → Prop
  | matched {state other : State} (under : Under le state other) :
    Spliced le kinds isOptional (true, state) (true, other)
  | failed {state other : State} (under : Under le state other)
    (refused : ∀ kind, kinds.contains kind = true → le (state.expect (.single kind)) other) :
    Spliced le kinds isOptional (false, state) (isOptional, other)

section

variable {grammar : Grammar} {words : Array Word}

theorem meaning_choice (naive : Bool) (stamp : Stamp) (alternatives : List Node) (isOptional : Bool)
    (state : State) :
    grammar.meaning words naive (.choice stamp alternatives isOptional) state =
      (grammar.runAny words (grammar.meaning words naive)
        (grammar.tried naive stamp alternatives (state.currentKind? words)) state).map
        (grammar.chosen alternatives isOptional) := by
  rw [← step_meaning]
  exact runChoice_eq ..

theorem runAny_append (run : Runner) (front back : List Node) (state : State) :
    grammar.runAny words run (front ++ back) state =
      (grammar.runAny words run front state).bind fun answer =>
        if answer.1 then some answer else grammar.runAny words run back answer.2 := by
  induction front generalizing state with
  | nil => rfl
  | cons node rest ih =>
    rw [List.cons_append, runAny_cons, runAny_cons, Option.bind_assoc]
    refine Option.bind_congr fun answer _ => ?_
    split
    · next matched => simp [matched]
    · exact ih _

theorem contains_knownFirst_append (front back : List Node) (kind : Kind) :
    (grammar.knownFirst (front ++ back)).contains kind =
      ((grammar.knownFirst front).contains kind || (grammar.knownFirst back).contains kind) := by
  rw [contains_knownFirst_eq, contains_knownFirst_eq, contains_knownFirst_eq, List.any_append]

theorem contains_knownFirst_singleton (node : Node) (kind : Kind) :
    (grammar.knownFirst [node]).contains kind =
      (grammar.prediction node).any fun kinds => kinds.contains kind := by
  rw [contains_knownFirst_eq, List.any_cons, List.any_nil, Bool.or_false]

theorem runAny_singleton (run : Runner) (node : Node) (state : State) :
    grammar.runAny words run [node] state = grammar.runHealed words run node state := by
  rw [runAny_cons]
  cases grammar.runHealed words run node state using answer_cases <;> rfl

theorem meaning_empty {naive : Bool} (stamp : Stamp) (state : State) :
    grammar.meaning words naive (.empty stamp) state = some (true, state) := by
  rw [← step_meaning]
  rfl

/-- Nothing is done for a node that matches nothing, healed or not. -/
theorem attempt_empty {node : Node} {stamp : Stamp} (same : node.unhealed = .empty stamp)
    (state : State) :
    grammar.attempt words true node state = some (true, state) := by
  unfold Node.unhealed at same
  split at same
  · have starts : grammar.starts words (.empty stamp) state = true := rfl
    rw [same, attempt_heal, runHealed_eq, starts, meaning_empty]
    rfl
  · rw [same, attempt, meaning_empty]
    rfl

theorem Spliced.sameAnswer {le : State → State → Prop} {kinds : KindSet}
    {answer answer' : Bool × State}
    (spliced : Spliced le kinds false answer answer') :
    SameAnswer (Under le) (Under le) answer answer' := by
  cases spliced with
  | matched under => exact .matched under
  | failed under => exact .failed under

end

namespace Gauge

variable {grammar : Grammar} {words : Array Word} {le : State → State → Prop}
  (gauge : Gauge words le) {node : Node} {nodes alternatives : List Node} {state other : State}
  {kinds : KindSet} {isOptional : Bool}

include gauge

/-- The check before an attempt saves, if a failed attempt leaves at least what the check does. -/
theorem runHealed_saves_attempt (atLeast : grammar.LeavesAtLeastCheck words le node)
    (under : Under le state other) :
    Saves le (grammar.runHealed words (grammar.meaning words true) node state)
      (grammar.attempt words true node other) := by
  have alike := gauge.alike
  rw [runHealed_eq]
  cases starts : grammar.starts words node state with
  | true =>
    rw [alike.mark_eq under]
    exact (alike.meaning true node state other under).map fun _ _ same => alike.kept same _
  | false =>
    rw [alike.starts_eq under] at starts
    obtain ⟨after, ran, back⟩ : Fails (grammar.meaning words true) node other :=
      fails_of_not_starts starts
    have attempted : grammar.attempt words true node other = some (false, after) := by
      rw [attempt, ran, Option.map_some, kept_of_trail fun _ => back.trail]
    rw [attempted]
    refine .some (.failed ⟨?_, ?_⟩)
    · rw [refused, State.trail_expect, under.trail, back.trail]
    · unfold Grammar.starts at starts
      unfold refused
      cases predicted : grammar.prediction node with
      | none =>
        rw [predicted] at starts
        cases starts
      | some kinds =>
        exact gauge.trans (gauge.expect_mono kinds under.trail under.atMost)
          (atLeast other after kinds predicted ran)

/-- Alternatives that the next word rules out leave together what holds each refusal. -/
theorem runAny_ruled_out (run : Runner) {whole : State}
    (ruledOut : ∀ node ∈ nodes, grammar.starts words node state = false) (within : le state whole)
    (refused : ∀ node ∈ nodes, le (grammar.refused node state) whole) :
    ∃ after, grammar.runAny words run nodes state = some (false, after) ∧
      after.trail = state.trail ∧ le after whole := by
  induction nodes generalizing state with
  | nil => exact ⟨state, rfl, rfl, within⟩
  | cons node rest ih =>
    obtain ⟨first, others⟩ := List.forall_mem_cons.mp ruledOut
    obtain ⟨refusedFirst, refusedOthers⟩ := List.forall_mem_cons.mp refused
    have back : (grammar.refused node state).trail = state.trail := State.trail_expect ..
    have othersRuledOut : ∀ other ∈ rest,
        grammar.starts words other (grammar.refused node state) = false := by
      intro other member
      rw [(sameTrail_alike words).starts_eq back]
      exact others other member
    obtain ⟨after, ran, trail, bounded⟩ := ih othersRuledOut refusedFirst fun other member =>
      gauge.join back refusedFirst (refusedOthers other member)
    refine ⟨after, ?_, trail.trans back, bounded⟩
    rw [runAny_cons, runHealed_eq, first]
    exact ran

/-- What a choice that fails expects in the end, it expects of each kind. -/
theorem spliced_chosen (under : Under le state other) :
    Spliced le (grammar.knownFirst alternatives) isOptional (false, state)
      (grammar.chosen alternatives isOptional (false, other)) := by
  simp only [chosen, Bool.false_eq_true, ↓reduceIte]
  split
  · next nothing =>
    refine .failed under fun kind inside => ?_
    rw [KindSet.isEmpty_of_contains inside] at nothing
    cases nothing
  · refine .failed ⟨?_, ?_⟩ fun kind inside => ?_
    · rw [State.trail_expect]
      exact under.trail
    · exact gauge.trans under.atMost (gauge.expect other _)
    · exact gauge.trans (gauge.expect_mono _ under.trail under.atMost)
        (gauge.single_le other inside)

/-- A choice expects no more than what holds a refusal of each kind. -/
theorem chosen_saves {answer answer' : Bool × State}
    (spliced : Spliced le (grammar.knownFirst alternatives) isOptional answer answer') :
    SameAnswer (Under le) (Under le) (grammar.chosen alternatives isOptional answer) answer' := by
  cases spliced with
  | matched under => exact .matched under
  | @failed state other under refused =>
    have bounded : Under le (grammar.chosen alternatives isOptional (false, state)).2 other := by
      simp only [chosen, Bool.false_eq_true, ↓reduceIte]
      split
      · exact under
      · next some =>
        refine ⟨by rw [State.trail_expect]; exact under.trail, gauge.each ?_ refused⟩
        exact KindSet.exists_contains_of_isEmpty (Bool.eq_false_iff.mpr some)
    cases isOptional with
    | true => exact .matched bounded
    | false => exact .failed bounded

/-- The alternatives of a choice leave no more than an attempt of the choice. -/
theorem runAny_saves_choice (stamp : Stamp) (under : Under le state other) :
    Within (Spliced le (grammar.knownFirst alternatives) isOptional)
      (grammar.runAny words (grammar.meaning words true) alternatives state)
      (grammar.attempt words true (.choice stamp alternatives isOptional) other) := by
  intro answer ended
  obtain ⟨answer', ended', same⟩ := gauge.alike.runAny
    (fun node _ => gauge.alike.meaning true node) under (fun _ => under) answer ended
  refine ⟨kept other.mark (grammar.chosen alternatives isOptional answer'), ?_, ?_⟩
  · rw [attempt, meaning_choice]
    change (Option.map _ (grammar.runAny words _ alternatives other)).map _ = _
    rw [ended']
    rfl
  · cases same with
    | matched under => exact .matched under
    | failed behind =>
      have back := trail_of_runAny (goesOnTo_moves words).meaning ended'
      rw [kept_of_trail fun _ => ?_]
      · exact gauge.spliced_chosen behind
      · simp only [chosen, Bool.false_eq_true, ↓reduceIte]
        split
        · exact back
        · rw [State.trail_expect]
          exact back

/-- Alternatives of a choice that the next word rules out leave no more than its check. -/
theorem runAny_of_ruled_out_choice {stamp : Stamp} {kinds : KindSet}
    (predicted : grammar.prediction (.choice stamp alternatives false) = some kinds)
    (ruledOut : mayStart (some kinds) (other.currentKind? words) = false)
    (under : Under le state other) :
    ∃ after, grammar.runAny words (grammar.meaning words true) alternatives state =
        some (false, after) ∧
      Spliced le (grammar.knownFirst alternatives) false (false, after)
        (false, other.expect kinds) := by
  have each := Node.first_of_firstOfAll predicted
  have whole : Under le state (other.expect kinds) :=
    ⟨by rw [State.trail_expect]; exact under.trail,
      gauge.trans under.atMost (gauge.expect other kinds)⟩
  have owns {part : KindSet}
      (subset : ∀ kind, part.contains kind = true → kinds.contains kind = true) :
      le (state.expect part) (other.expect kinds) :=
    gauge.trans (gauge.expect_mono part under.trail under.atMost) (gauge.subset other subset)
  have noneStarts : ∀ node ∈ alternatives, grammar.starts words node state = false := by
    intro node member
    obtain ⟨part, found, subset⟩ := each node member
    unfold Grammar.starts
    rw [prediction, found, gauge.alike.currentKind?_eq under]
    exact mayStart_of_subset subset ruledOut
  have refusals : ∀ node ∈ alternatives, le (grammar.refused node state) (other.expect kinds) := by
    intro node member
    obtain ⟨part, found, subset⟩ := each node member
    rw [Grammar.refused, prediction, found]
    exact owns subset
  obtain ⟨after, ran, back, bounded⟩ :=
    gauge.runAny_ruled_out (grammar.meaning words true) noneStarts whole.atMost refusals
  refine ⟨after, ran, .failed ⟨back.trans whole.trail, bounded⟩ fun kind inside => ?_⟩
  rw [contains_knownFirst_eq] at inside
  obtain ⟨node, member, known⟩ := List.any_eq_true.mp inside
  obtain ⟨part, found, subset⟩ := each node member
  rw [prediction, found] at known
  refine gauge.join back bounded (owns fun single same => ?_)
  rw [KindSet.contains_single, decide_eq_true_iff] at same
  exact subset single (same ▸ known)

/-- The alternatives leave no more either if the choice is healed, ruled out or not. -/
theorem runAny_saves_healed (stamp outer : Stamp) (under : Under le state other) :
    Within (Spliced le (grammar.knownFirst alternatives) isOptional)
      (grammar.runAny words (grammar.meaning words true) alternatives state)
      (grammar.attempt words true (.heal outer (.choice stamp alternatives isOptional)) other) := by
  rw [attempt_heal, runHealed_eq]
  cases starts : grammar.starts words (.choice stamp alternatives isOptional) other with
  | true => exact gauge.runAny_saves_choice stamp under
  | false =>
    unfold Grammar.starts at starts
    cases predicted : grammar.prediction (.choice stamp alternatives isOptional) with
    | none =>
      rw [predicted] at starts
      cases starts
    | some kinds =>
      rw [predicted] at starts
      cases isOptional with
      | true => cases predicted
      | false =>
        obtain ⟨after, ran, spliced⟩ := gauge.runAny_of_ruled_out_choice predicted starts under
        simp only [Bool.false_eq_true, ↓reduceIte, ran, refused, predicted, Option.getD_some]
        exact .some spliced

/-- The alternatives of a nested choice leave no more than an attempt of the choice. -/
theorem runAny_saves_nested {stamp : Stamp}
    (same : node.unhealed = .choice stamp alternatives isOptional) (under : Under le state other) :
    Within (Spliced le (grammar.knownFirst alternatives) isOptional)
      (grammar.runAny words (grammar.meaning words true) alternatives state)
      (grammar.attempt words true node other) := by
  unfold Node.unhealed at same
  split at same
  · rw [same]
    exact gauge.runAny_saves_healed stamp _ under
  · rw [same]
    exact gauge.runAny_saves_choice stamp under

/-- What was refused before holds on while more is attempted. -/
theorem spliced_append {front back : List Node} {middle middle' : State}
    {answer answer' : Bool × State}
    (first : Spliced le (grammar.knownFirst front) false (false, middle) (false, middle'))
    (ran : grammar.runAny words (grammar.meaning words true) back middle = some answer)
    (onward : le middle' answer'.2)
    (second : Spliced le (grammar.knownFirst back) isOptional answer answer') :
    Spliced le (grammar.knownFirst (front ++ back)) isOptional answer answer' := by
  cases second with
  | matched under => exact .matched under
  | @failed after after' under refused =>
    refine .failed under fun kind inside => ?_
    rw [contains_knownFirst_append, Bool.or_eq_true] at inside
    rcases inside with early | late
    · cases first with
      | failed _ refusedBefore =>
        have back : after.trail = middle.trail :=
          trail_of_runAny (goesOnTo_moves words).meaning ran
        exact gauge.join back under.atMost (gauge.trans (refusedBefore kind early) onward)
    · exact refused kind late

/-- No attempt lowers what a state holds. -/
theorem le_attemptAll {answer : Bool × State}
    (ended : grammar.attemptAll words true nodes state = some answer) : le state answer.2 := by
  induction nodes generalizing state with
  | nil =>
    cases ended
    exact gauge.refl state
  | cons node rest ih =>
    obtain ⟨first, attempted, ended⟩ := Option.bind_eq_some_iff.mp ended
    obtain ⟨inner, ran, rfl⟩ := Option.map_eq_some_iff.mp attempted
    have within := gauge.moves.meaning node state inner ran
    obtain ⟨matched, behind⟩ := inner
    cases matched with
    | true =>
      cases ended
      exact within
    | false => exact gauge.trans (gauge.le_rollback within _) (ih ended)

/-- Alternatives spliced in front of others leave no more than what they were made of, if both do
on their own. -/
theorem runAny_append_saves {front back rest : List Node}
    (first : Within (Spliced le (grammar.knownFirst front) false)
      (grammar.runAny words (grammar.meaning words true) front state)
      (grammar.attempt words true node other))
    (second : ∀ {state other : State}, Under le state other →
      Within (Spliced le (grammar.knownFirst back) isOptional)
        (grammar.runAny words (grammar.meaning words true) back state)
        (grammar.attemptAll words true rest other)) :
    Within (Spliced le (grammar.knownFirst (front ++ back)) isOptional)
      (grammar.runAny words (grammar.meaning words true) (front ++ back) state)
      (grammar.attemptAll words true (node :: rest) other) := by
  rw [runAny_append]
  intro answer ended
  obtain ⟨begun, ran, ended⟩ := Option.bind_eq_some_iff.mp ended
  obtain ⟨begun', attempted, spliced⟩ := first begun ran
  cases spliced with
  | matched under =>
    cases ended
    exact ⟨_, Option.bind_eq_some_iff.mpr ⟨_, attempted, rfl⟩, .matched under⟩
  | failed under refused =>
    obtain ⟨answer', attemptedRest, splicedRest⟩ := second under answer ended
    have onward := gauge.le_attemptAll attemptedRest
    exact ⟨answer', Option.bind_eq_some_iff.mpr ⟨_, attempted, attemptedRest⟩,
      gauge.spliced_append (.failed under refused) ended onward splicedRest⟩

/-- A node that leaves at least what its check does, tried behind this check, leaves no more than an
attempt of it. -/
theorem runAny_singleton_saves (atLeast : grammar.LeavesAtLeastCheck words le node)
    (under : Under le state other) :
    Within (Spliced le (grammar.knownFirst [node]) false)
      (grammar.runAny words (grammar.meaning words true) [node] state)
      (grammar.attempt words true node other) := by
  intro answer ended
  rw [runAny_cons] at ended
  obtain ⟨first, ran, ended⟩ := Option.bind_eq_some_iff.mp ended
  obtain ⟨last, attempted, same⟩ := gauge.runHealed_saves_attempt atLeast under first ran
  refine ⟨last, attempted, ?_⟩
  cases same with
  | matched under =>
    cases ended
    exact .matched under
  | @failed behind after under =>
    cases ended
    refine .failed under fun kind inside => ?_
    rw [contains_knownFirst_singleton] at inside
    have back := trail_of_attempt attempted
    obtain ⟨inner, failed, rfl⟩ := failed_of_attempt attempted
    cases predicted : grammar.prediction node with
    | none =>
      rw [predicted] at inside
      cases inside
    | some kinds =>
      rw [predicted] at inside
      have owned := gauge.le_rollback (atLeast other inner kinds predicted failed) other.mark
      exact gauge.join (under.trail.trans back) under.atMost
        (gauge.trans (gauge.single_le other inside) owned)

/-- Spliced alternatives leave no more than the alternatives they were made of. -/
theorem runAny_flattenAlternatives
    (atLeast : ∀ node ∈ alternatives, grammar.LeavesAtLeastCheck words le node)
    (under : Under le state other) :
    Within (Spliced le (grammar.knownFirst (Node.flattenAlternatives alternatives).1)
        (Node.flattenAlternatives alternatives).2)
      (grammar.runAny words (grammar.meaning words true)
        (Node.flattenAlternatives alternatives).1 state)
      (grammar.attemptAll words true alternatives other) := by
  induction alternatives generalizing state other with
  | nil =>
    rw [Node.flattenAlternatives]
    exact .some (.failed under fun kind inside => by simp [knownFirst] at inside)
  | cons node rest ih =>
    obtain ⟨own, others⟩ := List.forall_mem_cons.mp atLeast
    rw [Node.flattenAlternatives]
    split
    · next same =>
      intro answer ended
      obtain ⟨last, attempted, spliced⟩ := gauge.runAny_saves_nested same under answer ended
      refine ⟨last, Option.bind_eq_some_iff.mpr ⟨last, attempted, ?_⟩, spliced⟩
      cases spliced with
      | matched | failed => rfl
    · next same =>
      exact gauge.runAny_append_saves (gauge.runAny_saves_nested same under) (ih others)
    · next same =>
      rw [attemptAll, attempt_empty same]
      exact .some (.failed under fun kind inside => by simp [knownFirst] at inside)
    · exact gauge.runAny_append_saves (gauge.runAny_singleton_saves own under) (ih others)

/-! ## Choices in normal form -/

/-- A node that undoes its failures and leaves at most what its check does is run without the check
at no cost. -/
theorem meaning_saves_runHealed (undoes : node.undoesFailure = true)
    (atMost : grammar.LeavesAtMostCheck words le node) (state : State) :
    Saves le (grammar.meaning words true node state)
      (grammar.runHealed words (grammar.meaning words true) node state) := by
  rw [runHealed_eq]
  cases starts : grammar.starts words node state with
  | true =>
    rintro ⟨matched, after⟩ ended
    refine ⟨(matched, after), ?_, ?_⟩
    · simp only [↓reduceIte, ended, Option.map_some]
      rw [kept_of_trail]
      rintro rfl
      have looks : (grammar.meaning words true node state).map seen =
          grammar.effect words true node state.trail := map_seen_meaning node state
      rw [ended] at looks
      exact trail_of_undoesFailure undoes looks.symm
    · cases matched with
      | true => exact .matched (gauge.under_refl after)
      | false => exact .failed (gauge.under_refl after)
  | false =>
    obtain ⟨after, ran, back⟩ : Fails (grammar.meaning words true) node state :=
      fails_of_not_starts starts
    rw [ran]
    refine .some (.failed ⟨?_, atMost state after starts ran⟩)
    rw [refused, State.trail_expect]
    exact back.trail

/-- A choice in normal form leaves no more than the alternatives it was made of. -/
theorem meaning_ofAlternatives_saves (stamp : Stamp)
    (atLeast : ∀ node ∈ alternatives, grammar.LeavesAtLeastCheck words le node)
    (atMost : ∀ only, Node.flattenAlternatives alternatives = ([only], false) →
      grammar.LeavesAtMostCheck words le only)
    (under : Under le state other) :
    Saves le (grammar.meaning words true (.ofAlternatives stamp alternatives) state)
      (grammar.attemptAll words true alternatives other) := by
  have spliced := gauge.runAny_flattenAlternatives atLeast under
  unfold Node.ofAlternatives
  split
  · next nothing =>
    rw [nothing] at spliced
    obtain ⟨last, attempted, same⟩ := spliced (false, state) rfl
    rw [meaning_empty, attempted]
    cases same with
    | failed under => exact .some (.matched under)
  · next only one =>
    rw [one, runAny_singleton] at spliced
    have checked : Saves le (grammar.runHealed words (grammar.meaning words true) only state)
        (grammar.attemptAll words true alternatives other) := by
      intro answer ended
      obtain ⟨last, attempted, same⟩ := spliced answer ended
      exact ⟨last, attempted, same.sameAnswer⟩
    unfold Node.healed
    split
    · next undoes =>
      exact gauge.saves_trans (gauge.meaning_saves_runHealed undoes (atMost only one) state) checked
    · rw [← step_meaning]
      exact checked
  · next same =>
    rw [same] at spliced
    rw [meaning_choice]
    intro answer ended
    obtain ⟨first, ran, rfl⟩ := Option.map_eq_some_iff.mp ended
    obtain ⟨last, attempted, same⟩ := spliced first ran
    exact ⟨last, attempted, gauge.chosen_saves same⟩

end Gauge

end Offside.Grammar
