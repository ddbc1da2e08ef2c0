import Offside.Proofs.Run.Dispatch
import Offside.Proofs.Run.Splicing

/-! # What neighbours share is run once

Alternatives that start with the same node are merged, and the first step they share is run once. In
order, each of them runs it again. Whatever it refused and took the first time it refuses and takes
each time, so the merged alternatives leave no more, whether their rests match or all of them fail.
Those that the next word rules out are not run at all. So a run in which choices are dispatched
saves what a run in order leaves, step by step.

What is asked of the rests is that their choice saves what they leave. It is made in normal form.
-/

namespace Offside.Grammar

open Parse
open Token (Kind KindSet)

/-! ## First steps and rests -/

/-- What follows the first steps of some nodes, as sequences. -/
def Node.rests (stamp : Nat → Stamp) (nodes : List Node) : List Node :=
  nodes.mapIdx fun place node => .ofSequence (stamp place) node.tail

section

variable {grammar : Grammar} {words : Array Word} {naive : Bool} {node head : Node}
  {state other : State}

theorem runAll_append (run : Runner) (front back : List Node) (state : State) :
    runAll run (front ++ back) state = (runAll run front state).bind fun answer =>
      if answer.1 then runAll run back answer.2 else some answer := by
  induction front generalizing state with
  | nil => rfl
  | cons node rest ih =>
    rw [List.cons_append, runAll_cons, runAll_cons, Option.bind_assoc]
    refine Option.bind_congr fun answer _ => ?_
    split
    · exact ih _
    · next failed => simp [failed]

theorem runAll_singleton (run : Runner) (node : Node) (state : State) :
    runAll run [node] state = run node state := by
  rw [runAll_cons]
  cases run node state using answer_cases <;> rfl

theorem runAll_sequenceItems (node : Node) (state : State) :
    runAll (grammar.meaning words naive) node.sequenceItems state =
      grammar.meaning words naive node state := by
  unfold Node.sequenceItems
  split
  · rw [← step_meaning]
    rfl
  · exact (meaning_empty _ state).symm
  · exact runAll_singleton ..

/-- A sequence in normal form runs its items one behind the other. -/
theorem meaning_ofSequence (stamp : Stamp) (items : List Node) (state : State) :
    grammar.meaning words naive (.ofSequence stamp items) state =
      runAll (grammar.meaning words naive) items state := by
  have flat : runAll (grammar.meaning words naive) (items.flatMap Node.sequenceItems) state =
      runAll (grammar.meaning words naive) items state := by
    induction items generalizing state with
    | nil => rfl
    | cons item rest ih =>
      rw [List.flatMap_cons, runAll_append, runAll_sequenceItems, runAll_cons]
      refine Option.bind_congr fun answer _ => ?_
      split
      · exact ih _
      · rfl
  rw [← flat]
  unfold Node.ofSequence
  split
  · next none =>
    rw [none]
    exact meaning_empty stamp state
  · next only one => rw [one, runAll_singleton]
  · exact (step_meaning _ state).symm

/-- From the same trail a node comes to the same, on the same trail. -/
theorem meaning_of_trail {matched : Bool} {after : State} (same : other.trail = state.trail)
    (ran : grammar.meaning words naive node state = some (matched, after)) :
    ∃ after', grammar.meaning words naive node other = some (matched, after') ∧
      after'.trail = after.trail := by
  obtain ⟨answer, ran', related⟩ :=
    (sameTrail_alike words).meaning naive node state other same.symm _ ran
  cases related with
  | matched same | failed same => exact ⟨_, ran', same.symm⟩

theorem prediction_head (grammar : Grammar) (node : Node) :
    grammar.prediction node.head = grammar.prediction node := by
  have unhealed : grammar.prediction node.unhealed = grammar.prediction node := by
    unfold Node.unhealed
    split <;> rfl
  rw [← unhealed]
  unfold Node.head Node.headAndTail
  split
  · next same =>
    rw [same]
    rfl
  · rfl

/-- A sequence starts as its first item does, unless that adds nothing to it. -/
theorem prediction_ofSequence (stamp : Stamp) {items : List Node} (some : node.sequenceItems ≠ []) :
    grammar.prediction (.ofSequence stamp (node :: items)) = grammar.prediction node := by
  obtain ⟨item, rest, same⟩ := List.exists_cons_of_ne_nil some
  have first : grammar.prediction item = grammar.prediction node := by
    unfold Node.sequenceItems at same
    split at same
    · rw [same]
      rfl
    · cases same
    · obtain ⟨rfl, -⟩ := List.cons.inj same
      rfl
  rw [← first]
  unfold Node.ofSequence
  rw [List.flatMap_cons, same, List.cons_append]
  cases rest ++ items.flatMap Node.sequenceItems <;> rfl

theorem runHealed_of_starts (starts : grammar.starts words node state = true) :
    grammar.runHealed words (grammar.meaning words naive) node state =
      grammar.attempt words naive node state := by
  rw [runHealed_eq, starts]
  rfl

/-- Where it may start, attempting a node is attempting its first step and what follows. -/
theorem attempt_head_tail (starts : grammar.starts words node state = true) :
    grammar.attempt words naive node state =
      (runAll (grammar.meaning words naive) (node.head :: node.tail) state).map
        (kept state.mark) := by
  have unhealed : grammar.attempt words naive node state =
      (grammar.meaning words naive node.unhealed state).map (kept state.mark) := by
    unfold Node.unhealed
    split
    · rw [attempt_heal]
      exact runHealed_of_starts starts
    · rfl
  rw [unhealed]
  unfold Node.head Node.tail Node.headAndTail
  split
  · next same =>
    rw [same, ← step_meaning]
    rfl
  · rw [runAll_singleton]

end

/-! ## One step shared by many -/

/-- A node starts in front of the next word, with a step that runs like another node. -/
structure Shares (grammar : Grammar) (words : Array Word) (head : Node) (state : State)
    (node : Node) : Prop where
  head : grammar.meaning words true node.head = grammar.meaning words true head
  /-- The next word does not rule the node out. -/
  starts : grammar.starts words node state = true

section

variable {grammar : Grammar} {words : Array Word} {head node : Node} {state other : State}

theorem Shares.of_trail (shares : grammar.Shares words head state node)
    (same : other.trail = state.trail) : grammar.Shares words head other node where
  head := shares.head
  starts := by
    rw [(sameTrail_alike words).starts_eq same]
    exact shares.starts

theorem Shares.runHealed_eq (shares : grammar.Shares words head state node) :
    grammar.runHealed words (grammar.meaning words true) node state =
      ((grammar.meaning words true head state).bind fun answer =>
        if answer.1 then runAll (grammar.meaning words true) node.tail answer.2
        else some answer).map (kept state.mark) := by
  rw [runHealed_of_starts shares.starts, attempt_head_tail shares.starts, runAll_cons, shares.head]

end

namespace Gauge

variable {grammar : Grammar} {words : Array Word} {le : State → State → Prop}
  (gauge : Gauge words le) {head node : Node} {nodes : List Node}
  {state other behind onward : State}

include gauge

/-- Where the shared step fails, so do all that share it, and leave what the step leaves. -/
theorem runAny_of_head_fails (shares : ∀ node ∈ nodes, grammar.Shares words head state node)
    (failed : grammar.meaning words true head state = some (false, behind)) :
    ∃ after, grammar.runAny words (grammar.meaning words true) nodes state = some (false, after) ∧
      le state after ∧ (nodes ≠ [] → le behind after) := by
  induction nodes generalizing state behind with
  | nil => exact ⟨state, rfl, gauge.refl state, fun filled => absurd rfl filled⟩
  | cons node rest ih =>
    obtain ⟨own, others⟩ := List.forall_mem_cons.mp shares
    have first : grammar.runHealed words (grammar.meaning words true) node state =
        some (false, behind.rollback state.mark) := by
      rw [own.runHealed_eq, failed]
      rfl
    have back := trail_of_runHealed (goesOnTo_moves words).meaning first
    obtain ⟨again, failedAgain, -⟩ := meaning_of_trail back failed
    obtain ⟨after, ran, onward, -⟩ :=
      ih (fun other member => (others other member).of_trail back) failedAgain
    have passed : le behind after :=
      gauge.trans (gauge.le_rollback (gauge.refl behind) state.mark) onward
    refine ⟨after, ?_, ?_, fun _ => passed⟩
    · rw [runAny_cons, first]
      exact ran
    · exact gauge.trans (gauge.moves.meaning head state _ failed) passed

/-- Behind the shared step, the rest of a node leaves no more than the whole of it. -/
theorem attempt_rest_saves (stamp : Stamp) (shares : grammar.Shares words head state node)
    (ran : grammar.meaning words true head state = some (true, onward))
    (under : Under le behind onward) :
    Within (SameAnswer (Under le) le)
      (grammar.attempt words true (.ofSequence stamp node.tail) behind)
      (grammar.runHealed words (grammar.meaning words true) node state) := by
  rw [shares.runHealed_eq, ran, attempt, meaning_ofSequence]
  refine (Alike.runAll (fun node _ => gauge.alike.meaning true node) under).map
    fun answer answer' same => ?_
  cases same with
  | matched under => exact .matched under
  | failed under => exact .failed (gauge.rollback_mono under.atMost _ _)

/-- Behind the shared step, the rests leave no more together than the nodes do one by one. -/
theorem attemptAll_rests_saves (stamp : Nat → Stamp)
    (shares : ∀ node ∈ nodes, grammar.Shares words head state node)
    (ran : grammar.meaning words true head state = some (true, onward))
    (under : Under le behind onward) (none : nodes = [] → le behind state) :
    Within (SameAnswer (Under le) le)
      (grammar.attemptAll words true (Node.rests stamp nodes) behind)
      (grammar.runAny words (grammar.meaning words true) nodes state) := by
  induction nodes generalizing stamp state behind onward with
  | nil => exact .some (.failed (none rfl))
  | cons node rest ih =>
    obtain ⟨own, others⟩ := List.forall_mem_cons.mp shares
    rw [Node.rests, List.mapIdx_cons, attemptAll, runAny_cons]
    intro answer ended
    obtain ⟨first, attempted, ended⟩ := Option.bind_eq_some_iff.mp ended
    obtain ⟨first', ranFirst, same⟩ :=
      gauge.attempt_rest_saves (stamp 0) own ran under first attempted
    cases same with
    | matched under =>
      cases ended
      exact ⟨_, by rw [ranFirst]; rfl, .matched under⟩
    | @failed after after' atMost =>
      have back := trail_of_attempt attempted
      have back' := trail_of_runHealed (goesOnTo_moves words).meaning ranFirst
      obtain ⟨again, ranAgain, trails⟩ := meaning_of_trail back' ran
      have under : Under le after again :=
        ⟨back.trans (under.trail.trans trails.symm),
          gauge.trans atMost (gauge.moves.meaning head after' _ ranAgain)⟩
      obtain ⟨last, ranRest, same⟩ := ih (fun place => stamp (place + 1))
        (fun other member => (others other member).of_trail back') ranAgain under
        (fun _ => atMost) answer ended
      exact ⟨last, by rw [ranFirst]; exact ranRest, same⟩

end Gauge

/-! ## Merged neighbours -/

/-- Two neighbours or more are merged into their first step and a choice of their rests. -/
theorem Node.mergeRun_eq (stamp : Nat → Stamp) (first second : Node) (rest : List Node) :
    Node.mergeRun stamp (first :: second :: rest) =
      .ofSequence (stamp 0) [first.head, .ofAlternatives (stamp 1)
        (Node.rests (fun place => stamp (place + 2)) (first :: second :: rest))] := rfl

section

variable (grammar : Grammar) (words : Array Word) (le : State → State → Prop)

/-- What it takes for neighbours to be merged without leaving more. -/
structure Mergeable (stamp : Nat → Stamp) (nodes : List Node) : Prop where
  /-- What a rest would be refused for, it refuses. -/
  atLeast : ∀ rest ∈ Node.rests (fun place => stamp (place + 2)) nodes,
    grammar.LeavesAtLeastCheck words le rest
  /-- A rest that is left alone refuses no more than it would be refused for. -/
  atMost : ∀ only,
    Node.flattenAlternatives (Node.rests (fun place => stamp (place + 2)) nodes) =
      ([only], false) → grammar.LeavesAtMostCheck words le only
  /-- If the shared step is nothing, what the merged node would be refused for, it refuses. -/
  merged : ∀ first ∈ nodes.head?, first.head.sequenceItems = [] →
    grammar.LeavesAtLeastCheck words le (Node.mergeRun stamp nodes)

/-- Whatever neighbours are merged of some alternatives, that leaves no more. -/
def Merges (alternatives : List Node) : Prop :=
  ∀ stamp first second rest, (first :: second :: rest).Sublist alternatives →
    (first :: second :: rest).IsChain (fun node next => (node.head.isSame next.head : Bool)) →
    grammar.Mergeable words le stamp (first :: second :: rest)

end

namespace Gauge

variable {grammar : Grammar} {words : Array Word} {le : State → State → Prop}
  (gauge : Gauge words le) {first second : Node} {rest alternatives : List Node}
  {state other : State}

include gauge

theorem attempt_mergeRun_saves {stamp : Nat → Stamp}
    (mergeable : grammar.Mergeable words le stamp (first :: second :: rest))
    (shares : ∀ node ∈ first :: second :: rest, grammar.Shares words first.head other node)
    (under : Under le state other) :
    Saves le (grammar.attempt words true (Node.mergeRun stamp (first :: second :: rest)) state)
      (grammar.runAny words (grammar.meaning words true) (first :: second :: rest) other) := by
  intro answer ended
  obtain ⟨inner, ran, rfl⟩ := Option.map_eq_some_iff.mp ended
  have back := rollback_meaning ran
  rw [Node.mergeRun_eq, meaning_ofSequence, runAll_cons] at ran
  obtain ⟨⟨matched, onward⟩, ranHead, ran⟩ := Option.bind_eq_some_iff.mp ran
  obtain ⟨_, ranHead', same⟩ := gauge.alike.meaning true first.head state other under _ ranHead
  cases same with
  | failed under' =>
    cases ran
    obtain ⟨after, ranAll, -, passed⟩ := gauge.runAny_of_head_fails shares ranHead'
    have undone := trail_of_runAny (goesOnTo_moves words).meaning ranAll
    exact ⟨_, ranAll, .failed (gauge.under_of_undone under back undone
      (gauge.trans under'.atMost (passed (by simp))))⟩
  | matched under' =>
    simp only [↓reduceIte, runAll_singleton] at ran
    obtain ⟨middle, attempted, same⟩ := gauge.meaning_ofAlternatives_saves (stamp 1)
      mergeable.atLeast mergeable.atMost under' inner ran
    obtain ⟨last, ranAll, more⟩ := gauge.attemptAll_rests_saves _ shares ranHead'
      (gauge.under_refl _) (by simp) middle attempted
    refine ⟨last, ranAll, ?_⟩
    cases same with
    | matched same =>
      cases more with
      | matched more => exact .matched (gauge.under_trans same more)
    | failed same =>
      cases more with
      | failed more =>
        have undone := trail_of_runAny (goesOnTo_moves words).meaning ranAll
        exact .failed
          (gauge.under_of_undone under back undone (gauge.trans same.atMost more))

/-- Merged neighbours leave no more than they do one by one. -/
theorem runHealed_mergeRun_saves {stamp : Nat → Stamp}
    (mergeable : grammar.Mergeable words le stamp (first :: second :: rest))
    (shares : ∀ node ∈ first :: second :: rest, grammar.Shares words first.head other node)
    (under : Under le state other) :
    Saves le (grammar.runHealed words (grammar.meaning words true)
        (Node.mergeRun stamp (first :: second :: rest)) state)
      (grammar.runAny words (grammar.meaning words true) (first :: second :: rest) other) := by
  by_cases nothing : first.head.sequenceItems = []
  · have atLeast := mergeable.merged first rfl nothing
    exact gauge.saves_trans (gauge.runHealed_saves_attempt atLeast under)
      (gauge.attempt_mergeRun_saves mergeable shares (gauge.under_refl other))
  · have starts : grammar.starts words (Node.mergeRun stamp (first :: second :: rest)) state =
        true := by
      have own := (shares first (List.mem_cons_self ..)).starts
      rw [← gauge.alike.starts_eq under] at own
      unfold Grammar.starts at own ⊢
      rw [Node.mergeRun_eq, prediction_ofSequence _ nothing, prediction_head]
      exact own
    rw [runHealed_of_starts starts]
    exact gauge.attempt_mergeRun_saves mergeable shares under

/-- Merging every run of a list of alternatives that may all start leaves no more. -/
theorem runAny_mergeRuns_saves (stamp : Nat → Nat → Stamp) {runs : List (List Node)}
    (filled : ∀ nodes ∈ runs, nodes ≠ [])
    (chains : ∀ nodes ∈ runs,
      nodes.IsChain fun node next => (node.head.isSame next.head : Bool))
    (merges : grammar.Merges words le runs.flatten)
    (starts : ∀ node ∈ runs.flatten, grammar.starts words node other = true)
    (under : Under le state other) :
    Saves le
      (grammar.runAny words (grammar.meaning words true)
        (runs.mapIdx fun run => Node.mergeRun (stamp run)) state)
      (grammar.runAny words (grammar.meaning words true) runs.flatten other) := by
  induction runs generalizing stamp state other with
  | nil => exact .some (.failed under)
  | cons nodes runs ih =>
    obtain ⟨filledFirst, filledRest⟩ := List.forall_mem_cons.mp filled
    obtain ⟨chain, chainsRest⟩ := List.forall_mem_cons.mp chains
    rw [List.flatten_cons] at merges starts ⊢
    obtain ⟨own, others⟩ := List.forall_mem_append.mp starts
    have first : Saves le
        (grammar.runHealed words (grammar.meaning words true) (Node.mergeRun (stamp 0) nodes) state)
        (grammar.runAny words (grammar.meaning words true) nodes other) := by
      match nodes with
      | [] => exact absurd rfl filledFirst
      | [only] =>
        rw [runAny_singleton]
        exact gauge.alike.runHealed (gauge.alike.meaning true only) state other under
      | first :: second :: rest =>
        have heads := heads_alike (f := grammar.meaning words true) meaning_eq_of_isSame chain
        exact gauge.runHealed_mergeRun_saves
          (merges _ _ _ _ (List.sublist_append_left ..) chain)
          (fun node member => ⟨heads node member, own node member⟩) under
    rw [List.mapIdx_cons, runAny_cons, runAny_append]
    intro answer ended
    obtain ⟨middle, ran, ended⟩ := Option.bind_eq_some_iff.mp ended
    obtain ⟨middle', ran', same⟩ := first middle ran
    cases same with
    | matched under =>
      cases ended
      exact ⟨_, by rw [ran']; rfl, .matched under⟩
    | @failed after after' under =>
      have back := trail_of_runAny (goesOnTo_moves words).meaning ran'
      have mergesRest : grammar.Merges words le runs.flatten :=
        fun stamp first second rest inside => merges stamp first second rest
          (inside.trans (List.sublist_append_right ..))
      have startsRest : ∀ node ∈ runs.flatten, grammar.starts words node after' = true := by
        intro node member
        rw [(sameTrail_alike words).starts_eq back]
        exact others node member
      obtain ⟨last, ranRest, same⟩ := ih (fun run => stamp (run + 1)) filledRest chainsRest
        mergesRest startsRest under answer ended
      exact ⟨last, by rw [ran']; exact ranRest, same⟩

/-- The candidates of a choice leave no more than the alternatives that may start. -/
theorem runAny_candidates_saves (merges : grammar.Merges words le alternatives) (stamp : Stamp)
    {next? : Option Kind} (next : other.currentKind? words = next?) (under : Under le state other) :
    Saves le
      (grammar.runAny words (grammar.meaning words true)
        (grammar.candidates stamp alternatives next?) state)
      (grammar.runAny words (grammar.meaning words true)
        (alternatives.filter fun node => mayStart (grammar.prediction node) next?) other) := by
  have whole := List.flatten_splitBy (fun first second : Node => first.head.isSame second.head)
    ((grammar.selected alternatives next?).map Prod.fst)
  rw [← map_fst_selected, ← whole]
  refine gauge.runAny_mergeRuns_saves (.merged stamp _) (fun _ => List.ne_nil_of_mem_splitBy)
    (fun _ => List.isChain_of_mem_splitBy) ?_ ?_ under
  all_goals rw [whole, map_fst_selected]
  · exact fun stamp first second rest inside => merges stamp first second rest
      (inside.trans List.filter_sublist)
  · intro node member
    unfold Grammar.starts
    rw [next]
    simpa using (List.mem_filter.mp member).2

/-- Alternatives that the next word does not rule out leave no more than all of them. -/
theorem runAny_filter_saves {next? : Option Kind} (next : state.currentKind? words = next?)
    (under : Under le state other) :
    Saves le
      (grammar.runAny words (grammar.meaning words true)
        (alternatives.filter fun node => mayStart (grammar.prediction node) next?) state)
      (grammar.runAny words (grammar.meaning words true) alternatives other) := by
  have alike := gauge.alike
  induction alternatives generalizing state other with
  | nil => exact .some (.failed under)
  | cons node rest ih =>
    cases starts : mayStart (grammar.prediction node) next? with
    | false =>
      have ruledOut : grammar.starts words node other = false := by
        rw [← alike.starts_eq under]
        unfold Grammar.starts
        rwa [next]
      have refused : Under le state (grammar.refused node other) :=
        gauge.under_trans under ⟨(State.trail_expect ..).symm, gauge.expect other _⟩
      rw [List.filter_cons_of_neg (by simp [starts]), runAny_cons, runHealed_eq, ruledOut]
      exact ih next refused
    | true =>
      rw [List.filter_cons_of_pos (by simp only [starts]), runAny_cons, runAny_cons]
      intro answer ended
      obtain ⟨first, ran, ended⟩ := Option.bind_eq_some_iff.mp ended
      obtain ⟨first', ran', same⟩ :=
        alike.runHealed (alike.meaning true node) state other under first ran
      cases same with
      | matched under =>
        cases ended
        exact ⟨_, by rw [ran']; rfl, .matched under⟩
      | failed under =>
        have back := trail_of_runHealed (goesOnTo_moves words).meaning ran
        obtain ⟨last, ranRest, same⟩ :=
          ih ((State.currentKind?_eq_of_trail back words).trans next) under answer ended
        exact ⟨last, by rw [ran']; exact ranRest, same⟩

/-! ## The two ways to make choices -/

/-- A choice that is dispatched leaves no more than one that is made in order. -/
theorem runChoice_saves {run : Runner} {stamp : Stamp} {isOptional : Bool}
    (merges : grammar.Merges words le alternatives)
    (runs : ∀ next?, ∀ node ∈ grammar.candidates stamp alternatives next?,
      SimulatesAt (Under le) (Under le) run (grammar.meaning words true) node)
    (under : Under le state other) :
    Saves le (grammar.runChoice words run false stamp alternatives isOptional state)
      (grammar.runChoice words (grammar.meaning words true) true stamp alternatives isOptional
        other) := by
  have alike := gauge.alike
  have tried : Saves le
      (grammar.runAny words run
        (grammar.candidates stamp alternatives (state.currentKind? words)) state)
      (grammar.runAny words (grammar.meaning words true) alternatives other) := by
    refine gauge.saves_trans
      (alike.runAny (runs _) (gauge.under_refl state) fun _ => gauge.under_refl state) ?_
    exact gauge.saves_trans (gauge.runAny_candidates_saves merges stamp rfl
      (gauge.under_refl state)) (gauge.runAny_filter_saves rfl under)
  rw [runChoice_eq, runChoice_eq]
  exact tried.map fun _ _ => alike.chosen alternatives isOptional

/-- Where merging leaves no more at any choice, a run in which choices are dispatched ends like one
in which they are made in order, and leaves no more. -/
theorem runNode_saves {inside : Node → Prop}
    (closed : ∀ node, inside node → ∀ child, Asks grammar false node child → inside child)
    (merges : ∀ stamp alternatives isOptional, inside (.choice stamp alternatives isOptional) →
      grammar.Merges words le alternatives) (fuel : Nat) {node : Node} (member : inside node) :
    SimulatesAt (Under le) (Under le) (grammar.runNode words false fuel)
      (grammar.meaning words true) node := by
  have alike := gauge.alike
  induction fuel generalizing node with
  | zero => exact fun _ _ _ => .none _
  | succ fuel ih =>
    rw [show grammar.meaning words true = grammar.step words (grammar.meaning words true) true
      from funext fun node => funext fun state => (step_meaning node state).symm]
    have parts : ∀ child ∈ node.children, SimulatesAt (Under le) (Under le)
        (grammar.runNode words false fuel) (grammar.meaning words true) child :=
      fun child inner => ih (closed node member child (.part inner))
    cases node with
    | choice stamp alternatives isOptional =>
      exact fun state other => gauge.runChoice_saves (merges stamp alternatives isOptional member)
        fun next? child inner => ih (closed _ member child (.tried inner))
    | ahead stamp child =>
      exact alike.step_ahead (parts child (List.mem_singleton_self _))
        fun _ _ _ _ _ after _ _ => alike.rollback after _
    | ref stamp rule =>
      exact Alike.step_ref (fun body lookup => ih (closed _ member body (.body lookup)))
        fun _ _ _ same => same
    | _ => exact alike.step rfl parts

end Gauge

end Offside.Grammar
