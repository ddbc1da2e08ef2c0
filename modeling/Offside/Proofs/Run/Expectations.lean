import Offside.Proofs.Run.Owning

/-! # What dispatch expects is expected in order

A parse that fails says what it expected at the furthest word that it refused. With dispatch, merged
alternatives that fail behind what they share are a choice that fails, and a choice says what its
alternatives are known to start with. In order, each of them says what it refused itself. So if
these own up, nothing is expected with dispatch that is not expected in order, unless one of the two
came further.

A text does not own up: in order it asks for itself, and the choice it has become an alternative of
asks for any token of its kind.
-/

namespace Offside.Grammar

open Parse
open Token (Kind KindSet)

section

variable {grammar : Grammar} {words : Array Word} {root node child : Node}

/-! ## Everything that dispatch runs -/

/-- In front of a word that no alternative is known to start with, the candidates are those at the
end of the words. -/
theorem candidates_eq_of_unknown {stamp : Stamp} {alternatives : List Node} {kind : Kind}
    (unknown : (grammar.knownFirst alternatives).contains kind = false) :
    grammar.candidates stamp alternatives (some kind) =
      grammar.candidates stamp alternatives none := by
  have selection : grammar.selected alternatives (some kind) =
      grammar.selected alternatives none := by
    refine List.filter_congr fun entry member => ?_
    cases predicted : grammar.prediction entry.1 with
    | none => simp only [predicted, mayStart]
    | some kinds =>
      simp only [predicted, mayStart]
      refine Bool.eq_false_iff.mpr fun inside => ?_
      rw [contains_knownFirst (List.fst_mem_of_mem_zipIdx member) predicted inside] at unknown
      cases unknown
  unfold candidates
  rw [selection]

theorem mem_allCandidates {stamp : Stamp} {alternatives : List Node} {next? : Option Kind}
    (member : node ∈ grammar.candidates stamp alternatives next?) :
    node ∈ grammar.allCandidates stamp alternatives := by
  refine List.mem_flatMap.mpr ?_
  cases next? with
  | none => exact ⟨none, by simp, member⟩
  | some kind =>
    cases known : (grammar.knownFirst alternatives).contains kind with
    | true => exact ⟨some kind, by simp [known], member⟩
    | false => exact ⟨none, by simp, candidates_eq_of_unknown known ▸ member⟩

/-- What a step with dispatch asks for is involved if the node is. -/
theorem Involves.of_asks (involved : grammar.Involves root node)
    (asks : Asks grammar false node child) : grammar.Involves root child := by
  cases asks with
  | part member => exact .part involved member
  | tried member => exact .candidate involved (mem_allCandidates member)
  | body lookup => exact .body involved lookup

/-- Dispatch brings nothing about that fails for nothing. -/
theorem Grounded.of_involves (grounded : grammar.Grounded root)
    (involved : grammar.Involves root node) : grammar.Grounded node := by
  have closed := Grounded.closed grammar
  induction involved with
  | root => exact grounded
  | part _ member ih => exact ih.child member
  | body _ lookup ih => exact ih.body lookup
  | candidate _ member ih =>
    obtain ⟨next?, -, candidate⟩ := List.mem_flatMap.mp member
    exact closed.candidates grammar _ (closed.alternatives ih) next? _ candidate

/-- What is involved lies in every list of nodes that holds the root and what is right below. -/
theorem Involves.mem_of_closed {inside : List Node} (member : root ∈ inside)
    (closed : ∀ node ∈ inside, ∀ next ∈ grammar.opens node, next ∈ inside)
    (involved : grammar.Involves root node) : node ∈ inside := by
  induction involved with
  | root => exact member
  | part _ below ih => exact closed _ ih _ (mem_opens_of_mem_children below)
  | body _ lookup ih => exact closed _ ih _ (Option.mem_toList.mpr lookup)
  | candidate _ below ih => exact closed _ ih _ (List.mem_append_right _ below)

/-! ## What is expected -/

theorem descriptions_subset {failure other : Failure}
    (kinds : ∀ kind, failure.kinds.contains kind = true → other.kinds.contains kind = true)
    (texts : ∀ text ∈ failure.texts, text ∈ other.texts) :
    failure.descriptions ⊆ other.descriptions := by
  refine List.append_subset.mpr ⟨?_, ?_⟩
  · refine List.subset_append_of_subset_left _ (List.map_subset _ fun kind member => ?_)
    exact KindSet.mem_toList.mpr (kinds kind (KindSet.mem_toList.mp member))
  · exact List.subset_append_of_subset_right _ (List.map_subset _ fun text member =>
      texts text member)

/-- Who expects at most what another one expects says nothing else, if both came equally far. -/
theorem expected_subset {state other : State} (under : Under ExpectsAtMost state other)
    (same : (state.outcome false).position = (other.outcome false).position) :
    (state.outcome false).expected ⊆ (other.outcome false).expected := by
  have position : state.position = other.position := congrArg Trail.position under.trail
  change max state.failure.position state.position =
    max other.failure.position other.position at same
  change (if max state.failure.position state.position = state.failure.position then
      state.failure.descriptions else []) ⊆
    if max other.failure.position other.position = other.failure.position then
      other.failure.descriptions else []
  split
  · next here =>
    rcases under.atMost with further | ⟨level, kinds, texts⟩
    · omega
    · rw [if_pos (by omega)]
      exact descriptions_subset kinds texts
  · exact List.nil_subset _

end

/-- If no name is without a body and no choice that has to match without alternatives, and in all
choices that are involved the rests of alternatives that start with the same node own up, then a
root that fails expects nothing with dispatch that it does not expect in order, provided that both
runs came equally far. -/
theorem expected_dispatched_subset_in_order (grammar : Grammar) (words : Array Word) (root : Node)
    (state : State) (filled : ∀ stamp, ¬Reaches grammar.rules root (.choice stamp [] false))
    (defined : grammar.Defined root)
    (ownUp : ∀ stamp alternatives isOptional,
      grammar.Involves root (.choice stamp alternatives isOptional) →
        grammar.RestsOwnUp alternatives) {fuel more : Nat} {after after' : State}
    (dispatched : grammar.runNode words false fuel root state = some (false, after))
    (inOrder : grammar.runNode words true more root state = some (false, after'))
    (same : (after.outcome false).position = (after'.outcome false).position) :
    (after.outcome false).expected ⊆ (after'.outcome false).expected := by
  have gauge := expectsAtMost_gauge words
  have grounded : grammar.Grounded root := ⟨filled, defined⟩
  have saves : SimulatesAt (Under ExpectsAtMost) (Under ExpectsAtMost)
      (grammar.runNode words false fuel) (grammar.meaning words true) root := by
    refine gauge.runNode_saves (fun node involved child => Involves.of_asks involved) ?_ fuel .root
    intro stamp alternatives isOptional involved
    refine merges_of_restsOwnUp (fun node member => ?_) (ownUp _ _ _ involved)
    exact (grounded.of_involves involved).child member
  obtain ⟨last, ended, under⟩ := saves state state (gauge.under_refl state) _ dispatched
  rw [runNode_below_meaning more root state _ inOrder] at ended
  cases ended
  cases under with
  | failed under => exact expected_subset under same

/-- Two alternatives that begin with a name, in front of two names. -/
theorem expected_dispatched_subset_in_order_of_names :
    let grammar := ofRules .empty
    let words : Array Word := #[⟨.lowerName, "a"⟩, ⟨.lowerName, "b"⟩]
    let name : Node := .token (.made 0) .lowerName
    let rests : List Node := [.token (.made 1) .properName, .token (.made 2) .comma]
    let root : Node := .choice (.made 5) (rests.map fun rest => .seq (.made 3) [name, rest]) false
    let dispatched : State :=
      ⟨0, #[], #[], ⟨1, .union (.single .properName) (.single .comma), []⟩, 1⟩
    let inOrder : State := { dispatched with bumps := 2 }
    grammar.runNode words false 4 root .start = some (false, dispatched) ∧
      grammar.runNode words true 4 root .start = some (false, inOrder) ∧
      (dispatched.outcome false).position = (inOrder.outcome false).position ∧
      (dispatched.outcome false).expected ⊆ (inOrder.outcome false).expected := by
  intro grammar words name rests root dispatched inOrder
  let tails : Node := .choice (.merged (.made 5) [0, 1] 0 1) rests false
  let inside : List Node :=
    [root, name, tails, .seq (.merged (.made 5) [0, 1] 0 0) [name, tails]] ++ rests ++
      rests.map fun rest => .seq (.made 3) [name, rest]
  have involved : ∀ {node}, grammar.Involves root node → node ∈ inside := fun involved =>
    involved.mem_of_closed (by decide) (by decide +kernel)
  have filled : ∀ stamp, ¬Reaches grammar.rules root (.choice stamp [] false) := by
    intro stamp reached
    simpa [inside, root, name, tails, rests] using involved (involves_of_reaches reached)
  have defined : grammar.Defined root :=
    defined_ofRules (show Rules.empty.areDefined root = true by decide)
  have ownUp : ∀ stamp alternatives isOptional,
      grammar.Involves root (.choice stamp alternatives isOptional) →
        grammar.RestsOwnUp alternatives := by
    intro stamp alternatives isOptional choice first second pair same
    have member := involved choice
    simp only [inside, root, name, tails, rests, List.map_cons, List.map_nil, List.cons_append,
      List.nil_append, List.mem_cons, List.not_mem_nil, Node.choice.injEq, reduceCtorEq, false_or,
      or_false] at member
    rcases member with ⟨-, rfl, -⟩ | ⟨-, rfl, -⟩
    · obtain ⟨rfl, rfl⟩ : first = _ ∧ second = _ := by simpa using pair.eq_of_length rfl
      intro node among stamp
      rcases List.mem_pair.mp among with rfl | rfl
      · exact .token
      · exact .token
    · obtain ⟨rfl, rfl⟩ : first = _ ∧ second = _ := by simpa using pair.eq_of_length rfl
      cases same
  have ranDispatched : grammar.runNode words false 4 root .start = some (false, dispatched) := by
    decide
  have ranInOrder : grammar.runNode words true 4 root .start = some (false, inOrder) := by decide
  exact ⟨ranDispatched, ranInOrder, rfl, expected_dispatched_subset_in_order grammar words root
    .start filled defined ownUp ranDispatched ranInOrder rfl⟩

/-- Two names that different texts follow, in front of two names: with dispatch any operator is
expected behind the first, and in order one of the two texts. -/
theorem expects_operator_for_text :
    let grammar := ofRules .empty
    let words : Array Word := #[⟨.lowerName, "a"⟩, ⟨.lowerName, "b"⟩]
    let first : Node := .seq (.made 2) [.token (.made 0) .lowerName, .text (.made 1) .operator "="]
    let second : Node := .seq (.made 5) [.token (.made 3) .lowerName, .text (.made 4) .operator ":"]
    let root : Node := .choice (.made 6) [first, second] false
    let dispatched : State := ⟨0, #[], #[], ⟨1, .single .operator, []⟩, 1⟩
    let inOrder : State := ⟨0, #[], #[], ⟨1, .empty, ["=", ":"]⟩, 2⟩
    grammar.Defined root ∧
      grammar.runNode words false 4 root .start = some (false, dispatched) ∧
      grammar.runNode words true 4 root .start = some (false, inOrder) ∧
      dispatched.outcome false = ⟨false, 1, ["operator"]⟩ ∧
      inOrder.outcome false = ⟨false, 1, ["`=`", "`:`"]⟩ ∧
      ¬(dispatched.outcome false).expected ⊆ (inOrder.outcome false).expected := by
  intro grammar words first second root dispatched inOrder
  have defined : grammar.Defined root :=
    defined_ofRules (show Rules.empty.areDefined root = true by decide)
  have expectsKind : dispatched.outcome false = ⟨false, 1, ["operator"]⟩ := by decide +kernel
  have expectsTexts : inOrder.outcome false = ⟨false, 1, ["`=`", "`:`"]⟩ := by decide +kernel
  refine ⟨defined, by decide, by decide, expectsKind, expectsTexts, ?_⟩
  rw [expectsKind, expectsTexts]
  decide

end Offside.Grammar
