import Mathlib.Logic.Relation
import Mathlib.Order.WellFounded
import Offside.Proofs.Grammar.FirstSets
import Offside.Proofs.Grammar.Language
import Offside.Proofs.Grammar.Weight

/-! # Predictions and first steps

Where the first token of a node comes from is a graph: a sequence leads to its first item, a choice
to its alternatives, a name to its body. What is predicted for a node is read off this graph. It is
known if and only if no way down comes back to where it was or to a node that may be matched by
nothing, and then it is what the tokens at the ends of all ways are.

First sets are found by rounds. That the rounds find everything rests on a count: a round after
which no more rules are known than before is the last that can find anything, and there are no more
rounds than rules.
-/

namespace Offside.Grammar

open Token (Kind KindSet)
open Relation (ReflTransGen TransGen)

/-- Where the first token of a node comes from. -/
def Node.firstSteps (rules : Rules) : Node → List Node
  | .seq _ (item :: _) => [item]
  | .choice _ alternatives false => alternatives
  | .oneOrMore _ child | .heal _ child | .ahead _ child | .symbolic _ _ child
  | .fold _ _ child _ | .cont _ _ child _ => [child]
  | .ref _ rule => (rules.body? rule).toList
  | _ => []

/-- One node leads to another. -/
def StepsTo (rules : Rules) (node next : Node) : Prop := next ∈ node.firstSteps rules

/-- Whether a node may be matched by nothing, whatever its parts are. -/
def Node.isOpen : Node → Bool
  | .empty _ | .relax .. | .relaxTo .. => true
  | .choice _ _ isOptional => isOptional
  | _ => false

/-- Whether a first step is missing: names without a body, and sequences without items, which are
never made. -/
def Node.isMissing (rules : Rules) : Node → Bool
  | .seq _ [] => true
  | .ref _ rule => (rules.body? rule).isNone
  | _ => false

/-- The kind of a token. -/
def Node.kind? : Node → Option Kind
  | .token _ kind | .text _ kind _ => some kind
  | _ => none

/-! ## One more round finds nothing new -/

namespace Rules

/-- Number of rules whose first sets are known after some rounds. -/
def countKnown (rules : Rules) (rounds : Nat) : Nat :=
  rules.bodies.countP fun (rule, _) => ((rules.firstSetsAfter rounds).of rule).isSome

/-- A round finds the first set of one more rule, or none. -/
theorem countKnown_lt_or_le (rules : Rules) (rounds : Nat) :
    rules.countKnown rounds < rules.countKnown (rounds + 1) ∨
      (rules.firstSetsAfter (rounds + 1)).Le (rules.firstSetsAfter rounds) := by
  have grows := rules.firstSetsAfter_succ_le rounds
  by_cases more : ∃ definition ∈ rules.bodies,
      ((rules.firstSetsAfter rounds).of definition.1).isSome = false ∧
        ((rules.firstSetsAfter (rounds + 1)).of definition.1).isSome = true
  · obtain ⟨definition, member, unknown, known⟩ := more
    refine .inl (countP_lt_countP (fun other _ early => ?_) member unknown known)
    obtain ⟨kinds, found⟩ := Option.isSome_iff_exists.mp early
    exact Option.isSome_iff_exists.mpr ⟨kinds, grows _ _ found⟩
  · refine .inr fun rule kinds found => ?_
    have defined : ∃ body, (rule, body) ∈ rules.bodies := by
      rw [firstSetsAfter, of_lookThrough] at found
      obtain ⟨body, lookup, -⟩ := Option.bind_eq_some_iff.mp found
      exact ⟨body, mem_bodies lookup⟩
    obtain ⟨body, member⟩ := defined
    cases early : (rules.firstSetsAfter rounds).of rule with
    | none =>
      exact absurd ⟨(rule, body), member, by simp [early], by simp [found]⟩ more
    | some other => rw [← found, grows rule other early]

/-- As many rounds as there are rules find all that is ever found. -/
theorem firstSetsAfter_length_stable (rules : Rules) :
    (rules.firstSetsAfter (rules.bodies.length + 1)).Le
      (rules.firstSetsAfter rules.bodies.length) := by
  have progress : ∀ rounds, rounds ≤ rules.countKnown rounds ∨
      (rules.firstSetsAfter (rounds + 1)).Le (rules.firstSetsAfter rounds) := by
    intro rounds
    induction rounds with
    | zero => exact .inl (Nat.zero_le _)
    | succ rounds ih =>
      rcases ih with many | stable
      · rcases rules.countKnown_lt_or_le rounds with more | stable
        · exact .inl (by omega)
        · exact .inr (rules.lookThrough_mono stable)
      · exact .inr (rules.lookThrough_mono stable)
  rcases rules.countKnown_lt_or_le rules.bodies.length with more | stable
  · rcases progress rules.bodies.length with many | stable
    · have few : rules.countKnown (rules.bodies.length + 1) ≤ rules.bodies.length :=
        List.countP_le_length
      omega
    · exact stable
  · exact stable

end Rules

/-- What is predicted for a name is what is predicted for its body. -/
theorem prediction_ref (grammar : Grammar) (stamp : Stamp) (rule : String) :
    grammar.prediction (.ref stamp rule) = (grammar.rules.body? rule).bind grammar.prediction := by
  have once : (grammar.rules.lookThrough grammar.firstSets).of rule =
      (grammar.rules.body? rule).bind grammar.prediction := grammar.rules.of_lookThrough _ rule
  rw [← once, firstSets_eq_after]
  ext kinds
  constructor
  · intro found
    refine grammar.rules.firstSetsAfter_succ_le _ rule kinds ?_
    rwa [prediction, firstSets_eq_after] at found
  · intro found
    rw [prediction, firstSets_eq_after]
    exact grammar.rules.firstSetsAfter_length_stable rule kinds found

/-! ## What is known comes from first steps -/

section

variable {rules : Rules} {known : FirstSets} {grammar : Grammar} {node next : Node}
  {kinds : KindSet} {kind : Kind}

theorem Node.isSome_firstOfAll_iff {nodes : List Node} :
    (Node.firstOfAll known nodes).isSome = true ↔
      ∀ node ∈ nodes, (node.first known).isSome = true := by
  induction nodes with
  | nil => simp [Node.firstOfAll]
  | cons node rest ih =>
    rw [List.forall_mem_cons, ← ih, Node.firstOfAll]
    cases node.first known <;> cases Node.firstOfAll known rest <;> simp

theorem Node.contains_firstOfAll_iff {nodes : List Node}
    (found : Node.firstOfAll known nodes = some kinds) :
    kinds.contains kind = true ↔
      ∃ node ∈ nodes, ∃ own, node.first known = some own ∧ own.contains kind = true := by
  induction nodes generalizing kinds with
  | nil =>
    obtain rfl := Option.some.inj found
    simp
  | cons node rest ih =>
    obtain ⟨own, others, first, later, rfl⟩ := Node.firstOfAll_cons_eq_some.mp found
    rw [KindSet.contains_union, Bool.or_eq_true, ih later]
    simp [first]

/-- A first set is known if the node needs a token and those of all first steps are known. -/
theorem Node.isSome_first_iff (noName : ∀ stamp rule, node ≠ .ref stamp rule) :
    (node.first known).isSome = true ↔ node.isOpen = false ∧ node.isMissing rules = false ∧
      ∀ next, StepsTo rules node next → (next.first known).isSome = true := by
  cases node with
  | token | text | empty | relax | relaxTo =>
    simp [Node.first, isOpen, isMissing, StepsTo, firstSteps]
  | seq _ items => cases items <;> simp [Node.first, isOpen, isMissing, StepsTo, firstSteps]
  | choice _ alternatives isOptional =>
    cases isOptional with
    | true => simp [Node.first, isOpen]
    | false =>
      simpa [Node.first, isOpen, isMissing, StepsTo, firstSteps] using isSome_firstOfAll_iff
  | oneOrMore | heal | ahead | symbolic | fold | cont =>
    simp [Node.first, isOpen, isMissing, StepsTo, firstSteps]
  | ref stamp rule => exact absurd rfl (noName stamp rule)

/-- A first set holds the kind of a token, or what those of the first steps hold. -/
theorem Node.contains_first_iff (noName : ∀ stamp rule, node ≠ .ref stamp rule)
    (found : node.first known = some kinds) :
    kinds.contains kind = true ↔ node.kind? = some kind ∨
      ∃ next, StepsTo rules node next ∧
        ∃ own, next.first known = some own ∧ own.contains kind = true := by
  cases node with
  | token | text =>
    obtain rfl := Option.some.inj found
    simp [Node.kind?, StepsTo, firstSteps]
  | empty | relax | relaxTo => cases found
  | seq _ items =>
    cases items with
    | nil => cases found
    | cons item rest =>
      have same : item.first known = some kinds := found
      simp [Node.kind?, StepsTo, firstSteps, same]
  | choice _ alternatives isOptional =>
    cases isOptional with
    | true => cases found
    | false => simpa [Node.kind?, StepsTo, firstSteps] using contains_firstOfAll_iff found
  | oneOrMore _ child | heal _ child | ahead _ child | symbolic _ _ child | fold _ _ child
  | cont _ _ child =>
    have same : child.first known = some kinds := found
    simp [Node.kind?, StepsTo, firstSteps, same]
  | ref stamp rule => exact absurd rfl (noName stamp rule)

/-- First steps of what is no name are parts. -/
theorem StepsTo.mem_children (steps : StepsTo rules node next)
    (noName : ∀ stamp rule, node ≠ .ref stamp rule) : next ∈ node.children := by
  unfold StepsTo Node.firstSteps at steps
  split at steps
  all_goals simp_all [Node.children]

theorem stepsTo_ref_iff {stamp : Stamp} {rule : String} :
    StepsTo rules (.ref stamp rule) next ↔ rules.body? rule = some next := by
  simp [StepsTo, Node.firstSteps]

/-- If no way down from the body of a known rule goes on for ever, then none does from a node that
is known. -/
theorem acc_of_first (found : (node.first known).isSome = true)
    (bodies : ∀ rule body, (known.of rule).isSome = true → rules.body? rule = some body →
      Acc (Function.swap (StepsTo rules)) body) :
    Acc (Function.swap (StepsTo rules)) node := by
  induction node using Node.childInduction with
  | step node ih =>
    refine Acc.intro node fun next steps => ?_
    by_cases name : ∃ stamp rule, node = .ref stamp rule
    · obtain ⟨stamp, rule, rfl⟩ := name
      exact bodies rule next found (stepsTo_ref_iff.mp steps)
    · have noName : ∀ stamp rule, node ≠ .ref stamp rule :=
        fun stamp rule same => name ⟨stamp, rule, same⟩
      obtain ⟨-, -, each⟩ := (Node.isSome_first_iff noName).mp found
      exact ih next (steps.mem_children noName) (each next steps)

/-- What is predicted rests on ways down that end: every name on a way was known a round before what
it takes part in. -/
theorem acc_of_prediction (found : (grammar.prediction node).isSome = true) :
    Acc (Function.swap (StepsTo grammar.rules)) node := by
  have rounds : ∀ rounds rule body,
      ((grammar.rules.firstSetsAfter rounds).of rule).isSome = true →
        grammar.rules.body? rule = some body →
          Acc (Function.swap (StepsTo grammar.rules)) body := by
    intro rounds
    induction rounds with
    | zero => intro rule body known; cases known
    | succ rounds ih =>
      intro rule body known lookup
      rw [Rules.firstSetsAfter, Rules.of_lookThrough, lookup] at known
      exact acc_of_first known ih
  rw [prediction, firstSets_eq_after] at found
  exact acc_of_first found (rounds _)

/-- A prediction is known if the node needs a token and what is predicted for all first steps is
known. -/
theorem isSome_prediction_iff :
    (grammar.prediction node).isSome = true ↔
      node.isOpen = false ∧ node.isMissing grammar.rules = false ∧
        ∀ next, StepsTo grammar.rules node next → (grammar.prediction next).isSome = true := by
  by_cases name : ∃ stamp rule, node = .ref stamp rule
  · obtain ⟨stamp, rule, rfl⟩ := name
    rw [prediction_ref]
    simp only [stepsTo_ref_iff, Node.isOpen, Node.isMissing]
    cases grammar.rules.body? rule <;> simp
  · exact Node.isSome_first_iff fun stamp rule same => name ⟨stamp, rule, same⟩

/-- What is predicted holds the kind of a token, or what is predicted for first steps. -/
theorem contains_prediction_iff (found : grammar.prediction node = some kinds) :
    kinds.contains kind = true ↔ node.kind? = some kind ∨
      ∃ next, StepsTo grammar.rules node next ∧
        ∃ own, grammar.prediction next = some own ∧ own.contains kind = true := by
  by_cases name : ∃ stamp rule, node = .ref stamp rule
  · obtain ⟨stamp, rule, rfl⟩ := name
    rw [prediction_ref] at found
    obtain ⟨body, lookup, same⟩ := Option.bind_eq_some_iff.mp found
    simp [stepsTo_ref_iff, lookup, same, Node.kind?]
  · exact Node.contains_first_iff (fun stamp rule same => name ⟨stamp, rule, same⟩) found

/-! ## Ways down that come back -/

theorem isSome_of_reached (found : (grammar.prediction node).isSome = true)
    (reached : ReflTransGen (StepsTo grammar.rules) node next) :
    (grammar.prediction next).isSome = true := by
  induction reached with
  | refl => exact found
  | tail _ steps ih => exact (isSome_prediction_iff.mp ih).2.2 _ steps

/-- No way down from a node whose prediction is known comes back to it. -/
theorem not_transGen_self (found : (grammar.prediction node).isSome = true) :
    ¬TransGen (StepsTo grammar.rules) node node := by
  intro cycle
  replace cycle := Relation.transGen_swap.mpr cycle
  have acc := (acc_of_prediction found).transGen
  clear found
  induction acc with
  | intro node _ ih => exact ih node cycle cycle

end

/-- Number of rules whose bodies are not among those that are looked into. -/
def Rules.unvisited (rules : Rules) (visiting : List Node) : Nat :=
  rules.bodies.countP fun (_, body) => body ∉ visiting

/-- How far down a way can go on without coming back to where it was. -/
def wayLeft (rules : Rules) (heaviest : Nat) (visiting : List Node) (node : Node) : Nat :=
  if node ∈ visiting then 0
  else rules.unvisited (node :: visiting) * (heaviest + 1) + node.weight

section

variable {rules : Rules} {grammar : Grammar} {node next : Node} {visiting : List Node}
  {heaviest : Nat}

theorem unvisited_cons_le (rules : Rules) (node : Node) (visiting : List Node) :
    rules.unvisited (node :: visiting) ≤ rules.unvisited visiting := by
  refine List.countP_mono_left fun definition _ fresh => ?_
  simp only [decide_eq_true_eq, List.mem_cons, not_or] at fresh ⊢
  exact fresh.2

theorem unvisited_cons_lt {rule : String} (member : (rule, node) ∈ rules.bodies)
    (fresh : node ∉ visiting) : rules.unvisited (node :: visiting) < rules.unvisited visiting := by
  refine countP_lt_countP (fun definition _ fresh => ?_) member ?_ ?_
  · simp only [decide_eq_true_eq, List.mem_cons, not_or] at fresh ⊢
    exact fresh.2
  · simp
  · simpa using fresh

/-- With every step, less is left of a way down. -/
theorem wayLeft_lt
    (heavy : ∀ rule body, rules.body? rule = some body → body.weight ≤ heaviest)
    (fresh : node ∉ visiting) (steps : StepsTo rules node next) :
    wayLeft rules heaviest (node :: visiting) next < wayLeft rules heaviest visiting node := by
  have positive := node.weight_pos
  unfold wayLeft
  rw [if_neg fresh]
  split
  · omega
  · next new =>
    by_cases name : ∃ stamp rule, node = .ref stamp rule
    · obtain ⟨stamp, rule, rfl⟩ := name
      have lookup := stepsTo_ref_iff.mp steps
      have fewer := unvisited_cons_lt (Rules.mem_bodies lookup) new
      have scaled := Nat.mul_le_mul_right (heaviest + 1) (Nat.succ_le_of_lt fewer)
      have light := heavy rule next lookup
      rw [Nat.succ_mul] at scaled
      omega
    · have lighter := Node.weight_lt_of_mem_children
        (steps.mem_children fun stamp rule same => name ⟨stamp, rule, same⟩)
      have scaled := Nat.mul_le_mul_right (heaviest + 1)
        (unvisited_cons_le rules next (node :: visiting))
      omega

/-- If nothing is predicted for a node, some way down from it, or from where it was reached, comes
back or leads to a node that may be matched by nothing. -/
theorem exists_way_of_unknown (unknown : (grammar.prediction node).isSome = false)
    (reached : ∀ earlier ∈ visiting, TransGen (StepsTo grammar.rules) earlier node) :
    ∃ other, ReflTransGen (StepsTo grammar.rules) node other ∧
      (other.isOpen = true ∨ other.isMissing grammar.rules = true ∨
        TransGen (StepsTo grammar.rules) other other) := by
  let heaviest := grammar.rules.heaviest (.empty (.made 0))
  have heavy : ∀ rule body, grammar.rules.body? rule = some body → body.weight ≤ heaviest :=
    fun rule body lookup => Rules.weight_body_le_heaviest _ (Rules.mem_bodies lookup)
  induction left : wayLeft grammar.rules heaviest visiting node using Nat.strong_induction_on
    generalizing visiting node with
  | _ left ih =>
    by_cases back : node ∈ visiting
    · exact ⟨node, .refl, .inr (.inr (reached node back))⟩
    by_cases isOpen : node.isOpen = true
    · exact ⟨node, .refl, .inl isOpen⟩
    by_cases missing : node.isMissing grammar.rules = true
    · exact ⟨node, .refl, .inr (.inl missing)⟩
    obtain ⟨next, steps, unknownNext⟩ : ∃ next, StepsTo grammar.rules node next ∧
        (grammar.prediction next).isSome = false := by
      by_contra none
      have known : (grammar.prediction node).isSome = true := by
        refine isSome_prediction_iff.mpr ⟨by simpa using isOpen, by simpa using missing, ?_⟩
        intro next steps
        by_contra unknownNext
        exact none ⟨next, steps, by simpa using unknownNext⟩
      rw [known] at unknown
      cases unknown
    obtain ⟨other, way, stuck⟩ := ih _ (left ▸ wayLeft_lt heavy back steps) unknownNext
      (List.forall_mem_cons.mpr
        ⟨.single steps, fun earlier member => (reached earlier member).tail steps⟩) rfl
    exact ⟨other, .head steps way, stuck⟩

/-- Nothing is predicted for a node if and only if some way down from it comes back to where it was
or leads to a node that may be matched by nothing. -/
theorem prediction_eq_none_iff :
    grammar.prediction node = none ↔
      ∃ other, ReflTransGen (StepsTo grammar.rules) node other ∧
        (other.isOpen = true ∨ other.isMissing grammar.rules = true ∨
          TransGen (StepsTo grammar.rules) other other) := by
  constructor
  · intro none
    have unknown := Option.isSome_eq_false_iff.mpr (Option.isNone_iff_eq_none.mpr none)
    have nothing : ∀ earlier ∈ ([] : List Node), TransGen (StepsTo grammar.rules) earlier node :=
      fun _ member => absurd member List.not_mem_nil
    exact exists_way_of_unknown unknown nothing
  · rintro ⟨other, way, stuck⟩
    by_contra some
    have known := isSome_of_reached (Option.isSome_iff_ne_none.mpr some) way
    obtain ⟨closed, complete, -⟩ := isSome_prediction_iff.mp known
    rcases stuck with isOpen | missing | cycle
    · rw [closed] at isOpen
      cases isOpen
    · rw [complete] at missing
      cases missing
    · exact not_transGen_self known cycle

/-- What is predicted for a node are the kinds of the tokens that ways down from it end at. -/
theorem contains_prediction_iff_exists {kinds : KindSet} {kind : Kind}
    (found : grammar.prediction node = some kinds) :
    kinds.contains kind = true ↔
      ∃ leaf, ReflTransGen (StepsTo grammar.rules) node leaf ∧ leaf.kind? = some kind := by
  have acc := acc_of_prediction (Option.isSome_iff_exists.mpr ⟨kinds, found⟩)
  induction acc generalizing kinds with
  | intro node _ ih =>
    rw [contains_prediction_iff found]
    constructor
    · rintro (own | ⟨next, steps, own, foundNext, inside⟩)
      · exact ⟨node, .refl, own⟩
      · obtain ⟨leaf, way, isKind⟩ := (ih next steps foundNext).mp inside
        exact ⟨leaf, .head steps way, isKind⟩
    · rintro ⟨leaf, way, isKind⟩
      rcases way.cases_head with rfl | ⟨next, steps, way⟩
      · exact .inl isKind
      · have isSome := Option.isSome_iff_exists.mpr ⟨kinds, found⟩
        have known := isSome_of_reached isSome (.single steps)
        obtain ⟨own, foundNext⟩ := Option.isSome_iff_exists.mp known
        exact .inr ⟨next, steps, own, foundNext, (ih next steps foundNext).mpr ⟨leaf, way, isKind⟩⟩

end

end Offside.Grammar
