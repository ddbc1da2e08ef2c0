import Offside.Grammar.Search
import Offside.Proofs.Grammar.FirstGraph

/-! # Predictions in any order

A prediction that is looked for with what was found before comes to what the rounds through all
rules predict. What makes up for giving up on a node that is just being looked into is that such a
node was come back to: nothing is predicted for it, wherever the search began. So nothing is written
down that another order of questions would have found otherwise.
-/

namespace Offside.Grammar

open Token (Kind KindSet)
open Relation (ReflTransGen TransGen)

/-- Everything that was found is predicted. -/
def Found.IsSound (grammar : Grammar) (found : Found) : Prop :=
  ∀ node prediction, found[node]? = some prediction → prediction = grammar.prediction node

/-- An answer to what is predicted for a node, with nothing wrong written down. -/
def Answers (grammar : Grammar) (node : Node) (answer? : Option (Option KindSet × Found)) : Prop :=
  ∃ found, answer? = some (grammar.prediction node, found) ∧ found.IsSound grammar

section

variable {grammar : Grammar} {node : Node} {found : Found}

theorem Found.isSound_empty (grammar : Grammar) : (∅ : Found).IsSound grammar := by
  intro node prediction there
  simp at there

/-- Writing a prediction down, unless there is one, keeps what is written down sound. -/
theorem Found.IsSound.insertIfNew (sound : found.IsSound grammar) (node : Node) :
    Found.IsSound grammar (found.insertIfNew node (grammar.prediction node)) := by
  intro other prediction there
  rw [Std.HashMap.getElem?_insertIfNew] at there
  split at there
  · next new =>
    obtain rfl := beq_iff_eq.mp new.1
    exact (Option.some.inj there).symm
  · exact sound other prediction there

/-- Joining predictions of alternatives stops where it would have come to nothing. -/
theorem searchAll_answers {below : Node → Found → Option (Option KindSet × Found)}
    {nodes : List Node}
    (each : ∀ node ∈ nodes, ∀ found : Found, found.IsSound grammar →
      grammar.Answers node (below node found))
    (kinds : KindSet) (sound : found.IsSound grammar) :
    ∃ after, searchAll below nodes kinds found =
        some ((Node.firstOfAll grammar.firstSets nodes).map kinds.union, after) ∧
      after.IsSound grammar := by
  induction nodes generalizing kinds found with
  | nil => exact ⟨found, by simp [searchAll, Node.firstOfAll], sound⟩
  | cons node rest ih =>
    obtain ⟨own, others⟩ := List.forall_mem_cons.mp each
    obtain ⟨middle, answer, kept⟩ := own found sound
    rw [searchAll, answer, Node.firstOfAll]
    cases predicted : grammar.prediction node with
    | none =>
      have first : node.first grammar.firstSets = none := predicted
      exact ⟨middle, by simp [first], kept⟩
    | some set =>
      have first : node.first grammar.firstSets = some set := predicted
      obtain ⟨after, joined, last⟩ := ih others (kinds.union set) kept
      refine ⟨after, joined.trans ?_, last⟩
      rw [first]
      cases Node.firstOfAll grammar.firstSets rest with
      | none => rfl
      | some more => simp [KindSet.union_assoc]

/-- Looking into a node answers for it if the search below it answers for its first steps. -/
theorem lookInto_answers {below : Node → Found → Option (Option KindSet × Found)}
    (each : ∀ next, StepsTo grammar.rules node next → ∀ found : Found, found.IsSound grammar →
      grammar.Answers next (below next found))
    (sound : found.IsSound grammar) : grammar.Answers node (grammar.lookInto below found node) := by
  cases node with
  | token | text | empty | relax | relaxTo => exact ⟨found, rfl, sound⟩
  | seq _ items =>
    cases items with
    | nil => exact ⟨found, rfl, sound⟩
    | cons item rest => exact each item (List.mem_singleton_self _) found sound
  | choice _ alternatives isOptional =>
    cases isOptional with
    | true => exact ⟨found, rfl, sound⟩
    | false =>
      obtain ⟨after, joined, kept⟩ := searchAll_answers each .empty sound
      have nothing : KindSet.union .empty = id := funext KindSet.empty_union
      rw [nothing, Option.map_id] at joined
      exact ⟨after, joined, kept⟩
  | oneOrMore _ child | heal _ child | ahead _ child | symbolic _ _ child | fold _ _ child
  | cont _ _ child => exact each child (List.mem_singleton_self _) found sound
  | ref stamp rule =>
    rw [lookInto, Answers, prediction_ref]
    cases lookup : grammar.rules.body? rule with
    | none => exact ⟨found, rfl, sound⟩
    | some body => exact each body (stepsTo_ref_iff.mpr lookup) found sound

/-- A search answers for the node where it begins, whatever was found before, if the nodes that are
looked into lead there. -/
theorem search_answers {heaviest depth : Nat} {visiting : List Node}
    (heavy : ∀ rule body, grammar.rules.body? rule = some body → body.weight ≤ heaviest)
    (enough : wayLeft grammar.rules heaviest visiting node < depth)
    (reached : ∀ earlier ∈ visiting, TransGen (StepsTo grammar.rules) earlier node)
    (sound : found.IsSound grammar) :
    grammar.Answers node (grammar.search depth visiting node found) := by
  induction depth generalizing visiting node found with
  | zero => omega
  | succ depth ih =>
    rw [search]
    split
    · next prediction written =>
      rw [sound node prediction written]
      exact ⟨found, rfl, sound⟩
    split
    · next back =>
      -- The node was come back to, so that nothing is predicted for it.
      have nothing := prediction_eq_none_iff.mpr ⟨node, .refl, .inr (.inr (reached node back))⟩
      exact ⟨found, by rw [nothing], sound⟩
    · next fresh =>
      have below : ∀ next, StepsTo grammar.rules node next →
          ∀ found : Found, found.IsSound grammar →
            grammar.Answers next (grammar.search depth (node :: visiting) next found) := by
        intro next steps found sound
        have less := wayLeft_lt heavy fresh steps
        refine ih (by omega) (List.forall_mem_cons.mpr ⟨.single steps, ?_⟩) sound
        exact fun earlier member => (reached earlier member).tail steps
      obtain ⟨after, answer, kept⟩ := lookInto_answers below sound
      refine ⟨after.insertIfNew node (grammar.prediction node), ?_, kept.insertIfNew node⟩
      have same : after[node]?.getD (grammar.prediction node) = grammar.prediction node := by
        cases written : after[node]? with
        | none => rfl
        | some prediction => exact kept node prediction written
      simp only [answer, Option.map_some, Std.HashMap.getThenInsertIfNew?_fst,
        Std.HashMap.getThenInsertIfNew?_snd, same]

theorem ask_answers (sound : found.IsSound grammar) (node : Node) :
    grammar.Answers node (grammar.ask found node) := by
  have heavy : ∀ rule body, grammar.rules.body? rule = some body →
      body.weight ≤ grammar.rules.heaviest node :=
    fun rule body lookup => Rules.weight_body_le_heaviest node (Rules.mem_bodies lookup)
  refine search_answers heavy ?_ (fun _ member => absurd member List.not_mem_nil) sound
  have few : grammar.rules.unvisited [node] ≤ grammar.rules.bodies.length := List.countP_le_length
  have scaled := Nat.mul_le_mul_right (grammar.rules.heaviest node + 1) few
  have light := Rules.weight_le_heaviest grammar.rules node
  rw [wayLeft, if_neg List.not_mem_nil]
  change _ < (grammar.rules.bodies.length + 1) * (grammar.rules.heaviest node + 1)
  rw [Nat.succ_mul]
  omega

/-- Questions asked one after the other are all answered. -/
theorem askAll_answers (nodes : List Node) (sound : found.IsSound grammar) :
    ∃ after, grammar.askAll nodes found = some after ∧ after.IsSound grammar := by
  induction nodes generalizing found with
  | nil => exact ⟨found, rfl, sound⟩
  | cons node rest ih =>
    obtain ⟨middle, answer, kept⟩ := ask_answers sound node
    obtain ⟨after, ended, last⟩ := ih kept
    exact ⟨after, by rw [askAll, answer, Option.bind_some, ended], last⟩

end

/-- Whatever predictions were asked for before, and in whatever order, a question comes to an end,
with what the rounds through all rules predict. There is no prediction if and only if some way down
from the node comes back to where it was or leads to a node that may be matched by nothing, or where
a first step is missing. Otherwise it consists of the kinds of the tokens that ways down end at. -/
theorem ask_is_exact_in_any_order (grammar : Grammar) (earlier : List Node) (node : Node) :
    ∃ found answer after, grammar.askAll earlier ∅ = some found ∧
      grammar.ask found node = some (answer, after) ∧
      answer = grammar.prediction node ∧
      (answer = none ↔ ∃ other, ReflTransGen (StepsTo grammar.rules) node other ∧
        (other.isOpen = true ∨ other.isMissing grammar.rules = true ∨
          TransGen (StepsTo grammar.rules) other other)) ∧
      ∀ kinds, answer = some kinds → ∀ kind, kinds.contains kind = true ↔
        ∃ leaf, ReflTransGen (StepsTo grammar.rules) node leaf ∧ leaf.kind? = some kind := by
  obtain ⟨found, ended, sound⟩ := askAll_answers earlier (Found.isSound_empty grammar)
  obtain ⟨after, answer, -⟩ := ask_answers sound node
  exact ⟨found, _, after, ended, answer, rfl, prediction_eq_none_iff,
    fun kinds known kind => contains_prediction_iff_exists known⟩

end Offside.Grammar
