import Offside.Proofs.Run.Sharing

/-! # Dispatch takes no word more often

Every word that a run takes is counted, and the count stays when the word is given back. Neither way
to make choices decides how the run ends, but the one in order takes words again for each
alternative that begins with them. The count alone is a gauge. Refusals are no part of it, so every
node leaves at least what its check does, and what the next word rules out takes nothing, so every
node leaves at most what its check does.
-/

namespace Offside.Grammar

open Parse
open Token (Kind KindSet)

/-- No more words were ever taken. -/
def TookAtMost (state other : State) : Prop := state.bumps ≤ other.bumps

section

variable {grammar : Grammar} {words : Array Word} {node : Node}

theorem tookAtMost_expect {state other : State} (kinds more : KindSet)
    (atMost : TookAtMost state other) : TookAtMost (state.expect kinds) (other.expect more) := by
  rw [TookAtMost, State.bumps_expect, State.bumps_expect]
  exact atMost

theorem tookAtMost_gauge (words : Array Word) : Gauge words TookAtMost where
  refl _ := Nat.le_refl _
  trans := Nat.le_trans
  follow _ _ atMost := atMost
  bump state := by
    unfold TookAtMost State.bump
    split <;> simp
  bump_mono {state other} same atMost := by
    have position : state.position = other.position := congrArg Trail.position same
    unfold TookAtMost State.bump State.atEnd at *
    rw [position]
    split
    · exact atMost
    · exact Nat.succ_le_succ atMost
  expect state kinds := Nat.le_of_eq (State.bumps_expect state kinds).symm
  expect_mono kinds _ := tookAtMost_expect kinds kinds
  expectText state text := Nat.le_of_eq (State.bumps_expectText state text).symm
  expectText_mono text _ atMost := by
    rw [TookAtMost, State.bumps_expectText, State.bumps_expectText]
    exact atMost
  join {state _ _ kinds} _ atMost _ := by
    rw [TookAtMost, State.bumps_expect]
    exact atMost
  each {state other kinds} some owned := by
    obtain ⟨kind, inside⟩ := some
    have first := owned kind inside
    rw [TookAtMost, State.bumps_expect] at first ⊢
    exact first
  subset state _ := tookAtMost_expect _ _ (Nat.le_refl _)

/-- A check before an attempt takes nothing. -/
theorem leavesAtLeastCheck_of_bumps : grammar.LeavesAtLeastCheck words TookAtMost node := by
  intro state after kinds _ ran
  rw [TookAtMost, State.bumps_expect]
  exact (tookAtMost_gauge words).moves.meaning node state _ ran

/-- What the next word rules out takes nothing, if it is run all the same. -/
theorem leavesAtMostCheck_of_bumps : grammar.LeavesAtMostCheck words TookAtMost node := by
  intro state after refuses ran
  obtain ⟨failed, ended, back⟩ : Fails (grammar.meaning words true) node state :=
    fails_of_not_starts refuses
  obtain rfl : failed = after := by
    rw [ran] at ended
    cases ended
    rfl
  rw [TookAtMost, refused, State.bumps_expect]
  exact Nat.le_of_eq back.bumps

theorem merges_of_bumps (alternatives : List Node) :
    grammar.Merges words TookAtMost alternatives :=
  fun _ _ _ _ _ _ => ⟨fun _ _ => leavesAtLeastCheck_of_bumps,
    fun _ _ => leavesAtMostCheck_of_bumps, fun _ _ _ => leavesAtLeastCheck_of_bumps⟩

end

/-- From any state, a run in which choices are dispatched has taken no more words in the end than
one in which they try all their alternatives in order, words that were given back included. -/
theorem bumps_dispatched_le_in_order (grammar : Grammar) (words : Array Word) (node : Node)
    (state : State) {fuel more : Nat} {answer answer' : Bool × State}
    (dispatched : grammar.runNode words false fuel node state = some answer)
    (inOrder : grammar.runNode words true more node state = some answer') :
    answer.2.bumps ≤ answer'.2.bumps := by
  have gauge := tookAtMost_gauge words
  have saves : SimulatesAt (Under TookAtMost) (Under TookAtMost)
      (grammar.runNode words false fuel) (grammar.meaning words true) node :=
    gauge.runNode_saves (fun _ _ _ _ => trivial)
      (fun _ alternatives _ _ => merges_of_bumps alternatives) fuel trivial
  obtain ⟨last, ended, same⟩ := saves state state (gauge.under_refl state) answer dispatched
  obtain rfl : answer' = last := by
    rw [runNode_below_meaning more node state answer' inOrder] at ended
    exact Option.some.inj ended
  exact (gauge.alike.near_of_answer same).atMost

/-- A name that two alternatives begin with is taken once, and twice in order. -/
theorem bumps_dispatched_le_in_order_of_name :
    let grammar := ofRules .empty
    let words : Array Word := #[⟨.lowerName, "a"⟩, ⟨.comma, ","⟩]
    let first : Node := .seq (.made 2) [.token (.made 0) .lowerName, .token (.made 1) .properName]
    let second : Node := .seq (.made 5) [.token (.made 3) .lowerName, .token (.made 4) .comma]
    let node : Node := .choice (.made 6) [first, second] false
    let dispatched : State := ⟨2, #[.token, .token], #[], ⟨0, .empty, []⟩, 2⟩
    let inOrder : State := ⟨2, #[.token, .token], #[], ⟨1, .single .properName, []⟩, 3⟩
    grammar.runNode words false 4 node .start = some (true, dispatched) ∧
      grammar.runNode words true 4 node .start = some (true, inOrder) ∧
      dispatched.bumps ≤ inOrder.bumps := by
  intro grammar words first second node dispatched inOrder
  have ranDispatched : grammar.runNode words false 4 node .start = some (true, dispatched) := by
    decide
  have ranInOrder : grammar.runNode words true 4 node .start = some (true, inOrder) := by decide
  exact ⟨ranDispatched, ranInOrder,
    bumps_dispatched_le_in_order grammar words node .start ranDispatched ranInOrder⟩

end Offside.Grammar
