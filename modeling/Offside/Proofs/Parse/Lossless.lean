import Offside.Proofs.Parse.Replay
import Offside.Proofs.Parse.Whole
import Offside.Proofs.Syntax.Arena

/-! # Parsing loses nothing

The tree of a file holds every token of the file, in order, below one root, whatever the grammar
made of it. The log behind it is well nested from its first event to its last, and takes every
significant token once.
-/

namespace Offside.Parse

open Source Token Syntax

theorem size_wordsOf (source : String) (tokens : List Placed) :
    (wordsOf source tokens).size = (significant tokens).length := by
  simp [wordsOf]

/-- Whether a run ends or not, the answer goes on from the state the run began in. -/
theorem goesOnTo_parseWithin (grammar : Grammar) (words : Array Word) (naive : Bool) (fuel : Nat)
    (node : Grammar.Node) (state : State) :
    state.trail.GoesOnTo (grammar.parseWithin words naive fuel node state).2.trail := by
  unfold Grammar.parseWithin
  cases ended : grammar.runNode words naive fuel node state with
  | none => exact .refl _
  | some answer => exact (Grammar.goesOnTo_moves words).runNode naive fuel node state answer ended

theorem position_parseWithin_le (grammar : Grammar) (words : Array Word) (naive : Bool)
    (fuel : Nat) (node : Grammar.Node) {state : State} (bounded : state.position ≤ words.size) :
    (grammar.parseWithin words naive fuel node state).2.position ≤ words.size := by
  unfold Grammar.parseWithin
  cases ended : grammar.runNode words naive fuel node state with
  | none => exact bounded
  | some answer => exact (positions_moves words).runNode naive fuel node state answer ended bounded

/-- The tree is made of the replayed log; the error for a parse that stopped short comes last. -/
theorem tree_ofAnswer (source : String) (tokens : List Placed) (answer : Bool × State) :
    ∃ errors : List Error, (Result.ofAnswer source tokens answer).tree =
      (Tree.ofCalls (replay tokens (conclude (wordsOf source tokens) answer).2 ++
        errors.map .report)).1 := by
  simp only [Result.ofAnswer]
  split
  · exact ⟨[], rfl⟩
  · exact ⟨[_], rfl⟩

/-- Whatever a grammar answers, the log is a root node around well nested events that take every
word once, and the tree is made by replaying it. -/
theorem exists_log (compiled : Grammar.Compiled) (naive : Bool) (source : String)
    (tokens : List Placed) (fuel : Nat) :
    let words := wordsOf source tokens
    let answer := compiled.grammar.parseWithin words naive fuel compiled.root .underRoot
    ∃ (inner : List Event) (errors : List Error),
      (conclude words answer).2 = .start .file :: (inner ++ [.finish]) ∧
      Nested Event.role inner ∧ inner.count .token = (significant tokens).length ∧
      (Result.ofAnswer source tokens answer).tree =
        (Tree.ofCalls (replay tokens (.start .file :: (inner ++ [.finish])) ++
          errors.map .report)).1 := by
  intro words answer
  obtain ⟨inner, log, nested, count⟩ := log_conclude
    (goesOnTo_parseWithin compiled.grammar words naive fuel compiled.root .underRoot)
    (position_parseWithin_le compiled.grammar words naive fuel compiled.root (Nat.zero_le _))
  obtain ⟨errors, built⟩ := tree_ofAnswer source tokens answer
  exact ⟨inner, errors, log, nested, count.trans (size_wordsOf source tokens), log ▸ built⟩

end Offside.Parse
