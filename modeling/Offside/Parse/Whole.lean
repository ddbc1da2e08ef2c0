import Offside.Parse.Replay
import Offside.Parse.Run

/-! # Parsing a whole file

A grammar is run over all words of a file, under one root node. Input that the grammar could not
account for is never dropped: everything up to the furthest word refused stays where the grammar
left it, everything behind is set apart in an error node, and one error is reported at that word.
-/

namespace Offside.Parse

open Source Token Syntax

def wordsOf (source : String) (tokens : List Placed) : Array Word :=
  ((significant tokens).map fun token => ⟨token.kind, token.text source⟩).toArray

def State.bumpTimes (words : Array Word) : Nat → State → State
  | 0, state => state
  | count + 1, state => bumpTimes words count (state.bump words)

/-- Takes the words up to an index as they are, and the rest in an error node. -/
def State.setApart (state : State) (words : Array Word) (index : Nat) : State :=
  let state := state.bumpTimes words (min index words.size - state.position)
  if state.atEnd words then state
  else
    let remaining := words.size - state.position
    ((state.record (.start .error)).bumpTimes words remaining).record .finish

/-- Descriptions joined by commas and a last "or". -/
def joinExpected : List String → String
  | [] => "end of input"
  | [only] => only
  | [first, last] => s!"{first} or {last}"
  | first :: rest => s!"{first}, {joinExpected rest}"

/-- The error for a parse that stopped short at the significant token with a given index. -/
def stoppedShort (source : String) (tokens : List Placed) (index : Nat) (expected : List String) :
    Error :=
  let significant := significant tokens
  match significant[index]? with
  | some token =>
    let found := if token.kind.isLayout then token.kind.description else token.text source
    .unexpected found (joinExpected expected) token.span
  | none =>
    let stop := match significant.getLast? with
      | some last => last.stop.offset
      | none => source.utf8ByteSize
    .unexpectedEnd (joinExpected expected) ⟨stop, stop⟩

/-- What a parse of a whole file comes to. -/
structure Result where
  outcome : Outcome
  tree : Tree
  /-- What was wrong, in order of place. -/
  errors : List Error

def State.underRoot : State := State.start.record (.start .file)

/-- Finishes what a grammar came to over all words: the outcome, and the log of the root node. -/
def conclude (words : Array Word) (answer : Bool × State) : Outcome × List Event :=
  let (matched, state) := answer
  let complete := matched && state.atEnd words
  let outcome := state.outcome complete
  let state := if complete then state else state.setApart words outcome.position
  (outcome, (state.record .finish).log)

/-- The result for tokens over whose words a grammar came to an answer. -/
def Result.ofAnswer (source : String) (tokens : List Placed) (answer : Bool × State) : Result :=
  let (outcome, events) := conclude (wordsOf source tokens) answer
  let failure := if outcome.success then [] else
    [.report (stoppedShort source tokens outcome.position outcome.expected)]
  let (tree, errors) := Tree.ofCalls (replay tokens events ++ failure)
  ⟨outcome, tree, errors⟩

def parseTokens (compiled : Grammar.Compiled) (naive : Bool) (source : String)
    (tokens : List Placed) : Result :=
  .ofAnswer source tokens
    (compiled.grammar.parse (wordsOf source tokens) naive compiled.root .underRoot)

end Offside.Parse
