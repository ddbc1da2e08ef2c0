import Offside.Grammar.Compiled
import Offside.Parse.State

/-! # Running a grammar

One step runs a node, given a way to run the nodes below it. A run is as many steps inside each
other as its fuel allows; `none` means that the fuel ran out, and nothing else does. A grammar
without left recursion comes to an end with the fuel that `Grammar.fuel` gives it.

A node that fails leaves behind what it did. Undoing is up to whoever tries something else
instead: choices, repetitions, and the nodes that say so.
-/

namespace Offside.Grammar

open Parse
open Token (Kind KindSet)

/-- How the nodes below a node are run: whether they match, and the state afterwards. -/
abbrev Runner := Node → State → Option (Bool × State)

section

variable (grammar : Grammar) (words : Array Word) (run : Runner)

/-- Whether the next word is one that a node can start with. If not, those are noted as
expected. -/
def admits (node : Node) (state : State) : Bool × State :=
  match grammar.prediction node with
  | none => (true, state)
  | some kinds =>
    if ((state.currentKind? words).map kinds.contains).getD false then (true, state)
    else (false, state.expect kinds)

/-- Runs a node that can start here, and undoes it if it fails. -/
def runHealed : Runner := fun node state =>
  match grammar.admits words node state with
  | (false, state) => some (false, state)
  | (true, state) =>
    let marker := state.mark
    match run node state with
    | some (false, state) => some (false, state.rollback marker)
    | answer => answer

def runAll : List Node → State → Option (Bool × State)
  | [], state => some (true, state)
  | node :: rest, state =>
    match run node state with
    | some (true, state) => runAll rest state
    | answer => answer

def runAny : List Node → State → Option (Bool × State)
  | [], state => some (false, state)
  | node :: rest, state =>
    match grammar.runHealed words run node state with
    | some (false, state) => runAny rest state
    | answer => answer

/-- Runs a choice. If nothing matches, everything that some alternative is known to start with was
expected, also by those that were ruled out without being run. -/
def runChoice (naive : Bool) (stamp : Stamp) (alternatives : List Node) (isOptional : Bool)
    (state : State) : Option (Bool × State) :=
  let tried :=
    if naive then alternatives
    else grammar.candidates stamp alternatives (state.currentKind? words)
  match grammar.runAny words run tried state with
  | some (false, state) =>
    let known := grammar.knownFirst alternatives
    some (isOptional, if known.isEmpty then state else state.expect known)
  | answer => answer

/-- Repeats a node that matched before, up to a failure, which is not undone, or a match of
nothing. A word that the node cannot start with ends the repetition before it fails. -/
def runMore (child : Node) : Nat → State → Option (Bool × State)
  | 0, _ => none
  | limit + 1, state =>
    match grammar.admits words child state with
    | (false, state) => some (true, state)
    | (true, state) =>
      let before := state.position
      match run child state with
      | some (matched, state) =>
        if matched && state.position != before then runMore child limit state
        else some (true, state)
      | none => none

/-- Continues a chain: every further match wraps everything since the checkpoint. -/
def runFold (kind : Syntax.Kind) (next : Node) (checkpoint : Nat) :
    Nat → State → Option (Bool × State)
  | 0, _ => none
  | limit + 1, state =>
    let before := state.position
    match grammar.runHealed words run next state with
    | some (true, state) =>
      let state := (state.wrapAt checkpoint kind).record .finish
      if state.position = before then some (true, state)
      else runFold kind next checkpoint limit state
    | some (false, state) => some (true, state)
    | none => none

/-- Whether recovery would match here. Nothing of the attempt remains. -/
def recovers (recovery : Node) (state : State) : Option Bool × State :=
  state.probe fun state =>
    match run recovery state with
    | some (matched, state) => (some matched, state)
    | none => (none, state)

/-- Takes words up to the end of input or to where recovery matches outside of every block opened
on the way, `depth` of which are open. -/
def skipTo (recovery : Node) (depth : Nat) : Nat → State → Option State
  | 0, _ => none
  | limit + 1, state =>
    match state.currentKind? words with
    | none => some state
    | some kind =>
      let (answer?, state) := if depth = 0 then recovers run recovery state else (some false, state)
      match answer? with
      | none => none
      | some true => some state
      | some false =>
        let depth := match kind with
          | .layoutStart => depth + 1
          | .layoutEnd => depth - 1
          | _ => depth
        skipTo recovery depth limit (state.bump words)

/-- Runs a node, given a way to run those below it. Loops are bounded by the number of words, as
each turn but the last takes one. -/
def step (naive : Bool) : Runner
  | .token _ kind, state => some (state.eat words kind)
  | .text _ kind spelling, state => some (state.eatText words kind spelling)
  | .empty _, state => some (true, state)
  | .seq _ items, state => runAll run items state
  | .choice stamp alternatives isOptional, state =>
    grammar.runChoice words run naive stamp alternatives isOptional state
  | .oneOrMore _ child, state =>
    match run child state with
    | some (true, state) => grammar.runMore words run child (words.size + 1) state
    | answer => answer
  | .heal _ child, state => grammar.runHealed words run child state
  | .ahead _ child, state =>
    let marker := state.mark
    (run child state).map fun (matched, state) => (matched, state.rollback marker)
  | .symbolic _ kind child, state =>
    match grammar.admits words child state with
    | (false, state) => some (false, state)
    | (true, state) =>
      let place := state.checkpoint
      (run child (state.record (.start kind))).map fun (matched, state) =>
        (matched, if matched then state.record .finish else state.abandon place)
  | .fold _ kind start next, state =>
    match grammar.admits words start state with
    | (false, state) => some (false, state)
    | (true, state) =>
      let checkpoint := state.checkpoint
      match run start state with
      | some (true, state) => grammar.runFold words run kind next checkpoint (words.size + 1) state
      | answer => answer
  | .cont _ kind start rest, state =>
    let checkpoint := state.checkpoint
    match run start state with
    | some (true, state) =>
      (grammar.runHealed words run rest state).map fun (matched, state) =>
        (true, if matched then (state.wrapAt checkpoint kind).record .finish else state)
    | answer => answer
  | .ref _ rule, state =>
    match grammar.rules.body? rule with
    | some body => run body state
    | none => some (false, state)
  | .relax _ child message, state =>
    (grammar.runHealed words run child state).map fun (matched, state) =>
      (true, if matched then state
        else state.record (.diagnostic message state.position state.position))
  | .relaxTo _ child recovery message, state =>
    match grammar.runHealed words run child state with
    | some (false, state) =>
      let first := state.position
      (skipTo words run recovery 0 (words.size + 1) (state.record (.start .error))).map fun state =>
        (true, (state.record .finish).record (.diagnostic message first state.position))
    | answer => answer

end

/-- Runs a node as far as the fuel allows. -/
def runNode (grammar : Grammar) (words : Array Word) (naive : Bool) : Nat → Runner
  | 0 => fun _ _ => none
  | fuel + 1 => grammar.step words (grammar.runNode words naive fuel) naive

/-- Fuel for a node: without left recursion no rule is entered twice between one word and the
next. -/
def fuel (grammar : Grammar) (words : Array Word) (node : Node) : Nat :=
  (words.size + 1) * (grammar.depth node + 1)

/-- Runs a node with some fuel. A node whose run does not end counts as failed at once. -/
def parseWithin (grammar : Grammar) (words : Array Word) (naive : Bool) (fuel : Nat) (node : Node)
    (state : State) : Bool × State :=
  (grammar.runNode words naive fuel node state).getD (false, state)

def parse (grammar : Grammar) (words : Array Word) (naive : Bool) (node : Node) (state : State) :
    Bool × State :=
  grammar.parseWithin words naive (grammar.fuel words node) node state

end Offside.Grammar
