import Offside.Grammar.Equality
import Offside.Grammar.Normal
import Offside.Grammar.Rules

/-! # Dispatch

The next token rules most alternatives of a choice out. Those that remain are tried in order, but
neighbours among them that start with the same node are merged first, so that what they share is
run once. What is left of the merged alternatives is a choice again.

The merged nodes are a function of the choice and the alternatives selected. No table is kept: the
stamps alone make two selections of the same alternatives the same nodes.
-/

namespace Offside.Grammar

open Token (KindSet)

namespace Node

/-- The first step of a node, and what follows it. -/
def headAndTail (node : Node) : Node × List Node :=
  match node.unhealed with
  | seq _ (head :: tail) => (head, tail)
  | inner => (inner, [])

def head (node : Node) : Node := node.headAndTail.1

def tail (node : Node) : List Node := node.headAndTail.2

/-- Alternatives that start with the same node, as their first step and a choice of what follows.
A single alternative stays as it is. -/
def mergeRun (stamp : Nat → Stamp) : List Node → Node
  | [] => empty (stamp 0)
  | [alternative] => alternative
  | first :: rest =>
    let tails := (first :: rest).mapIdx fun place alternative =>
      ofSequence (stamp (place + 2)) alternative.tail
    ofSequence (stamp 0) [first.head, ofAlternatives (stamp 1) tails]

/-- The alternatives with neighbours merged that start with the same node. -/
def mergeNeighbours (stamp : Nat → Nat → Stamp) (alternatives : List Node) : List Node :=
  (alternatives.splitBy fun first second => first.head.isSame second.head).mapIdx fun run =>
    mergeRun (stamp run)

end Node

/-- Whether a node may match in front of a token, or at the end of input when there is none. -/
def mayStart (prediction : Option KindSet) (next? : Option Token.Kind) : Bool :=
  match prediction, next? with
  | none, _ => true
  | some kinds, some kind => kinds.contains kind
  | some _, none => false

/-- The alternatives of a choice that the next token does not rule out, with their places. -/
def selected (grammar : Grammar) (alternatives : List Node) (next? : Option Token.Kind) :
    List (Node × Nat) :=
  alternatives.zipIdx.filter fun (alternative, _) =>
    mayStart (grammar.prediction alternative) next?

/-- The nodes tried for a choice in front of a token. -/
def candidates (grammar : Grammar) (choice : Stamp) (alternatives : List Node)
    (next? : Option Token.Kind) : List Node :=
  let selection := grammar.selected alternatives next?
  Node.mergeNeighbours (.merged choice (selection.map Prod.snd)) (selection.map Prod.fst)

/-- The kinds of tokens that some alternative is known to start with. -/
def knownFirst (grammar : Grammar) (alternatives : List Node) : KindSet :=
  alternatives.foldl
    (fun kinds alternative => kinds.union ((grammar.prediction alternative).getD .empty)) .empty

end Offside.Grammar
