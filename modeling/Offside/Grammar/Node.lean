import Offside.Syntax.Kind
import Offside.Token.Kind

/-! # Grammar nodes

A grammar is written as a tree of nodes. Recursion is only possible through the names of rules, so
a node is finite and everything said about its parts is said by recursion on it.

Nodes have an identity besides their shape: a node that is used in two places is one node, and two
nodes of the same shape that were made apart are two. The identity is a stamp. Nodes made by the
author of a grammar are numbered; a node that merging the alternatives of a choice brings about is
known by the choice, the alternatives selected, and its place in the result, so that the same
selection always yields the same nodes.
-/

namespace Offside.Grammar

/-- The identity of a node. -/
inductive Stamp where
  | made (number : Nat)
  /-- A node that stands for a run of selected alternatives of the choice `origin`. -/
  | merged (origin : Stamp) (selection : List Nat) (run part : Nat)
deriving DecidableEq, Repr, Hashable, Inhabited

inductive Node where
  | token (stamp : Stamp) (kind : Token.Kind)
  | text (stamp : Stamp) (kind : Token.Kind) (spelling : String)
  | empty (stamp : Stamp)
  /-- All items in order. What matched before a failure stays matched. -/
  | seq (stamp : Stamp) (items : List Node)
  /-- The first alternative that matches, or nothing if the choice is optional. -/
  | choice (stamp : Stamp) (alternatives : List Node) (isOptional : Bool)
  | oneOrMore (stamp : Stamp) (child : Node)
  /-- The child, undone altogether if it fails. -/
  | heal (stamp : Stamp) (child : Node)
  /-- The child, undone in any case. -/
  | ahead (stamp : Stamp) (child : Node)
  /-- The child, as the content of a syntax node. -/
  | symbolic (stamp : Stamp) (kind : Syntax.Kind) (child : Node)
  /-- A start and any number of continuations, each of which wraps everything before it. -/
  | fold (stamp : Stamp) (kind : Syntax.Kind) (start next : Node)
  /-- A start, wrapped together with the rest if the rest follows. -/
  | cont (stamp : Stamp) (kind : Syntax.Kind) (start rest : Node)
  | ref (stamp : Stamp) (rule : String)
  /-- The child, or a message and nothing. -/
  | relax (stamp : Stamp) (child : Node) (message : String)
  /-- The child, or a message over all tokens up to where the recovery node matches. -/
  | relaxTo (stamp : Stamp) (child recovery : Node) (message : String)

namespace Node

def stamp : Node → Stamp
  | token stamp _ | text stamp _ _ | empty stamp | seq stamp _ | choice stamp _ _
  | oneOrMore stamp _ | heal stamp _ | ahead stamp _ | symbolic stamp _ _ | fold stamp _ _ _
  | cont stamp _ _ _ | ref stamp _ | relax stamp _ _ | relaxTo stamp _ _ _ => stamp

/-- The nodes right below a node. Those of a rule are below its name only once it is looked up. -/
def children : Node → List Node
  | token .. | text .. | empty _ | ref .. => []
  | seq _ items => items
  | choice _ alternatives _ => alternatives
  | oneOrMore _ child | heal _ child | ahead _ child | symbolic _ _ child | relax _ child _ =>
    [child]
  | fold _ _ start next => [start, next]
  | cont _ _ start rest => [start, rest]
  | relaxTo _ child recovery _ => [child, recovery]

mutual

/-- A size by which the merged alternatives of a choice are smaller than the choice. No node is
lighter than a token, so that the step that merging saves makes up for the nodes it adds. -/
def weight : Node → Nat
  | token .. | text .. | empty _ | ref .. => 3
  | seq _ items => max 3 (weightOf items + 2)
  | choice _ alternatives _ => max 3 (weightOf alternatives + 1)
  | oneOrMore _ child | heal _ child | ahead _ child | symbolic _ _ child | relax _ child _ =>
    child.weight + 1
  | fold _ _ start next => start.weight + next.weight + 1
  | cont _ _ start rest => start.weight + rest.weight + 1
  | relaxTo _ child recovery _ => child.weight + recovery.weight + 1

def weightOf : List Node → Nat
  | [] => 0
  | node :: rest => node.weight + weightOf rest

end

end Node

end Offside.Grammar
