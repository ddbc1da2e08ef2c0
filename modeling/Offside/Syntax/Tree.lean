import Offside.Syntax.Kind
import Offside.Token.Basic

/-! # Syntax trees

Nodes and tokens lie in one array and refer to each other by index. A node comes before everything
below it, so going through the array in order is going through the tree depth first. Tokens of
every kind are leaves, trivia and layout tokens included.
-/

namespace Offside.Syntax

open Source Token

inductive Content where
  /-- An interior node, with the indices of its children in order. -/
  | node (kind : Kind) (children : Array Nat)
  | token (token : Placed)
deriving DecidableEq

/-- A node or token in its place in a tree. -/
structure Entry where
  /-- Index of the node it belongs to. -/
  parent : Option Nat
  content : Content
  /-- From the first token at or below the entry to the last. -/
  range : Option Range
deriving DecidableEq

def Content.kind? : Content → Option Kind
  | .node kind _ => some kind
  | .token _ => none

def Content.token? : Content → Option Placed
  | .node .. => none
  | .token leaf => some leaf

/-- Indices of the children, none for a leaf. -/
def Content.children : Content → Array Nat
  | .node _ children => children
  | .token _ => #[]

structure Tree where
  /-- Nodes and tokens, depth first. -/
  entries : Array Entry
deriving DecidableEq

namespace Tree

/-- Number of nodes and tokens. -/
def size (tree : Tree) : Nat := tree.entries.size

def kind? (tree : Tree) (id : Nat) : Option Kind := do (← tree.entries[id]?).content.kind?

def token? (tree : Tree) (id : Nat) : Option Placed := do (← tree.entries[id]?).content.token?

def parent? (tree : Tree) (id : Nat) : Option Nat := do (← tree.entries[id]?).parent

def children (tree : Tree) (id : Nat) : List Nat :=
  match tree.entries[id]? with
  | some entry => entry.content.children.toList
  | none => []

/-- The children that are interior nodes. -/
def childNodes (tree : Tree) (id : Nat) : List Nat :=
  (tree.children id).filter fun child => (tree.kind? child).isSome

/-- All indices, depth first. -/
def preorder (tree : Tree) : List Nat := List.range tree.size

def nodesOfKind (tree : Tree) (kind : Kind) : List Nat :=
  tree.preorder.filter fun id => tree.kind? id == some kind

def tokens (tree : Tree) : List Placed := tree.preorder.filterMap tree.token?

/-- From the first token at or below an index to the last, if there are any. -/
def range? (tree : Tree) (id : Nat) : Option Range := do (← tree.entries[id]?).range

def span? (tree : Tree) (id : Nat) : Option Span := (tree.range? id).map Range.span

def textAt (tree : Tree) (source : String) (id : Nat) : String :=
  match tree.span? id with
  | some span => Text.sliceOrEmpty source span.lo span.hi
  | none => ""

/-- How deep each entry lies. An entry without parent lies at depth zero. -/
def depths (tree : Tree) : Array Nat :=
  tree.entries.foldl (fun depths entry =>
    depths.push <| match entry.parent.bind (depths[·]?) with
      | some depth => depth + 1
      | none => 0) #[]

end Tree

end Offside.Syntax
