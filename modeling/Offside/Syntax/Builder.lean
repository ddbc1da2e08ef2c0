import Offside.Syntax.Error
import Offside.Syntax.Tree

/-! # Building trees

A tree is built by a sequence of calls that start and finish nodes and add tokens. Any sequence
gives a tree: nodes left open are closed at the end, and a surplus finish does nothing. Ranges are
filled in when all calls are made, from the last entry to the first, so that those of the children
are there when a node needs them. Errors are sorted by where they start.
-/

namespace Offside.Syntax

open Source Token

inductive Call where
  /-- Starts a node as the last child of the current one. -/
  | start (kind : Kind)
  | token (token : Placed)
  | finish
  | report (error : Error)
deriving DecidableEq

structure Builder where
  /-- The entries so far, without the ranges of nodes. -/
  entries : Array Entry
  /-- The nodes not yet finished, innermost first. -/
  unfinished : List Nat
  errors : Array Error

namespace Builder

def empty : Builder := ⟨#[], [], #[]⟩

def withChild (child : Nat) : Content → Content
  | .node kind children => .node kind (children.push child)
  | .token token => .token token

/-- Adds an entry as the last child of the current node. -/
def add (builder : Builder) (content : Content) : Builder :=
  let ⟨entries, unfinished, errors⟩ := builder
  let id := entries.size
  let parent := unfinished.head?
  let entries := match parent with
    | some parent => entries.modify parent fun entry =>
        { entry with content := withChild id entry.content }
    | none => entries
  ⟨entries.push ⟨parent, content, content.token?.map Placed.range⟩, unfinished, errors⟩

/-- Makes the entry added last the current node. -/
def enterLast (builder : Builder) : Builder :=
  { builder with unfinished := (builder.entries.size - 1) :: builder.unfinished }

def call (builder : Builder) : Call → Builder
  | .start kind => (builder.add (.node kind #[])).enterLast
  | .token token => builder.add (.token token)
  | .finish => { builder with unfinished := builder.unfinished.tail }
  | .report error => { builder with errors := builder.errors.push error }

/-- From the first range among the children to the last. -/
def coveredBy (entries : Array Entry) (children : Array Nat) : Option Range :=
  let ranges := children.toList.filterMap fun child => do (← entries[child]?).range
  match ranges.head?, ranges.getLast? with
  | some first, some last => some (first.through last)
  | _, _ => none

/-- Fills in the ranges of the nodes among the first `count` entries, the last of them first. -/
def fillRanges (entries : Array Entry) : Nat → Array Entry
  | 0 => entries
  | id + 1 =>
    match entries[id]? with
    | some ⟨parent, .node kind children, _⟩ =>
      let range := coveredBy entries children
      fillRanges (entries.setIfInBounds id ⟨parent, .node kind children, range⟩) id
    | _ => fillRanges entries id

/-- The tree, and the errors in order of where they start. -/
def finish (builder : Builder) : Tree × List Error :=
  (⟨fillRanges builder.entries builder.entries.size⟩,
    builder.errors.toList.mergeSort fun first second => first.span.lo ≤ second.span.lo)

end Builder

/-- The tree and the errors that a sequence of calls makes. -/
def Tree.ofCalls (calls : List Call) : Tree × List Error :=
  (calls.foldl Builder.call .empty).finish

end Offside.Syntax
