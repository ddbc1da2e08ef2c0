import Offside.Syntax.Kind

/-! # Events

What a parse did, in order. Nodes that are opened after the fact, around events recorded before,
are kept aside as wraps and put in their places when the log is handed out. Of two wraps in front
of the same event the later one is the outer node.
-/

namespace Offside.Parse

inductive Event where
  | start (kind : Syntax.Kind)
  | finish
  /-- Takes the next significant token. -/
  | token
  /-- Once the start of a node that came to nothing. -/
  | abandoned
  /-- Reports something wrong with the tokens from `start` up to `stop`. -/
  | diagnostic (message : String) (start stop : Nat)
deriving DecidableEq, Repr

/-- A node opened in front of an event recorded before. -/
structure Wrap where
  /-- Index of the event that the node starts in front of. -/
  place : Nat
  kind : Syntax.Kind
deriving DecidableEq, Repr

/-- The events from `index` on, with pending wraps, sorted by place, in front of them. -/
def spliceFrom (index : Nat) (pending : List Wrap) : List Event → List Event
  | [] => pending.map fun wrap => .start wrap.kind
  | event :: rest =>
    let here := pending.takeWhile (·.place == index)
    let later := pending.dropWhile (·.place == index)
    here.map (fun wrap => .start wrap.kind) ++ event :: spliceFrom (index + 1) later rest

/-- The events with every wrap in front of the event it was opened at. -/
def splice (events : List Event) (wraps : List Wrap) : List Event :=
  spliceFrom 0 (wraps.reverse.mergeSort fun first second => first.place ≤ second.place) events

end Offside.Parse
