import Offside.Parse.Event
import Offside.Token.KindSet

/-! # The state of a parse

A grammar sees words: significant tokens with their texts. Everything that a parse changes is one
state: how many words were taken, the log of events, and the furthest word that was refused, which
says what was expected there.

Backtracking cuts the log back to the length it had. A probe in addition forgets what was refused
and how many words were taken while it ran.
-/

namespace Offside.Parse

open Token (Kind KindSet)

/-- A significant token as a grammar sees it. -/
structure Word where
  kind : Kind
  text : String
deriving DecidableEq, Repr

/-- The furthest place at which a word was refused, and what was expected there. -/
structure Failure where
  position : Nat
  kinds : KindSet
  /-- Texts that would have been taken, each once, in the order of report. -/
  texts : List String
deriving DecidableEq

/-- What was expected, in words: kinds in order of declaration, then texts. -/
def Failure.descriptions (failure : Failure) : List String :=
  failure.kinds.toList.map Kind.description ++ failure.texts.map fun text => s!"`{text}`"

structure Outcome where
  success : Bool
  /-- Number of words taken, or else the index of the furthest word refused. -/
  position : Nat
  expected : List String
deriving DecidableEq, Repr

structure Marker where
  position : Nat
  events : Nat
  wraps : Nat
deriving DecidableEq, Repr

structure State where
  position : Nat
  /-- The log, without wraps. -/
  events : Array Event
  /-- Nodes opened in front of earlier events, in the order they were opened. -/
  wraps : Array Wrap
  failure : Failure
  /-- Number of words ever taken, those given back included. -/
  bumps : Nat
deriving DecidableEq

namespace State

def start : State := ⟨0, #[], #[], ⟨0, .empty, []⟩, 0⟩

def current? (state : State) (words : Array Word) : Option Word := words[state.position]?

def currentKind? (state : State) (words : Array Word) : Option Kind :=
  (state.current? words).map Word.kind

def atEnd (state : State) (words : Array Word) : Bool := words.size ≤ state.position

def isAt (state : State) (words : Array Word) (kind : Kind) : Bool :=
  state.currentKind? words == some kind

def record (state : State) (event : Event) : State :=
  { state with events := state.events.push event }

def bump (state : State) (words : Array Word) : State :=
  if state.atEnd words then state
  else { state with
    position := state.position + 1
    events := state.events.push .token
    bumps := state.bumps + 1 }

/-- Moves the furthest refusal up to the next word, if it is behind. What was expected further back
is then forgotten. -/
def noteFailure (state : State) : State :=
  if state.failure.position < state.position then
    { state with failure := ⟨state.position, .empty, []⟩ }
  else state

/-- Notes that one of `kinds` would have been taken here. -/
def expect (state : State) (kinds : KindSet) : State :=
  let state := state.noteFailure
  if state.position = state.failure.position then
    { state with failure := { state.failure with kinds := state.failure.kinds.union kinds } }
  else state

/-- Notes that a word reading `text` would have been taken here. -/
def expectText (state : State) (text : String) : State :=
  let state := state.noteFailure
  if state.position = state.failure.position && !state.failure.texts.contains text then
    { state with failure := { state.failure with texts := state.failure.texts ++ [text] } }
  else state

def eat (state : State) (words : Array Word) (kind : Kind) : Bool × State :=
  if state.isAt words kind then (true, state.bump words)
  else (false, state.expect (.single kind))

def eatText (state : State) (words : Array Word) (kind : Kind) (text : String) : Bool × State :=
  if state.current? words = some ⟨kind, text⟩ then (true, state.bump words)
  else (false, state.expectText text)

def mark (state : State) : Marker := ⟨state.position, state.events.size, state.wraps.size⟩

/-- Goes back to a point. What was refused and taken since is remembered. -/
def rollback (state : State) (marker : Marker) : State :=
  { state with
    position := marker.position
    events := state.events.shrink marker.events
    wraps := state.wraps.shrink marker.wraps }

/-- Runs something and undoes all it did. -/
def probe (state : State) (action : State → α × State) : α × State :=
  let marker := state.mark
  let failure := state.failure
  let bumps := state.bumps
  let (answer, after) := action state
  (answer, { after.rollback marker with failure, bumps })

/-- A point in the log at which a node can be opened later. -/
def checkpoint (state : State) : Nat := state.events.size

/-- Opens a node around everything recorded since a checkpoint. -/
def wrapAt (state : State) (checkpoint : Nat) (kind : Syntax.Kind) : State :=
  { state with wraps := state.wraps.push ⟨min checkpoint state.events.size, kind⟩ }

/-- Turns the start of a node that came to nothing into an event without effect. -/
def abandon (state : State) (place : Nat) : State :=
  match state.events[place]? with
  | some (.start _) => { state with events := state.events.setIfInBounds place .abandoned }
  | _ => state

/-- The log with every wrap in its place. -/
def log (state : State) : List Event := splice state.events.toList state.wraps.toList

def outcome (state : State) (success : Bool) : Outcome :=
  if success && state.failure.position ≤ state.position then ⟨success, state.position, []⟩
  else
    let position := max state.failure.position state.position
    let expected :=
      if position = state.failure.position then state.failure.descriptions else []
    ⟨success, position, expected⟩

end State

end Offside.Parse
