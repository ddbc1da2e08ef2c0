import Offside.Parse.Event
import Offside.Syntax.Builder

/-! # From events to trees

A grammar never sees trivia. Replaying its events puts the trivia back: in front of a node it goes
to the node's parent, elsewhere to the node of the token behind it, and what is left when the
outermost node finishes goes to that node. Diagnostics speak of words by number and become errors
with spans.
-/

namespace Offside.Parse

open Source Token Syntax

/-- Bytes of the significant tokens from `start` up to `stop`. An empty range lies at the start of
its token, or behind the last one. -/
def coveredSpan (significant : Array Placed) (start stop : Nat) : Span :=
  let lo := match significant[start]? with
    | some token => token.start.offset
    | none => ((significant.back?).map fun token => token.stop.offset).getD 0
  let hi :=
    if start < stop then ((significant[stop - 1]?).map fun token => token.stop.offset).getD lo
    else lo
  ⟨lo, max lo hi⟩

/-- The calls that events stand for, with `pending` tokens still to come and `depth` nodes open. -/
def replayFrom (significant : Array Placed) (pending : List Placed) (depth : Nat) :
    List Event → List Call
  | [] => []
  | .start kind :: rest =>
    if depth = 0 then .start kind :: replayFrom significant pending 1 rest
    else
      let trivia := pending.takeWhile fun token => token.kind.isTrivia
      let pending := pending.dropWhile fun token => token.kind.isTrivia
      trivia.map .token ++ .start kind :: replayFrom significant pending (depth + 1) rest
  | .finish :: rest =>
    if depth ≤ 1 then pending.map .token ++ .finish :: replayFrom significant [] 0 rest
    else .finish :: replayFrom significant pending (depth - 1) rest
  | .token :: rest =>
    match pending.dropWhile fun token => token.kind.isTrivia with
    | [] => replayFrom significant pending depth rest
    | token :: later =>
      let trivia := pending.takeWhile fun token => token.kind.isTrivia
      trivia.map .token ++ .token token :: replayFrom significant later depth rest
  | .abandoned :: rest => replayFrom significant pending depth rest
  | .diagnostic message start stop :: rest =>
    .report (.recovered message (coveredSpan significant start stop)) ::
      replayFrom significant pending depth rest

/-- The calls that events over a token list stand for. -/
def replay (tokens : List Placed) (events : List Event) : List Call :=
  replayFrom (significant tokens).toArray tokens 0 events

end Offside.Parse
