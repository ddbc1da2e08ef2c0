import Offside.Source.Position
import Offside.Text.Slice
import Offside.Token.Kind

/-! # Tokens

A raw token is a kind and a byte range; a placed token has lines and columns as well. Neither
holds text, and neither checks that its range is one the source has.
-/

namespace Offside.Token

open Source

/-- A token as a tokenizer reports it. -/
structure Raw where
  kind : Kind
  start : Nat
  /-- Offset past its last byte. -/
  stop : Nat
deriving DecidableEq, Repr

structure Placed where
  kind : Kind
  start : Position
  /-- Where it ends. -/
  stop : Position
deriving DecidableEq, Repr, Inhabited

namespace Placed

/-- A token without text, as the layout rule inserts them. -/
def point (kind : Kind) (position : Position) : Placed := ⟨kind, position, position⟩

def span (token : Placed) : Span := ⟨token.start.offset, token.stop.offset⟩

def range (token : Placed) : Range := ⟨token.start, token.stop⟩

def text (token : Placed) (source : String) : String :=
  Text.sliceOrEmpty source token.start.offset token.stop.offset

end Placed

/-- The tokens that a grammar sees: all but trivia. -/
def significant (tokens : List Placed) : List Placed :=
  tokens.filter fun token => !token.kind.isTrivia

end Offside.Token
