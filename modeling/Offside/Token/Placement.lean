import Offside.Token.Basic

/-! # Placing tokens

Lines and columns are assigned in one pass: every token starts where the one before it ended, and
the text between its two ends says where it ends. Ranges that run backwards or past the end of the
source are moved to the nearest offset that does neither, so any list of raw tokens can be placed.
-/

namespace Offside.Token

open Source Text

/-- The position behind some characters, for an end at byte `offset`. -/
def positionAfter (start : Position) (text : List Char) (offset : Nat) : Position :=
  let lineFeeds := text.count '\n'
  if lineFeeds = 0 then ⟨start.line, start.column + text.length, offset⟩
  else ⟨start.line + lineFeeds, (text.reverse.takeWhile (· != '\n')).length, offset⟩

/-- The position reached from `start` by moving on to byte `offset`. -/
def advance (source : String) (start : Position) (offset : Nat) : Position :=
  let stop := max start.offset (min offset source.utf8ByteSize)
  positionAfter start (sliceOrEmpty source start.offset stop).toList stop

def placeFrom (source : String) (start : Position) : List Raw → List Placed
  | [] => []
  | token :: rest =>
    let stop := advance source start token.stop
    ⟨token.kind, start, stop⟩ :: placeFrom source stop rest

def place (source : String) (tokens : List Raw) : List Placed := placeFrom source .zero tokens

end Offside.Token
