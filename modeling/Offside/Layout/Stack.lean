import Offside.Layout.Delimiter

/-! # The layout stack

The frames open between two tokens. The root frame lies under every stack and is never part of
what can be popped, so it is not stored: the stack holds the frames above it, innermost first, and
`Stack.frames` is the whole stack from the bottom up.

A token closes frames by one of seven rules. Which frames a rule closes depends on the frame and
the column of the token alone, and closing stops at the first frame that the rule keeps.
-/

namespace Offside.Layout

open Source

structure Config where
  /-- Whether braces behind a layout keyword stand for a block rather than a record. -/
  explicitBlocks : Bool
deriving DecidableEq, Repr

def Config.default : Config := ⟨false⟩

/-- The state of the layout rule between two tokens. -/
structure Stack where
  /-- The frames above the root, innermost first. -/
  inner : List Frame
  /-- Whether a layout keyword was just followed by a brace that is to open a block. -/
  pendingBlock : Bool
deriving DecidableEq, Repr

def rootFrame : Frame := ⟨.zero, .root⟩

namespace Stack

def empty : Stack := ⟨[], false⟩

/-- All frames, from the bottom up. -/
def frames (stack : Stack) : List Frame := rootFrame :: stack.inner.reverse

def top (stack : Stack) : Frame := stack.inner.headD rootFrame

/-- Number of blocks that still owe an end token. -/
def openBlocks (stack : Stack) : Nat := stack.inner.countP Frame.isIndented

end Stack

/-- Which frames a token closes, beginning at the innermost. -/
inductive Closing where
  /-- Blocks strictly right of the token. -/
  | offside
  /-- Blocks right of the token or at its column. -/
  | offsideEnd
  | indented
  /-- As `offsideEnd`, and every `do` block. -/
  | byWhere
  /-- Every block up to the `let` or `ado` that `in` belongs to. -/
  | byIn
  /-- As `offsideEnd` and every `do` block, but never the branches that the arrow belongs to. -/
  | byArrow
  /-- The bindings that a guard may belong to. -/
  | byEquals
deriving DecidableEq, Repr

def Closing.closes (closing : Closing) (column : Nat) (frame : Frame) : Bool :=
  let offsideEnd := frame.isIndented && column ≤ frame.position.column
  match closing with
  | .offside => frame.isIndented && column < frame.position.column
  | .offsideEnd => offsideEnd
  | .indented => frame.isIndented
  | .byWhere => frame.delimiter == .doBlock || offsideEnd
  | .byIn =>
    frame.isIndented && frame.delimiter != .letBlock && frame.delimiter != .adoBlock
  | .byArrow => frame.delimiter == .doBlock || (frame.delimiter != .ofBlock && offsideEnd)
  | .byEquals =>
    frame.delimiter == .whereBlock || frame.delimiter == .letBlock ||
      frame.delimiter == .letStatement

end Offside.Layout
