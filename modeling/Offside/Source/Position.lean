/-! # Places in a source

A position carries line, column and byte offset together, all counted from zero, the column in
characters. A range joins two positions and a span two offsets, the end exclusive in both. Nothing
here refers to a text: whether a position is one that a text has is for whoever computed it.
-/

namespace Offside.Source

/-- Number of values of a machine word. Lines, columns and offsets are stored in one word each. -/
def wordSize : Nat := 4294967296

structure Position where
  line : Nat
  column : Nat
  offset : Nat
deriving DecidableEq, Repr, Inhabited

namespace Position

def zero : Position := ⟨0, 0, 0⟩

/-- Positions are ordered by line, then column, then offset. -/
def compare (first second : Position) : Ordering :=
  (Ord.compare first.line second.line).then <|
    (Ord.compare first.column second.column).then (Ord.compare first.offset second.offset)

/-- A line or column as shown to a reader, who counts from one. -/
def shown (count : Nat) : Nat := (count + 1) % wordSize

def display (position : Position) : String :=
  s!"{shown position.line}:{shown position.column}"

end Position

/-- A half-open range of byte offsets. -/
structure Span where
  lo : Nat
  hi : Nat
deriving DecidableEq, Repr, Inhabited

namespace Span

/-- Length in bytes. Offsets are machine words, so the length of a span that runs backwards
wraps around. -/
def length (span : Span) : Nat := (span.hi + wordSize - span.lo) % wordSize

def isEmpty (span : Span) : Bool := span.lo == span.hi

/-- The smallest span that reaches over both. -/
def merge (first second : Span) : Span := ⟨min first.lo second.lo, max first.hi second.hi⟩

end Span

structure Range where
  start : Position
  stop : Position
deriving DecidableEq, Repr, Inhabited

namespace Range

def span (range : Range) : Span := ⟨range.start.offset, range.stop.offset⟩

def isEmpty (range : Range) : Bool := range.start.offset == range.stop.offset

def through (first second : Range) : Range := ⟨first.start, second.stop⟩

end Range

/-- The range of no width at a position. -/
def Position.toRange (position : Position) : Range := ⟨position, position⟩

end Offside.Source
