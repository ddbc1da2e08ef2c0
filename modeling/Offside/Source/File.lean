import Offside.Source.Position
import Offside.Text.Slice

/-! # Source files

A named text, with the way back from byte offsets to lines and columns. Lines end at a line feed;
the content of a line is its text without the line feed and without one carriage return before it.
Offsets past the end, or inside a character, still have a line: the last one that starts before.
-/

namespace Offside.Source

open Text

/-- A line and a column as shown to a reader, both counted from one, in a machine word each. -/
structure LineColumn where
  line : Nat
  column : Nat
deriving DecidableEq, Repr

structure File where
  name : String
  text : String

/-- Offsets just past the line feeds among the characters, the first of which is at `offset`. -/
def startsAfterLineFeeds (offset : Nat) : List Char → List Nat
  | [] => []
  | char :: rest =>
    let next := offset + char.utf8Size
    if char = '\n' then next :: startsAfterLineFeeds next rest
    else startsAfterLineFeeds next rest

namespace File

def lineStarts (file : File) : List Nat := 0 :: startsAfterLineFeeds 0 file.text.toList

/-- Number of lines; a text that ends in a line feed has an empty last line. -/
def lineCount (file : File) : Nat := file.lineStarts.length

/-- Index of the last line that starts at or before an offset. -/
def lineAt (file : File) (offset : Nat) : Nat :=
  (file.lineStarts.takeWhile (· ≤ offset)).length - 1

/-- Number of characters in front of an offset on its line. An offset past the end counts as the
end; one inside a character has no text before it on its line, and so stands in the first column. -/
def columnAt (file : File) (offset : Nat) : Nat :=
  let start := file.lineStarts.getD (file.lineAt offset) 0
  (sliceOrEmpty file.text start (min offset file.text.utf8ByteSize)).length

def lineColumn (file : File) (offset : Nat) : LineColumn :=
  ⟨Position.shown (file.lineAt offset), Position.shown (file.columnAt offset)⟩

/-- The text under a span, empty when there is none. -/
def textAt (file : File) (span : Span) : String := sliceOrEmpty file.text span.lo span.hi

/-- The characters without a carriage return at their end. -/
def withoutReturn (line : List Char) : List Char :=
  if line.getLast? = some '\r' then line.dropLast else line

/-- Content of a line without its terminator. -/
def lineContent? (file : File) (line : Nat) : Option String :=
  match file.lineStarts[line]? with
  | none => none
  | some start =>
    let stop := match file.lineStarts[line + 1]? with
      | some next => next - 1
      | none => file.text.utf8ByteSize
    (slice? file.text start stop).map fun content => String.ofList (withoutReturn content.toList)

end File

end Offside.Source
