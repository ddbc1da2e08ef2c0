import Offside.Diagnostic.Basic

/-! # Diagnostics for a terminal

A message is shown as a headline, then for every label its place, the line it starts on, and a row
of carets under it, then the notes. The line stands behind a gutter that is wide enough for the
number of the last line of the label. A label over several lines is underlined to the end of its
first. Colors are optional and change no other character.
-/

namespace Offside.Diagnostic

open Source

structure Style where
  colors : Bool
  showCodes : Bool
deriving DecidableEq, Repr

inductive Color where
  | red
  | yellow
  | blue
  | cyan
  | green
  | reset
deriving DecidableEq, Repr

/-- The control sequence of a color, in bold. -/
def Color.code : Color → String
  | red => "\x1b[1;31m"
  | yellow => "\x1b[1;33m"
  | blue => "\x1b[1;34m"
  | cyan => "\x1b[1;36m"
  | green => "\x1b[1;32m"
  | reset => "\x1b[0m"

def Severity.color : Severity → Color
  | error => .red
  | warning => .yellow
  | note => .cyan
  | help => .green

/-- The control sequence of a color, if colors are wanted. -/
def Style.paint (style : Style) (color : Color) : String :=
  if style.colors then color.code else ""

def spaces (count : Nat) : String := String.ofList (List.replicate count ' ')

/-- A text moved to the right edge of a column. -/
def alignRight (width : Nat) (text : String) : String := spaces (width - text.length) ++ text

/-- The start of a line: what stands in the gutter, and the bar behind it. -/
def Style.gutter (style : Style) (width : Nat) (text : String) : String :=
  s!" {style.paint .blue}{alignRight width text} |{style.paint .reset}"

/-- Number of carets under a label that starts in the column with index `start`, where the
underlined part ends before the column with index `stop`. There is always one. -/
def caretCount (start stop : Nat) : Nat := max (stop - start) 1

/-- The lines of a label: its place, its source line, and the carets under it. A line that has
wrapped around to zero has no content. -/
def Label.lines (style : Style) (severity : Severity) (file : File) (label : Label) :
    List String :=
  let reset := style.paint .reset
  let mark := style.paint (if label.isPrimary then severity.color else .blue)
  let arrow := if label.isPrimary then "-->" else ":::"
  let first := file.lineColumn label.span.lo
  let last := file.lineColumn label.span.hi
  let place := s!" {style.paint .blue}{arrow}{reset} {file.name}:{first.line}:{first.column}"
  match if first.line = 0 then none else file.lineContent? (first.line - 1) with
  | none => [place]
  | some line =>
    let width := max (toString last.line).length 3
    let isMultiline := first.line != last.line
    let start := first.column - 1
    let stop := if isMultiline then line.length else last.column - 1
    let carets := String.ofList (List.replicate (caretCount start stop) '^')
    let message := if label.message.isEmpty then "" else s!" {label.message}"
    let blank := style.gutter width ""
    let through := s!"{blank} {mark}...through line {last.line}{reset}"
    [place, blank, s!"{style.gutter width (toString first.line)} {line}",
      s!"{blank} {spaces start}{mark}{carets}{message}{reset}"] ++
      if isMultiline then [through] else []

def Message.headline (style : Style) (message : Message) : String :=
  let code := match message.code with
    | some code => if style.showCodes then s!"[{code}]" else ""
    | none => ""
  s!"{style.paint message.severity.color}{message.severity.label}{code}{style.paint .reset}: " ++
    message.text

/-- The lines of a message, of which the last is empty. A text may break a line in two. -/
def Message.lines (style : Style) (files : List File) (message : Message) : List String :=
  let labels := message.labels.flatMap fun label =>
    match files[label.file]? with
    | some file => label.lines style message.severity file
    | none => []
  let notes := message.notes.map fun note =>
    s!" {style.paint .blue}={style.paint .reset} note: {note}"
  message.headline style :: labels ++ notes ++ [""]

/-- A message with its labels and notes, and an empty line behind it. -/
def Message.render (style : Style) (files : List File) (message : Message) : String :=
  String.join ((message.lines style files).map (· ++ "\n"))

def render (style : Style) (files : List File) (messages : List Message) : String :=
  String.join (messages.map (Message.render style files))

end Offside.Diagnostic
