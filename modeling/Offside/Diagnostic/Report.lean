import Offside.Diagnostic.Basic
import Offside.Json

/-! # Diagnostics as JSON

A message as one object, with lines and columns counted from one. A code, a label, a text or notes
that are not there are left out instead of being empty.
-/

namespace Offside.Diagnostic

open Source

def Label.toJson (file : File) (label : Label) : Json :=
  let first := file.lineColumn label.span.lo
  let last := file.lineColumn label.span.hi
  let text := file.textAt label.span
  .object <|
    [("file", .string file.name), ("line_start", .number first.line),
      ("line_end", .number last.line), ("column_start", .number first.column),
      ("column_end", .number last.column), ("is_primary", .bool label.isPrimary)] ++
    (if label.message.isEmpty then [] else [("label", .string label.message)]) ++
    (if text.isEmpty then [] else [("text", .string text)])

def Message.toJson (files : List File) (message : Message) : Json :=
  let spans := message.labels.filterMap fun label =>
    (files[label.file]?).map fun file => label.toJson file
  .object <|
    [("message", .string message.text)] ++
    (message.code.toList.map fun code => ("code", .string code)) ++
    [("severity", .string message.severity.label), ("spans", .array spans)] ++
    (if message.notes.isEmpty then [] else [("notes", .array (message.notes.map .string))])

def toJsonLines (files : List File) (messages : List Message) : String :=
  String.join (messages.map fun message => (message.toJson files).compact ++ "\n")

end Offside.Diagnostic
