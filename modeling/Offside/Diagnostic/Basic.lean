import Offside.Source.File

/-! # Diagnostics

Messages about files, apart from how they are shown. A label points at a span of one of the files,
by its place in the list of files; labels of files that do not exist are passed over wherever
diagnostics are shown.
-/

namespace Offside.Diagnostic

open Source

inductive Severity where
  | error
  | warning
  | note
  | help
deriving DecidableEq, Repr

def Severity.label : Severity → String
  | error => "error"
  | warning => "warning"
  | note => "note"
  | help => "help"

/-- A place that a message points at. -/
structure Label where
  /-- Index of the file. -/
  file : Nat
  span : Span
  message : String
  /-- Whether this is where the message arose. -/
  isPrimary : Bool
deriving DecidableEq, Repr

structure Message where
  severity : Severity
  text : String
  code : Option String
  labels : List Label
  notes : List String
deriving DecidableEq, Repr

namespace Message

def isError (message : Message) : Bool := message.severity == .error

/-- The first primary place. -/
def primary? (message : Message) : Option Label := message.labels.find? Label.isPrimary

end Message

def errorCount (messages : List Message) : Nat := messages.countP Message.isError

end Offside.Diagnostic
