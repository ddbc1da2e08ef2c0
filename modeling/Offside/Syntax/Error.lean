import Offside.Source.Position

/-! # Syntax errors

What can be wrong with a source: a word that the grammar has no use for, an end of input that comes
too early, and constructs that were malformed or missing and passed over. Each kind of error has a
code of its own.
-/

namespace Offside.Syntax

open Source

inductive Error where
  | unexpected (found expected : String) (span : Span)
  | unexpectedEnd (expected : String) (span : Span)
  /-- A construct that recovery passed over; its span is empty if it was missing. -/
  | recovered (message : String) (span : Span)
deriving DecidableEq, Repr

namespace Error

def span : Error → Span
  | unexpected _ _ span | unexpectedEnd _ span | recovered _ span => span

def code : Error → String
  | unexpected .. => "P0001"
  | unexpectedEnd .. => "P0002"
  | recovered .. => "P0003"

def message : Error → String
  | unexpected found expected _ => s!"unexpected token `{found}`: expected {expected}"
  | unexpectedEnd expected _ => s!"unexpected end of input: expected {expected}"
  | recovered message _ => message

end Error

end Offside.Syntax
