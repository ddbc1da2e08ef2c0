import Offside.Diagnostic.Basic
import Offside.PureScript.Module

/-! # Diagnosing PureScript modules

Syntax errors as diagnostics. An unexpected token also points at everything left unparsed behind
it, which is the last error node right under the root.
-/

namespace Offside

open Diagnostic (Label Message)

def Syntax.Error.label : Syntax.Error → String
  | .unexpected _ expected _ | .unexpectedEnd expected _ => s!"expected {expected}"
  | .recovered _ span => if span.isEmpty then "missing here" else "skipped"

namespace PureScript

/-- The input that was left unparsed. -/
def Module.unparsed? (module : Module) : Option Source.Span :=
  let errors := (module.tree.childNodes 0).filter fun id => module.tree.kind? id == some .error
  errors.getLast?.bind module.tree.span?

/-- A syntax error of a file as a message. -/
def messageOf (file : Nat) (unparsed? : Option Source.Span) (error : Syntax.Error) : Message :=
  let primary : Label := ⟨file, error.span, error.label, true⟩
  let (secondary, notes) := match error with
    | .unexpected .. =>
      (unparsed?.toList.map fun span => Label.mk file span "left unparsed" false,
        ["nothing after this point was parsed"])
    | _ => ([], [])
  ⟨.error, error.message, some error.code, primary :: secondary, notes⟩

def Module.messages (module : Module) (file : Nat) : List Message :=
  module.errors.map (messageOf file module.unparsed?)

end PureScript

end Offside
