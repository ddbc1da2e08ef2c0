import Offside.Grammar.Compiled
import Offside.PureScript.Binder
import Offside.PureScript.Declaration

/-! # The PureScript grammar

The rules put together. Their names are distinct, and every rule that is used is defined; the
grammar is checked like any other all the same, and a defect would be an answer like any other.
-/

namespace Offside.PureScript

open Grammar

/-- Names and bodies of the rules, and the node that parsing starts from. -/
def rulesAndRoot : Build (Rules × Node) := do
  let bodies := [
    ("type atom", typeAtomBody), ("type", typeBody),
    ("binder atom", binderAtomBody), ("binder", binderBody),
    ("expression", expressionBody),
    ("binding", bindingBody), ("module", moduleBody)]
  let bodies ← bodies.mapM fun (name, body) => return (name, ← body)
  pure (⟨bodies⟩, ← module)

def rules : Rules := (rulesAndRoot.run 0).1.1

def root : Node := (rulesAndRoot.run 0).1.2

def compiled? : Except Defect Compiled := compile (.ofRules rules) root

end Offside.PureScript
