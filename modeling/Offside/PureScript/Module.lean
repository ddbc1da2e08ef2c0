import Offside.Lex
import Offside.Parse.Whole
import Offside.PureScript.Grammar

/-! # Parsing PureScript modules

From source text to a tree that holds every token, with the errors found on the way. Only a defect
of the grammar itself could keep a parse from giving a result.
-/

namespace Offside.PureScript

structure Options where
  layout : Layout.Config
  /-- Whether choices try every alternative in order instead of looking at the next token. -/
  naive : Bool
deriving DecidableEq, Repr

structure Module where
  outcome : Parse.Outcome
  tree : Syntax.Tree
  errors : List Syntax.Error

def Module.isClean (module : Module) : Bool := module.errors.isEmpty

def parseModule (options : Options) (source : String) : Except Grammar.Defect Module := do
  let compiled ← compiled?
  let result := Parse.parseTokens compiled options.naive source (lex options.layout source)
  pure ⟨result.outcome, result.tree, result.errors⟩

end Offside.PureScript
