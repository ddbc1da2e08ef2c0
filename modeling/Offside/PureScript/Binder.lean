import Offside.PureScript.Name

/-! # PureScript: patterns

From tightest to loosest: atoms, constructors with arguments, operators, and a type annotation.
-/

namespace Offside.PureScript

open Grammar
open Grammar.Build

def binderAtomBody : Build Node :=
  let number := choice [token .integer, token .number]
  let field := node .binderField (seq [label, opt (seq [text .operator ":", binder])])
  choice [
    node .binderWildcard (token .underscore),
    cont .binderNamed (node .binderVar identifier) (seq [token .atSign, binderAtom]),
    node .binderConstructor (qualified (token .properName)),
    node .binderLiteral (choice [literal, seq [text .operator "-", number]]),
    node .binderArray
      (seq [token .leftBracket, sepBy binder (token .comma), token .rightBracket]),
    node .binderRecord (seq [token .leftBrace, sepBy field (token .comma), token .rightBrace]),
    node .binderParens (seq [token .leftParen, binder, token .rightParen])]

def binderBody : Build Node := do
  let app ← choice [
    node .binderConstructor (seq [qualified (token .properName), many1 binderAtom]),
    binderAtom]
  let operators := fold .binderOperator (pure app) (seq [qualified (token .operator), pure app])
  cont .binderTyped operators (seq [token .doubleColon, type])

end Offside.PureScript
