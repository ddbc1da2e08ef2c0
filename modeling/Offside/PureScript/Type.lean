import Offside.PureScript.Name

/-! # PureScript: types and kinds

From tightest to loosest: atoms, application, operators, arrows, constraints. A quantifier reaches
as far as it can.
-/

namespace Offside.PureScript

open Grammar
open Grammar.Build

/-- A type variable where it is introduced, with or without its kind. -/
def typeVarBinding : Build Node :=
  node .typeVarBinding <| choice [identifier,
    seq [token .leftParen, identifier, token .doubleColon, type, token .rightParen]]

/-- A class applied to types. -/
def constraint : Build Node := seq [qualified (token .properName), many typeAtom]

/-- One constraint, or several in parentheses. -/
def constraints : Build Node :=
  choice [seq [token .leftParen, sepBy1 constraint (token .comma), token .rightParen], constraint]

/-- Fields of a row, and the row that they extend. -/
def row : Build Node :=
  let field := node .rowField (seq [label, token .doubleColon, type])
  seq [sepBy field (token .comma), opt (seq [token .pipe, type])]

def typeAtomBody : Build Node := do
  let row ← row
  choice [
    node .typeVar identifier,
    node .typeConstructor (qualified (token .properName)),
    node .typeWildcard (token .underscore),
    node .typeLiteral (choice [token .string, token .integer]),
    node .typeRecord (seq [token .leftBrace, pure row, token .rightBrace]),
    node .typeParens (seq [token .leftParen, type, token .rightParen]),
    node .typeRow (seq [token .leftParen, pure row, token .rightParen])]

def typeBody : Build Node := do
  let app ← fold .typeApp typeAtom typeAtom
  let operators := fold .typeOperator (pure app) (seq [qualified (token .operator), pure app])
  let arrow := cont .typeArrow operators (seq [token .arrow, type])
  let constrained := cont .typeConstrained arrow (seq [token .fatArrow, type])
  let quantified := node .typeForall
    (seq [token .kwForall, many1 typeVarBinding, token .dot, type])
  choice [quantified, constrained]

end Offside.PureScript
