import Offside.PureScript.Name

/-! # PureScript: expressions

From tightest to loosest: atoms, access and update of records, application, negation, infix
operators, and a type annotation. The block forms reach as far as they can, so one may stand
without parentheses as the last argument of an application.
-/

namespace Offside.PureScript

open Grammar
open Grammar.Build

/-- A right-hand side behind `separator`, or several of them under guards. -/
def guarded (separator : Token.Kind) : Build Node :=
  let condition := choice [heal (seq [binder, token .leftArrow, expression]), expression]
  let guard := node .guard (seq [token .pipe, sepBy1 condition (token .comma)])
  choice [
    seq [token separator, expression],
    many1 (node .guardedExpr (seq [guard, token separator, expression]))]

/-- A statement of `do` or `ado`. -/
def statement : Build Node :=
  choice [
    node .doLet (seq [token .kwLet, block binding]),
    node .doBind (seq [binder, token .leftArrow, expression]),
    node .doDiscard expression]

/-- The forms that reach as far as they can. -/
def blockExpression : Build Node := do
  let branch := node .caseBranch (seq [sepBy1 binder (token .comma), guarded .arrow])
  let statement ← statement
  choice [
    node .exprLambda (seq [token .backslash, many1 binderAtom, token .arrow, expression]),
    node .exprIf (seq [token .kwIf, expression, token .kwThen, expression, token .kwElse,
      expression]),
    node .exprCase (seq [token .kwCase, sepBy1 expression (token .comma), token .kwOf,
      block branch]),
    node .exprLet (seq [token .kwLet, block binding, token .kwIn, expression]),
    node .exprDo (seq [qualified (token .kwDo), block (pure statement)]),
    node .exprAdo (seq [qualified (token .kwAdo), block (pure statement), token .kwIn,
      expression])]

/-- An expression that needs no parentheses anywhere. -/
def expressionAtom : Build Node :=
  let field := node .recordField <| seq [label, choice [
    seq [text .operator ":", expression], seq [token .equals, expression], empty]]
  choice [
    node .exprVar (qualified identifier),
    node .exprConstructor (qualified (token .properName)),
    node .exprLiteral literal,
    node .exprSection (token .underscore),
    node .exprHole (seq [text .operator "?", token .lowerName]),
    node .exprOperator
      (seq [token .leftParen, qualified (token .operator), token .rightParen]),
    node .exprParens (seq [token .leftParen, expression, token .rightParen]),
    node .exprArray
      (seq [token .leftBracket, sepBy expression (token .comma), token .rightBracket]),
    node .exprRecord (seq [token .leftBrace, sepBy field (token .comma), token .rightBrace])]

def expressionBody : Build Node := do
  let access := fold .exprAccess expressionAtom (seq [token .dot, label])
  let replaced := node .recordField (seq [label, token .equals, expression])
  let update ← fold .exprUpdate access
    (seq [token .leftBrace, sepBy1 replaced (token .comma), token .rightBrace])
  let blockForm ← blockExpression
  let typeArgument := node .typeArgument (seq [token .atSign, typeAtom])
  let app ← fold .exprApp (choice [pure update, pure blockForm])
    (choice [pure update, pure blockForm, typeArgument])
  let operand ← choice [node .exprNegate (seq [text .operator "-", pure app]), pure app]
  let operator := choice [
    qualified (token .operator),
    seq [token .backtick, qualified (choice [identifier, token .properName]), token .backtick]]
  let operators := fold .exprInfix (pure operand) (seq [operator, pure operand])
  cont .exprTyped operators (seq [token .doubleColon, type])

end Offside.PureScript
