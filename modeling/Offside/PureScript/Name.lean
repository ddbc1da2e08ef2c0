import Offside.Grammar.Build

/-! # PureScript: names, literals and blocks

What the rest of the PureScript grammar shares. Every use makes new nodes, so that sharing is
visible where it happens. The rules that refer to each other are known by name; this module fixes
the names.
-/

namespace Offside.PureScript

open Grammar
open Grammar.Build

def type : Build Node := rule "type"

/-- A type that needs no parentheses as an argument. -/
def typeAtom : Build Node := rule "type atom"

def binder : Build Node := rule "binder"

def binderAtom : Build Node := rule "binder atom"

def expression : Build Node := rule "expression"

/-- A binding of `let` or `where`. -/
def binding : Build Node := rule "binding"

def module : Build Node := rule "module"

/-- A name in lower case. The words `as` and `hiding` are reserved in imports only. -/
def identifier : Build Node := choice [token .lowerName, token .kwAs, token .kwHiding]

/-- A record label: a name, a keyword or a string. -/
def label : Build Node :=
  let names : List Token.Kind := [.lowerName, .string, .boolean]
  choice ((names ++ Token.Kind.all.filter Token.Kind.isKeyword).map token)

/-- Something behind an optional module qualifier. -/
def qualified (core : Build Node) : Build Node :=
  seq [many (heal (seq [token .properName, token .dot])), core]

def moduleName : Build Node := node .moduleName (sepBy1 (token .properName) (token .dot))

def literal : Build Node :=
  choice [token .integer, token .number, token .string, token .char, token .boolean]

/-- The items of a block, laid out by indentation or written with braces and semicolons. -/
def block (item : Build Node) : Build Node := do
  let item ← item
  choice [
    seq [token .layoutStart, sepBy (pure item) (token .layoutSep), token .layoutEnd],
    seq [token .leftBrace, sepBy (pure item) (token .semicolon), token .rightBrace]]

end Offside.PureScript
