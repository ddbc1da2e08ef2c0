import Offside.PureScript.Expression
import Offside.PureScript.Type

/-! # PureScript: modules, imports and declarations

A declaration that fails is passed over up to the next separator and reported; what follows it is
parsed again.
-/

namespace Offside.PureScript

open Grammar
open Grammar.Build

/-- The constructors that an import or export names behind a type. -/
def dataMembers : Build Node :=
  node .dataMembers <| seq [token .leftParen,
    choice [token .dotDot, sepBy (token .properName) (token .comma)], token .rightParen]

/-- What imports and exports may name. -/
def members : List (Build Node) := [
  identifier,
  seq [token .leftParen, token .operator, token .rightParen],
  seq [token .properName, opt dataMembers],
  seq [token .kwClass, token .properName],
  seq [token .kwType, token .leftParen, token .operator, token .rightParen]]

def moduleHeader : Build Node :=
  let entry := node .export (choice (members ++ [seq [token .kwModule, moduleName]]))
  let exports := node .exportList
    (seq [token .leftParen, sepBy entry (token .comma), token .rightParen])
  node .moduleHeader (seq [token .kwModule, moduleName, opt exports, token .kwWhere])

def importDeclaration : Build Node :=
  let item := node .importItem (choice members)
  let names := node .importList (seq [opt (token .kwHiding), token .leftParen,
    sepBy item (token .comma), token .rightParen])
  node .importDecl (seq [token .kwImport, moduleName, opt names,
    opt (seq [token .kwAs, moduleName])])

/-- A name with its type. -/
def signature : Build Node :=
  node .typeSignature (seq [identifier, token .doubleColon, type])

/-- A function or value by equations. -/
def valueDeclaration : Build Node :=
  let locals := node .whereClause (seq [token .kwWhere, block binding])
  node .valueDecl (seq [identifier, many binderAtom, guarded .equals, opt locals])

/-- A kind signature or a body, behind the name of a declared type. -/
def kindOr (body : Build Node) : Build Node := choice [seq [token .doubleColon, type], body]

def dataDeclaration : Build Node :=
  let constructor := node .constructor (seq [token .properName, many typeAtom])
  let body := seq [many typeVarBinding,
    opt (seq [token .equals, sepBy1 constructor (token .pipe)])]
  node .dataDecl (seq [token .kwData, token .properName, kindOr body])

def newtypeDeclaration : Build Node :=
  let body := seq [many typeVarBinding, token .equals, token .properName, typeAtom]
  node .newtypeDecl (seq [token .kwNewtype, token .properName, kindOr body])

def synonymDeclaration : Build Node :=
  let body := seq [many typeVarBinding, token .equals, type]
  node .typeSynonymDecl (seq [token .kwType, token .properName, kindOr body])

def roleDeclaration : Build Node :=
  let role := choice (["nominal", "representational", "phantom"].map (text .lowerName))
  node .roleDecl (seq [token .kwType, text .lowerName "role", token .properName, many1 role])

def classDeclaration : Build Node :=
  let superclasses := node .constraints (seq [constraints, text .operator "<="])
  let dependency := seq [many identifier, token .arrow, many identifier]
  let dependencies := node .functionalDependencies
    (seq [token .pipe, sepBy1 dependency (token .comma)])
  let body := seq [token .kwWhere, opt (block signature)]
  let head := seq [opt (heal superclasses), token .properName, many typeVarBinding,
    opt dependencies, opt body]
  node .classDecl (seq [token .kwClass,
    choice [heal (seq [token .properName, token .doubleColon, type]), head]])

/-- An instance up to its body. -/
def instanceHead : Build Node :=
  let name := heal (seq [identifier, token .doubleColon])
  let context := heal (node .constraints (seq [constraints, token .fatArrow]))
  seq [token .kwInstance, opt name, opt context, qualified (token .properName), many typeAtom]

/-- An instance, or a chain of them. -/
def instanceDeclaration : Build Node :=
  let body := seq [token .kwWhere, opt (block binding)]
  node .instanceDecl (sepBy1 (seq [instanceHead, opt body]) (token .kwElse))

def deriveDeclaration : Build Node :=
  node .deriveDecl (seq [token .kwDerive, opt (token .kwNewtype), instanceHead])

def foreignDeclaration : Build Node :=
  node .foreignDecl (seq [token .kwForeign, token .kwImport, choice [
    seq [token .kwData, token .properName, token .doubleColon, type],
    seq [identifier, token .doubleColon, type]]])

def fixityDeclaration : Build Node :=
  let name := qualified (choice [identifier, token .properName])
  node .fixityDecl (seq [
    choice [token .kwInfixLeft, token .kwInfixRight, token .kwInfixNone],
    token .integer, opt (token .kwType), name, token .kwAs, token .operator])

/-- The declarations of a module between `separator`s and up to `stop`. -/
def declarations (separator stop : Token.Kind) : Build Node := do
  let boundary ← choice [token separator, token stop]
  let declaration := choice [
    importDeclaration, dataDeclaration, newtypeDeclaration, roleDeclaration, synonymDeclaration,
    classDeclaration, instanceDeclaration, deriveDeclaration, foreignDeclaration,
    fixityDeclaration, signature, valueDeclaration]
  let item := seq [
    relaxTo declaration (pure boundary) "expected a declaration",
    relaxTo (ahead (pure boundary)) (pure boundary) "unexpected tokens after declaration"]
  choice [
    token stop,
    seq [sepBy1 item (token separator), relax (token stop) "expected end of module"]]

def bindingBody : Build Node :=
  let pattern := node .patternBinding (seq [binder, guarded .equals])
  choice [signature, valueDeclaration, pattern]

def moduleBody : Build Node :=
  node .module (seq [moduleHeader, choice [
    seq [token .layoutStart, declarations .layoutSep .layoutEnd],
    seq [token .leftBrace, declarations .semicolon .rightBrace]]])

end Offside.PureScript
