/-! # Kinds of syntax nodes

The kinds of interior nodes. Leaves are tokens and have token kinds instead. Punctuation
and keywords are leaves of the node they belong to and have no node of their own.
-/

namespace Offside.Syntax

/-- The kind of an interior node. -/
inductive Kind where
  | file
  /-- Tokens that recovery passed over. -/
  | error
  | module
  | moduleHeader
  | moduleName
  | exportList
  | export
  | importDecl
  | importList
  | importItem
  /-- The constructors behind a type in an import or export. -/
  | dataMembers
  | qualifiedName
  | dataDecl
  | newtypeDecl
  | typeSynonymDecl
  | roleDecl
  | typeSignature
  | classDecl
  | functionalDependencies
  /-- An instance, or a chain of them. -/
  | instanceDecl
  | deriveDecl
  | foreignDecl
  | fixityDecl
  | valueDecl
  /-- A pattern bound in `let` or `where`. -/
  | patternBinding
  | constructor
  | constraints
  | typeVarBinding
  | guardedExpr
  | guard
  | whereClause
  | typeForall
  | typeConstrained
  | typeArrow
  | typeOperator
  | typeApp
  | typeVar
  | typeConstructor
  | typeWildcard
  | typeLiteral
  | typeRecord
  | typeRow
  | rowField
  | typeParens
  | binderVar
  /-- A pattern with a name for the whole. -/
  | binderNamed
  | binderConstructor
  | binderLiteral
  | binderWildcard
  | binderArray
  | binderRecord
  | binderField
  | binderParens
  | binderOperator
  | binderTyped
  | exprTyped
  | exprInfix
  | exprNegate
  | exprApp
  | typeArgument
  | exprAccess
  | exprUpdate
  | exprVar
  | exprConstructor
  | exprOperator
  /-- A wildcard that stands for an argument. -/
  | exprSection
  | exprHole
  | exprLiteral
  | exprArray
  | exprRecord
  /-- One field of a record or of an update. -/
  | recordField
  | exprParens
  | exprLambda
  | exprIf
  | exprCase
  | caseBranch
  | exprLet
  | exprDo
  | exprAdo
  | doBind
  | doLet
  | doDiscard
deriving DecidableEq, Repr, Inhabited

namespace Kind

/-- Every kind, in order of declaration. -/
def all : List Kind := [
  .file, .error, .module, .moduleHeader, .moduleName, .exportList, .export, .importDecl,
  .importList, .importItem, .dataMembers, .qualifiedName, .dataDecl, .newtypeDecl,
  .typeSynonymDecl, .roleDecl, .typeSignature, .classDecl, .functionalDependencies, .instanceDecl,
  .deriveDecl, .foreignDecl, .fixityDecl, .valueDecl, .patternBinding, .constructor, .constraints,
  .typeVarBinding, .guardedExpr, .guard, .whereClause, .typeForall, .typeConstrained, .typeArrow,
  .typeOperator, .typeApp, .typeVar, .typeConstructor, .typeWildcard, .typeLiteral, .typeRecord,
  .typeRow, .rowField, .typeParens, .binderVar, .binderNamed, .binderConstructor, .binderLiteral,
  .binderWildcard, .binderArray, .binderRecord, .binderField, .binderParens, .binderOperator,
  .binderTyped, .exprTyped, .exprInfix, .exprNegate, .exprApp, .typeArgument, .exprAccess,
  .exprUpdate, .exprVar, .exprConstructor, .exprOperator, .exprSection, .exprHole, .exprLiteral,
  .exprArray, .exprRecord, .recordField, .exprParens, .exprLambda, .exprIf, .exprCase,
  .caseBranch, .exprLet, .exprDo, .exprAdo, .doBind, .doLet, .doDiscard
]

/-- Name of the kind in listings of trees. -/
def name : Kind → String
  | .file => "File"
  | .error => "Error"
  | .module => "Module"
  | .moduleHeader => "ModuleHeader"
  | .moduleName => "ModuleName"
  | .exportList => "ExportList"
  | .export => "Export"
  | .importDecl => "ImportDecl"
  | .importList => "ImportList"
  | .importItem => "ImportItem"
  | .dataMembers => "DataMembers"
  | .qualifiedName => "QualifiedName"
  | .dataDecl => "DataDecl"
  | .newtypeDecl => "NewtypeDecl"
  | .typeSynonymDecl => "TypeSynonymDecl"
  | .roleDecl => "RoleDecl"
  | .typeSignature => "TypeSignature"
  | .classDecl => "ClassDecl"
  | .functionalDependencies => "FunctionalDependencies"
  | .instanceDecl => "InstanceDecl"
  | .deriveDecl => "DeriveDecl"
  | .foreignDecl => "ForeignDecl"
  | .fixityDecl => "FixityDecl"
  | .valueDecl => "ValueDecl"
  | .patternBinding => "PatternBinding"
  | .constructor => "Constructor"
  | .constraints => "Constraints"
  | .typeVarBinding => "TypeVarBinding"
  | .guardedExpr => "GuardedExpr"
  | .guard => "Guard"
  | .whereClause => "WhereClause"
  | .typeForall => "TypeForall"
  | .typeConstrained => "TypeConstrained"
  | .typeArrow => "TypeArrow"
  | .typeOperator => "TypeOperator"
  | .typeApp => "TypeApp"
  | .typeVar => "TypeVar"
  | .typeConstructor => "TypeConstructor"
  | .typeWildcard => "TypeWildcard"
  | .typeLiteral => "TypeLiteral"
  | .typeRecord => "TypeRecord"
  | .typeRow => "TypeRow"
  | .rowField => "RowField"
  | .typeParens => "TypeParens"
  | .binderVar => "BinderVar"
  | .binderNamed => "BinderNamed"
  | .binderConstructor => "BinderConstructor"
  | .binderLiteral => "BinderLiteral"
  | .binderWildcard => "BinderWildcard"
  | .binderArray => "BinderArray"
  | .binderRecord => "BinderRecord"
  | .binderField => "BinderField"
  | .binderParens => "BinderParens"
  | .binderOperator => "BinderOperator"
  | .binderTyped => "BinderTyped"
  | .exprTyped => "ExprTyped"
  | .exprInfix => "ExprInfix"
  | .exprNegate => "ExprNegate"
  | .exprApp => "ExprApp"
  | .typeArgument => "TypeArgument"
  | .exprAccess => "ExprAccess"
  | .exprUpdate => "ExprUpdate"
  | .exprVar => "ExprVar"
  | .exprConstructor => "ExprConstructor"
  | .exprOperator => "ExprOperator"
  | .exprSection => "ExprSection"
  | .exprHole => "ExprHole"
  | .exprLiteral => "ExprLiteral"
  | .exprArray => "ExprArray"
  | .exprRecord => "ExprRecord"
  | .recordField => "RecordField"
  | .exprParens => "ExprParens"
  | .exprLambda => "ExprLambda"
  | .exprIf => "ExprIf"
  | .exprCase => "ExprCase"
  | .caseBranch => "CaseBranch"
  | .exprLet => "ExprLet"
  | .exprDo => "ExprDo"
  | .exprAdo => "ExprAdo"
  | .doBind => "DoBind"
  | .doLet => "DoLet"
  | .doDiscard => "DoDiscard"

def ofName? (name : String) : Option Kind := all.find? fun kind => kind.name == name

end Kind

end Offside.Syntax
