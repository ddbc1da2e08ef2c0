/-! # Kinds of tokens

A kind carries no text: what a token says is read from the source under its positions. The order in
which the kinds are declared is the order in which sets of kinds are listed. Besides the kinds the
module holds the reserved words and the reserved operators, which are the only texts that decide a
kind by themselves.
-/

namespace Offside.Token

inductive Kind where
  | whitespace
  | lineComment
  /-- A line comment that documents what follows. -/
  | docComment
  /-- A bracketed comment; these nest. -/
  | blockComment
  /-- Opens an indented block; takes no text. -/
  | layoutStart
  /-- Separates the items of an indented block; takes no text. -/
  | layoutSep
  /-- Closes an indented block; takes no text. -/
  | layoutEnd
  | kwModule
  | kwWhere
  | kwImport
  | kwAs
  | kwHiding
  | kwData
  | kwNewtype
  | kwType
  | kwClass
  | kwInstance
  | kwDerive
  | kwForeign
  | kwInfixLeft
  | kwInfixRight
  | kwInfixNone
  | kwCase
  | kwOf
  | kwLet
  | kwIn
  | kwDo
  | kwAdo
  | kwIf
  | kwThen
  | kwElse
  | kwForall
  /-- A name that does not start in upper case. -/
  | lowerName
  | properName
  /-- A run of operator characters without a meaning of its own. -/
  | operator
  | integer
  /-- A number with a fraction or an exponent. -/
  | number
  | string
  | char
  | boolean
  | leftParen
  | rightParen
  | leftBrace
  | rightBrace
  | leftBracket
  | rightBracket
  | comma
  | semicolon
  | backtick
  | underscore
  | dot
  | dotDot
  | doubleColon
  | equals
  | pipe
  | backslash
  | arrow
  | fatArrow
  | leftArrow
  | atSign
  /-- A character, or an unfinished literal, that is no token. -/
  | invalid
deriving DecidableEq, Repr, Inhabited, Hashable

namespace Kind

/-- Every kind, in order of declaration. -/
def all : List Kind := [
  .whitespace, .lineComment, .docComment, .blockComment, .layoutStart, .layoutSep, .layoutEnd,
  .kwModule, .kwWhere, .kwImport, .kwAs, .kwHiding, .kwData, .kwNewtype, .kwType, .kwClass,
  .kwInstance, .kwDerive, .kwForeign, .kwInfixLeft, .kwInfixRight, .kwInfixNone, .kwCase, .kwOf,
  .kwLet, .kwIn, .kwDo, .kwAdo, .kwIf, .kwThen, .kwElse, .kwForall, .lowerName, .properName,
  .operator, .integer, .number, .string, .char, .boolean, .leftParen, .rightParen, .leftBrace,
  .rightBrace, .leftBracket, .rightBracket, .comma, .semicolon, .backtick, .underscore, .dot,
  .dotDot, .doubleColon, .equals, .pipe, .backslash, .arrow, .fatArrow, .leftArrow, .atSign,
  .invalid
]

def index (kind : Kind) : Nat := kind.ctorIdx

/-- Whether the parser passes over tokens of this kind. -/
def isTrivia : Kind → Bool
  | .whitespace | .lineComment | .docComment | .blockComment => true
  | _ => false

/-- Whether tokens of this kind come from the layout rule and take no text. -/
def isLayout : Kind → Bool
  | .layoutStart | .layoutSep | .layoutEnd => true
  | _ => false

/-- Whether the kind is a reserved word. These are declared next to each other. -/
def isKeyword (kind : Kind) : Bool := kwModule.index ≤ kind.index && kind.index ≤ kwForall.index

def isLiteral : Kind → Bool
  | .integer | .number | .string | .char | .boolean => true
  | _ => false

/-- Name of the kind in listings of tokens and trees. -/
def name : Kind → String
  | .whitespace => "Whitespace"
  | .lineComment => "LineComment"
  | .docComment => "DocComment"
  | .blockComment => "BlockComment"
  | .layoutStart => "LayoutStart"
  | .layoutSep => "LayoutSep"
  | .layoutEnd => "LayoutEnd"
  | .kwModule => "Module"
  | .kwWhere => "Where"
  | .kwImport => "Import"
  | .kwAs => "As"
  | .kwHiding => "Hiding"
  | .kwData => "Data"
  | .kwNewtype => "Newtype"
  | .kwType => "Type"
  | .kwClass => "Class"
  | .kwInstance => "Instance"
  | .kwDerive => "Derive"
  | .kwForeign => "Foreign"
  | .kwInfixLeft => "Infixl"
  | .kwInfixRight => "Infixr"
  | .kwInfixNone => "Infix"
  | .kwCase => "Case"
  | .kwOf => "Of"
  | .kwLet => "Let"
  | .kwIn => "In"
  | .kwDo => "Do"
  | .kwAdo => "Ado"
  | .kwIf => "If"
  | .kwThen => "Then"
  | .kwElse => "Else"
  | .kwForall => "Forall"
  | .lowerName => "LowerName"
  | .properName => "ProperName"
  | .operator => "Operator"
  | .integer => "Integer"
  | .number => "Number"
  | .string => "String"
  | .char => "Char"
  | .boolean => "Boolean"
  | .leftParen => "LParen"
  | .rightParen => "RParen"
  | .leftBrace => "LBrace"
  | .rightBrace => "RBrace"
  | .leftBracket => "LBracket"
  | .rightBracket => "RBracket"
  | .comma => "Comma"
  | .semicolon => "Semi"
  | .backtick => "Backtick"
  | .underscore => "Underscore"
  | .dot => "Dot"
  | .dotDot => "DotDot"
  | .doubleColon => "DoubleColon"
  | .equals => "Eq"
  | .pipe => "Pipe"
  | .backslash => "Backslash"
  | .arrow => "Arrow"
  | .fatArrow => "FatArrow"
  | .leftArrow => "LeftArrow"
  | .atSign => "At"
  | .invalid => "Error"

/-- How messages call a token of this kind. -/
def description : Kind → String
  | .whitespace => "whitespace"
  | .lineComment => "comment"
  | .docComment => "doc comment"
  | .blockComment => "block comment"
  | .layoutStart => "start of block"
  | .layoutSep => "new line in block"
  | .layoutEnd => "end of block"
  | .kwModule => "`module`"
  | .kwWhere => "`where`"
  | .kwImport => "`import`"
  | .kwAs => "`as`"
  | .kwHiding => "`hiding`"
  | .kwData => "`data`"
  | .kwNewtype => "`newtype`"
  | .kwType => "`type`"
  | .kwClass => "`class`"
  | .kwInstance => "`instance`"
  | .kwDerive => "`derive`"
  | .kwForeign => "`foreign`"
  | .kwInfixLeft => "`infixl`"
  | .kwInfixRight => "`infixr`"
  | .kwInfixNone => "`infix`"
  | .kwCase => "`case`"
  | .kwOf => "`of`"
  | .kwLet => "`let`"
  | .kwIn => "`in`"
  | .kwDo => "`do`"
  | .kwAdo => "`ado`"
  | .kwIf => "`if`"
  | .kwThen => "`then`"
  | .kwElse => "`else`"
  | .kwForall => "`forall`"
  | .lowerName => "identifier"
  | .properName => "proper name"
  | .operator => "operator"
  | .integer => "integer literal"
  | .number => "number literal"
  | .string => "string literal"
  | .char => "character literal"
  | .boolean => "boolean literal"
  | .leftParen => "`(`"
  | .rightParen => "`)`"
  | .leftBrace => "`\x7b`"
  | .rightBrace => "`\x7d`"
  | .leftBracket => "`[`"
  | .rightBracket => "`]`"
  | .comma => "`,`"
  | .semicolon => "`;`"
  | .backtick => "`` ` ``"
  | .underscore => "`_`"
  | .dot => "`.`"
  | .dotDot => "`..`"
  | .doubleColon => "`::`"
  | .equals => "`=`"
  | .pipe => "`|`"
  | .backslash => "`\\`"
  | .arrow => "`->`"
  | .fatArrow => "`=>`"
  | .leftArrow => "`<-`"
  | .atSign => "`@`"
  | .invalid => "invalid character"

def ofName? (name : String) : Option Kind := all.find? fun kind => kind.name == name

def ofWord? : String → Option Kind
  | "module" => some .kwModule
  | "where" => some .kwWhere
  | "import" => some .kwImport
  | "as" => some .kwAs
  | "hiding" => some .kwHiding
  | "data" => some .kwData
  | "newtype" => some .kwNewtype
  | "type" => some .kwType
  | "class" => some .kwClass
  | "instance" => some .kwInstance
  | "derive" => some .kwDerive
  | "foreign" => some .kwForeign
  | "infixl" => some .kwInfixLeft
  | "infixr" => some .kwInfixRight
  | "infix" => some .kwInfixNone
  | "case" => some .kwCase
  | "of" => some .kwOf
  | "let" => some .kwLet
  | "in" => some .kwIn
  | "do" => some .kwDo
  | "ado" => some .kwAdo
  | "if" => some .kwIf
  | "then" => some .kwThen
  | "else" => some .kwElse
  | "forall" => some .kwForall
  | "true" | "false" => some .boolean
  | "_" => some .underscore
  | _ => none

/-- The kind of a reserved operator, in either of its spellings. -/
def ofOperator? : String → Option Kind
  | "." => some .dot
  | ".." => some .dotDot
  | "::" | "∷" => some .doubleColon
  | "=" => some .equals
  | "|" => some .pipe
  | "\\" => some .backslash
  | "->" | "→" => some .arrow
  | "=>" | "⇒" => some .fatArrow
  | "<-" | "←" => some .leftArrow
  | "@" => some .atSign
  | "∀" => some .kwForall
  | _ => none

end Kind

end Offside.Token
