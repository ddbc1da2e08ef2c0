import Offside.Text.Blank
import Offside.Text.Identifier
import Offside.Text.Uppercase
import Offside.Token.Basic

/-! # Scanning

The scanner cuts a text into tokens that tile it, trivia included. It never fails: a character that
starts no token, and a literal that is never finished, become invalid tokens, and scanning goes on
behind them.

Each rule looks at the first character and what follows, and answers a kind and how many further
characters the token takes. What was cut off and what is left are then a prefix and the rest of the
same list, so nothing can be lost or read twice, and the rest is always shorter.
-/

namespace Offside.Token

open Text

/-- Operator characters beyond ASCII. -/
def operatorSymbols : List Char :=
  ['→', '⇒', '←', '∷', '∀', '∘', '∙', '⊕', '⊗', '≡', '≠', '≤', '≥', '⋘', '⋙']

def asciiOperators : List Char :=
  [':', '!', '#', '$', '%', '&', '*', '+', '.', '/', '<', '=', '>', '?', '@', '\\', '^', '|', '-',
    '~']

def isOperatorChar (char : Char) : Bool :=
  asciiOperators.contains char || operatorSymbols.contains char

def startsName (char : Char) : Bool := char == '_' || isIdentifierStart char

def continuesName (char : Char) : Bool :=
  char == '_' || char == '\'' || isIdentifierContinue char

def isHexDigit (char : Char) : Bool :=
  char.isDigit || ('a' ≤ char && char ≤ 'f') || ('A' ≤ char && char ≤ 'F')

/-- Length of the longest start of the list whose characters all satisfy the condition. -/
def run (condition : Char → Bool) (chars : List Char) : Nat := (chars.takeWhile condition).length

/-- Two dashes start a comment unless the dashes lead into a longer operator. Expects the list to
start behind the first dash. -/
def startsLineComment (rest : List Char) : Bool :=
  match rest with
  | '-' :: more =>
    match more.dropWhile (· == '-') with
    | next :: _ => !isOperatorChar next
    | [] => true
  | _ => false

/-- A comment up to the end of its line, the first dash already taken. A bar after exactly one
space makes it a doc comment. -/
def lineComment (rest : List Char) : Kind × Nat :=
  let kind := if ['-', ' ', '|'].isPrefixOf rest then .docComment else .lineComment
  (kind, run (fun char => char != '\n' && char != '\r') rest)

/-- Length of what is left of a block comment with `depth` comments open inside it. An unfinished
comment reaches to the end of the text. -/
def blockCommentLength (depth : Nat) : List Char → Nat
  | [] => 0
  | '\x7b' :: '-' :: rest => blockCommentLength (depth + 1) rest + 2
  | '-' :: '\x7d' :: rest =>
    match depth with
    | 0 => 2
    | outer + 1 => blockCommentLength outer rest + 2
  | _ :: rest => blockCommentLength depth rest + 1

def nameKind (name : List Char) : Kind :=
  match Kind.ofWord? (String.ofList name) with
  | some kind => kind
  | none =>
    match name with
    | first :: _ => if isUppercase first then .properName else .lowerName
    | [] => .lowerName

def nameFrom (first : Char) (rest : List Char) : Kind × Nat :=
  let length := run continuesName rest
  (nameKind (first :: rest.take length), length)

def operatorFrom (first : Char) (rest : List Char) : Kind × Nat :=
  let length := run isOperatorChar rest
  ((Kind.ofOperator? (String.ofList (first :: rest.take length))).getD .operator, length)

/-- Whether a character belongs to the digits of a number; underscores only space them. -/
def isDigitOrSpacer (char : Char) : Bool := char.isDigit || char == '_'

/-- Length of a fraction, zero when no digit follows the point. -/
def fractionLength : List Char → Nat
  | '.' :: digit :: rest => if digit.isDigit then run isDigitOrSpacer rest + 2 else 0
  | _ => 0

/-- Length of an exponent, zero when it has no digits: what looks like one is then a name. -/
def exponentLength : List Char → Nat
  | letter :: rest =>
    if letter == 'e' || letter == 'E' then
      let sign := match rest with
        | first :: _ => if first == '+' || first == '-' then 1 else 0
        | [] => 0
      let digits := run Char.isDigit (rest.drop sign)
      if digits = 0 then 0 else digits + sign + 1
    else 0
  | [] => 0

/-- A number behind its first digit. A fraction or an exponent makes it no integer. -/
def numberFrom (first : Char) (rest : List Char) : Kind × Nat :=
  if first == '0' && (rest.head? == some 'x' || rest.head? == some 'X') then
    (.integer, run isHexDigit rest.tail + 1)
  else
    let whole := run isDigitOrSpacer rest
    let fraction := fractionLength (rest.drop whole)
    let exponent := exponentLength (rest.drop (whole + fraction))
    (if fraction = 0 && exponent = 0 then .integer else .number, whole + fraction + exponent)

/-- Length of what is left of a string between triple quotes, its end included. Further quotes
behind the first three still belong to it. -/
def rawStringLength? : List Char → Option Nat
  | [] => none
  | '"' :: '"' :: '"' :: rest => some (run (· == '"') rest + 3)
  | _ :: rest => (rawStringLength? rest).map (· + 1)

inductive StringState where
  | plain
  | escaped
  /-- In the white space that a backslash skips. -/
  | gap
deriving DecidableEq, Repr

inductive StringStep where
  | next (state : StringState)
  | close
  /-- The string breaks off in front of the character. -/
  | broken

def StringStep.ofPlain (char : Char) : StringStep :=
  if char == '"' then .close
  else if char == '\\' then .next .escaped
  else if char == '\n' then .broken
  else .next .plain

/-- What a character means in each state. A line may only break inside a gap. -/
def StringState.step : StringState → Char → StringStep
  | .plain, char => .ofPlain char
  | .escaped, char => .next (if isBlank char then .gap else .plain)
  | .gap, char =>
    if isBlank char then .next .gap
    else if char == '\\' then .next .plain
    else .ofPlain char

/-- Rest of a string from a state on: whether it is finished, and how long it is. -/
def stringFrom (state : StringState) : List Char → Bool × Nat
  | [] => (false, 0)
  | char :: rest =>
    match state.step char with
    | .next state =>
      let (finished, length) := stringFrom state rest
      (finished, length + 1)
    | .close => (true, 1)
    | .broken => (false, 0)

/-- A string behind its first quote, plain or between triple quotes. -/
def stringLiteral (rest : List Char) : Kind × Nat :=
  match rest with
  | '"' :: '"' :: more =>
    match rawStringLength? more with
    | some length => (.string, length + 2)
    | none => (.invalid, rest.length)
  | _ =>
    let (finished, length) := stringFrom .plain rest
    (if finished then .string else .invalid, length)

/-- Length of the character inside single quotes, unless there is none to close. -/
def charBody : List Char → Bool × Nat
  | '\\' :: 'x' :: rest => (true, run isHexDigit rest + 2)
  | '\\' :: '\n' :: _ => (false, 1)
  | ['\\'] => (false, 1)
  | '\\' :: _ :: _ => (true, 2)
  | '\'' :: _ => (false, 0)
  | '\n' :: _ => (false, 0)
  | [] => (false, 0)
  | _ :: _ => (true, 1)

def charLiteral (rest : List Char) : Kind × Nat :=
  let (closable, length) := charBody rest
  if closable && (rest.drop length).head? == some '\'' then (.char, length + 1)
  else (.invalid, length)

/-- The kinds of characters that are tokens by themselves. -/
def bracket? : Char → Option Kind
  | '(' => some .leftParen
  | ')' => some .rightParen
  | '\x7b' => some .leftBrace
  | '\x7d' => some .rightBrace
  | '[' => some .leftBracket
  | ']' => some .rightBracket
  | ',' => some .comma
  | ';' => some .semicolon
  | '\x60' => some .backtick
  | _ => none

/-- The token that starts with `first`: its kind and how many characters of `rest` it takes. A dot
right behind a proper name qualifies what follows, even an operator, so it stands alone. -/
def scanToken (afterProper : Bool) (first : Char) (rest : List Char) : Kind × Nat :=
  if isBlank first then (.whitespace, run isBlank rest)
  else if first == '-' && startsLineComment rest then lineComment rest
  else if first == '\x7b' && rest.head? == some '-' then
    (.blockComment, blockCommentLength 0 rest.tail + 1)
  else if startsName first then nameFrom first rest
  else if first.isDigit then numberFrom first rest
  else if first == '"' then stringLiteral rest
  else if first == '\'' then charLiteral rest
  else match bracket? first with
    | some kind => (kind, 0)
    | none =>
      if first == '.' && afterProper then (.dot, 0)
      else if isOperatorChar first then operatorFrom first rest
      else (.invalid, 0)

structure Piece where
  kind : Kind
  text : List Char
deriving DecidableEq, Repr

def piecesFrom (afterProper : Bool) : List Char → List Piece
  | [] => []
  | first :: rest =>
    let (kind, length) := scanToken afterProper first rest
    ⟨kind, first :: rest.take length⟩ :: piecesFrom (kind == .properName) (rest.drop length)
termination_by chars => chars.length
decreasing_by simp only [List.length_drop, List.length_cons]; omega

def rawFrom (offset : Nat) : List Piece → List Raw
  | [] => []
  | piece :: rest =>
    let stop := offset + byteLength piece.text
    ⟨piece.kind, offset, stop⟩ :: rawFrom stop rest

/-- The tokens of a source, by byte range. -/
def scan (source : String) : List Raw := rawFrom 0 (piecesFrom false source.toList)

end Offside.Token
