import Offside.Layout.Stack
import Offside.Token.Qualified

/-! # Layout around one token

The offside rule, one token at a time. A token may close blocks, be separated from the line before
it, and open a block at the token that follows. Every rule below is put together from the same few
moves: close some of the innermost frames, separate, emit the token, open a block, push or pop a
mask. A closing that turns out not to lead to the frame a word belongs to is abandoned before
anything was closed.

Behind a qualifier a word is a plain name, with three exceptions: `do`, `ado` and `forall` keep
their meaning.
-/

namespace Offside.Layout

open Source Token

/-- A token that reaches the layout rule. -/
structure Arrival where
  config : Config
  unit : Qualified
  /-- Where the token behind it starts; the end of input for the last one. -/
  next : Position
  nextKind? : Option Kind

/-- The stack while a token is inserted, and what was emitted so far. -/
structure Progress where
  stack : Stack
  emitted : List Qualified

def Arrival.position (arrival : Arrival) : Position := arrival.unit.start

namespace Progress

def top (progress : Progress) : Frame := progress.stack.top

def topDelimiter (progress : Progress) : Delimiter := progress.top.delimiter

def push (progress : Progress) (position : Position) (delimiter : Delimiter) : Progress :=
  { progress with
    stack := { progress.stack with inner := ⟨position, delimiter⟩ :: progress.stack.inner } }

/-- Takes the innermost frame off the stack; the root stays. -/
def pop (progress : Progress) : Progress :=
  { progress with stack := { progress.stack with inner := progress.stack.inner.tail } }

def popIf (progress : Progress) (delimiters : List Delimiter) : Progress :=
  if delimiters.contains progress.topDelimiter then progress.pop else progress

def emit (progress : Progress) (unit : Qualified) : Progress :=
  { progress with emitted := progress.emitted ++ [unit] }

/-- The frame that would be innermost if `count` frames were taken off. -/
def frameBelow (progress : Progress) (count : Nat) : Frame :=
  (progress.stack.inner.drop count).headD rootFrame

end Progress

namespace Arrival

/-- Number of frames that a rule closes for this token. -/
def reach (arrival : Arrival) (progress : Progress) (closing : Closing) : Nat :=
  (progress.stack.inner.takeWhile (closing.closes arrival.position.column)).length

/-- Closes the innermost frames, with an end token for every block among them. -/
def close (arrival : Arrival) (progress : Progress) (count : Nat) : Progress :=
  let ends := (progress.stack.inner.take count).filter Frame.isIndented
  { stack := { progress.stack with inner := progress.stack.inner.drop count }
    emitted := progress.emitted ++ ends.map fun _ => .point .layoutEnd arrival.position }

/-- Closes every frame that a rule closes for this token. -/
def collapse (arrival : Arrival) (progress : Progress) (closing : Closing) : Progress :=
  arrival.close progress (arrival.reach progress closing)

/-- Separates the token from the item before it when it starts a new line at the column of the
innermost frame. In a `case` the token then starts the binders of a branch. -/
def separate (arrival : Arrival) (progress : Progress) : Progress :=
  let top := progress.top
  if arrival.position.column == top.position.column &&
      arrival.position.line != top.position.line then
    let separator := Qualified.point .layoutSep arrival.position
    match top.delimiter with
    | .topDecl | .topDeclHead => progress.pop.emit separator
    | .ofBlock => (progress.emit separator).push arrival.position .caseBinders
    | delimiter => if delimiter.isIndented then progress.emit separator else progress
  else progress

def emitToken (arrival : Arrival) (progress : Progress) : Progress := progress.emit arrival.unit

/-- What happens around a token without a rule of its own. -/
def plain (arrival : Arrival) (progress : Progress) : Progress :=
  arrival.emitToken (arrival.separate (arrival.collapse progress .offside))

/-- A word that may be a record label, which is what it is when a label is due. -/
def label (arrival : Arrival) (progress : Progress) : Progress :=
  (arrival.plain progress).popIf [.property]

/-- A keyword: what it opens, unless it turns out to be a record label. -/
def keyword (arrival : Arrival) (progress : Progress) (opening : Progress → Progress) : Progress :=
  let progress := arrival.plain progress
  if progress.topDelimiter == .property then progress.pop else opening progress

/-- Opens a block at the next token if that stands right of the enclosing block. Where explicit
blocks are allowed, a brace in its place opens the block instead. -/
def startBlock (arrival : Arrival) (progress : Progress) (delimiter : Delimiter) : Progress :=
  if arrival.config.explicitBlocks && arrival.nextKind? == some .leftBrace then
    { progress with stack := { progress.stack with pendingBlock := true } }
  else
    let indents : Bool := match progress.stack.inner.find? Frame.isIndented with
      | some enclosing => enclosing.position.column < arrival.next.column
      | none => true
    if indents then
      (progress.push arrival.next delimiter).emit (.point .layoutStart arrival.next)
    else progress

/-- Whether the token stands at the column of the block that a module's declarations form. -/
def startsDeclaration (arrival : Arrival) (progress : Progress) : Bool :=
  match progress.stack.inner with
  | [frame] =>
    frame.delimiter == .whereBlock && frame.position.column == arrival.position.column
  | _ => false

/-- `data` and `class`: at the start of a declaration they mask what follows. -/
def declaration (arrival : Arrival) (progress : Progress) (mask : Delimiter) : Progress :=
  let progress := arrival.plain progress
  if arrival.startsDeclaration progress then progress.push arrival.position mask
  else progress.popIf [.property]

/-- `where` ends the head of a class, and otherwise every `do` block. -/
def insertWhere (arrival : Arrival) (progress : Progress) : Progress :=
  match progress.topDelimiter with
  | .topDeclHead => arrival.startBlock (arrival.emitToken progress.pop) .whereBlock
  | .property => arrival.emitToken progress.pop
  | _ => arrival.startBlock (arrival.emitToken (arrival.collapse progress .byWhere)) .whereBlock

/-- `in` ends its `let`, or an `ado` together with the `let` statement that is its last. -/
def insertIn (arrival : Arrival) (progress : Progress) : Progress :=
  let count := arrival.reach progress .byIn
  let top := progress.frameBelow count
  let below := progress.frameBelow (count + 1)
  if top.delimiter == .letStatement && below.delimiter == .adoBlock then
    arrival.emitToken (arrival.close progress (count + 2))
  else if top.isIndented then arrival.emitToken (arrival.close progress (count + 1))
  else arrival.label progress

/-- `let` opens bindings, as a statement when it starts a line of `do` or `ado`. -/
def insertLet (arrival : Arrival) (progress : Progress) : Progress :=
  arrival.keyword progress fun progress =>
    let top := progress.top
    let isStatement := (top.delimiter == .doBlock || top.delimiter == .adoBlock) &&
      top.position.column == arrival.position.column
    arrival.startBlock progress (if isStatement then .letStatement else .letBlock)

/-- `of` ends a `case` head; its block starts with the binders of a branch. -/
def insertOf (arrival : Arrival) (progress : Progress) : Progress :=
  let count := arrival.reach progress .offside
  if (progress.frameBelow count).delimiter == .caseHead then
    let progress :=
      arrival.startBlock (arrival.emitToken (arrival.close progress (count + 1))) .ofBlock
    if progress.stack.pendingBlock then progress else progress.push arrival.next .caseBinders
  else arrival.label (arrival.close progress count)

/-- `then` ends the head of its `if`. -/
def insertThen (arrival : Arrival) (progress : Progress) : Progress :=
  let count := arrival.reach progress .indented
  if (progress.frameBelow count).delimiter == .ifHead then
    (arrival.emitToken (arrival.close progress (count + 1))).push arrival.position .thenBranch
  else arrival.label progress

/-- `else` ends the branch of its `then`. Without one it may join the declarations of an instance
chain, which are not separated. -/
def insertElse (arrival : Arrival) (progress : Progress) : Progress :=
  let count := arrival.reach progress .indented
  if (progress.frameBelow count).delimiter == .thenBranch then
    arrival.emitToken (arrival.close progress (count + 1))
  else
    let progress := arrival.collapse progress .offside
    if arrival.startsDeclaration progress then arrival.emitToken progress
    else (arrival.emitToken (arrival.separate progress)).popIf [.property]

/-- An arrow ends the binders or the guard in front of it. -/
def insertArrow (arrival : Arrival) (progress : Progress) : Progress :=
  arrival.emitToken <|
    (arrival.collapse progress .byArrow).popIf [.caseBinders, .caseGuard, .lambdaBinders]

/-- An equals sign ends the guard in front of it. -/
def insertEquals (arrival : Arrival) (progress : Progress) : Progress :=
  let count := arrival.reach progress .byEquals
  if (progress.frameBelow count).delimiter == .declGuard then
    arrival.emitToken (arrival.close progress (count + 1))
  else arrival.plain progress

/-- The guard that a bar starts right inside a block. -/
def guardOf? : Delimiter → Option Delimiter
  | .ofBlock => some .caseGuard
  | .letBlock | .letStatement | .whereBlock => some .declGuard
  | _ => none

/-- A bar starts a guard in branches and bindings. -/
def insertPipe (arrival : Arrival) (progress : Progress) : Progress :=
  let count := arrival.reach progress .offsideEnd
  match guardOf? (progress.frameBelow count).delimiter with
  | some mask => arrival.emitToken ((arrival.close progress count).push arrival.position mask)
  | none => arrival.plain progress

/-- An operator continues the line before it, so it also closes blocks at its own column. -/
def insertOperator (arrival : Arrival) (progress : Progress) : Progress :=
  arrival.emitToken (arrival.separate (arrival.collapse progress .offsideEnd))

/-- The marks around an infix name: the second ends what the first opened. -/
def insertTick (arrival : Arrival) (progress : Progress) : Progress :=
  let count := arrival.reach progress .indented
  if (progress.frameBelow count).delimiter == .tick then
    arrival.emitToken (arrival.close progress (count + 1))
  else (arrival.insertOperator progress).push arrival.position .tick

/-- A comma closes every block; in a record it leads to a label. -/
def insertComma (arrival : Arrival) (progress : Progress) : Progress :=
  let progress := arrival.emitToken (arrival.collapse progress .indented)
  if progress.topDelimiter == .brace then progress.push arrival.position .property else progress

/-- A dot ends a `forall`, and otherwise leads to a label. -/
def insertDot (arrival : Arrival) (progress : Progress) : Progress :=
  let progress := arrival.plain progress
  if progress.topDelimiter == .forallHead then progress.pop
  else progress.push arrival.position .property

/-- A bracket that masks what follows. -/
def insertOpening (arrival : Arrival) (progress : Progress) (mask : Delimiter) : Progress :=
  (arrival.plain progress).push arrival.position mask

/-- A bracket that closes every block inside it. -/
def insertClosing (arrival : Arrival) (progress : Progress) (mask : Delimiter) : Progress :=
  arrival.emitToken ((arrival.collapse progress .indented).popIf [mask])

/-- An opening brace: the block that is pending, and otherwise a record, which starts with a
label. -/
def insertLeftBrace (arrival : Arrival) (progress : Progress) : Progress :=
  let progress := arrival.plain progress
  if progress.stack.pendingBlock then
    let stack := { progress.stack with pendingBlock := false }
    { progress with stack := stack }.push arrival.position .explicitBlock
  else (progress.push arrival.position .brace).push arrival.position .property

/-- A closing brace ends an explicit block, or a record and the label due in it. -/
def insertRightBrace (arrival : Arrival) (progress : Progress) : Progress :=
  let progress := arrival.collapse progress .indented
  arrival.emitToken <|
    if progress.topDelimiter == .explicitBlock then progress.pop
    else (progress.popIf [.property]).popIf [.brace]

/-- A semicolon separates the items of an explicit block. -/
def insertSemicolon (arrival : Arrival) (progress : Progress) : Progress :=
  let count := arrival.reach progress .indented
  if arrival.config.explicitBlocks &&
      (progress.frameBelow count).delimiter == .explicitBlock then
    arrival.emitToken (arrival.close progress count)
  else arrival.plain progress

/-- Whether a qualifier in front makes a token of this kind a plain name. -/
def isNameWhenQualified (kind : Kind) : Bool :=
  (kind.isKeyword && kind != .kwDo && kind != .kwAdo && kind != .kwForall) ||
    kind == .lowerName || kind == .boolean

/-- The rule for a token of a given kind without a qualifier that changes its meaning. -/
def insertKind (arrival : Arrival) (progress : Progress) : Kind → Progress
  | .kwData => arrival.declaration progress .topDecl
  | .kwClass => arrival.declaration progress .topDeclHead
  | .kwWhere => arrival.insertWhere progress
  | .kwIn => arrival.insertIn progress
  | .kwLet => arrival.insertLet progress
  | .kwDo => arrival.keyword progress fun progress => arrival.startBlock progress .doBlock
  | .kwAdo => arrival.keyword progress fun progress => arrival.startBlock progress .adoBlock
  | .kwCase => arrival.keyword progress fun progress => progress.push arrival.position .caseHead
  | .kwOf => arrival.insertOf progress
  | .kwIf => arrival.keyword progress fun progress => progress.push arrival.position .ifHead
  | .kwThen => arrival.insertThen progress
  | .kwElse => arrival.insertElse progress
  | .kwForall =>
    arrival.keyword progress fun progress => progress.push arrival.position .forallHead
  | .backslash => (arrival.plain progress).push arrival.position .lambdaBinders
  | .arrow => arrival.insertArrow progress
  | .equals => arrival.insertEquals progress
  | .pipe => arrival.insertPipe progress
  | .backtick => arrival.insertTick progress
  | .comma => arrival.insertComma progress
  | .dot => arrival.insertDot progress
  | .leftParen => arrival.insertOpening progress .paren
  | .leftBrace => arrival.insertLeftBrace progress
  | .leftBracket => arrival.insertOpening progress .square
  | .rightParen => arrival.insertClosing progress .paren
  | .rightBrace => arrival.insertRightBrace progress
  | .rightBracket => arrival.insertClosing progress .square
  | .semicolon => arrival.insertSemicolon progress
  | .operator => arrival.insertOperator progress
  | kind =>
    if kind.isKeyword || kind == .lowerName || kind == .boolean || kind == .string then
      arrival.label progress
    else arrival.plain progress

def insert (arrival : Arrival) (progress : Progress) : Progress :=
  match arrival.unit.coreKind? with
  | none => arrival.plain progress
  | some kind =>
    if arrival.unit.isQualified && isNameWhenQualified kind then arrival.plain progress
    else arrival.insertKind progress kind

end Arrival

end Offside.Layout
