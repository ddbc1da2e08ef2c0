import Offside.CommandLine.Arguments
import Offside.Diagnostic.Render
import Offside.Diagnostic.Report
import Offside.PureScript.Diagnosis
import Offside.Syntax.Outline

/-! # Carrying out commands

What a command prints, as a function of the files that can be read. A file that cannot be read
fails the whole command, and then nothing is printed at all. Syntax errors are no failures: they
are printed, and the run counts as not clean.
-/

namespace Offside.CommandLine

open Source Diagnostic PureScript

inductive Failure where
  | unreadable (name : String)
  | defect (cause : Grammar.Defect)
deriving DecidableEq, Repr

def Failure.message : Failure → String
  | .unreadable name => s!"failed to read {name}"
  | .defect cause => cause.message

/-- What a command prints, and whether its input was free of errors. -/
structure Printed where
  /-- Whether there were no syntax errors. -/
  clean : Bool
  out : String
  err : String
deriving DecidableEq, Repr

/-- The files that can be read: from names to texts. -/
abbrev Files := String → Option String

def readFile (files : Files) (name : String) : Except Failure String :=
  match files name with
  | some text => .ok text
  | none => .error (.unreadable name)

namespace Invocation

def options (invocation : Invocation) : Options where
  layout := ⟨invocation.explicitBlocks⟩
  naive := match invocation.command with
    | .parse _ naive => naive
    | _ => false

def style (invocation : Invocation) : Style := ⟨!invocation.noColor, true⟩

def parseFile (invocation : Invocation) (files : Files) (name : String) :
    Except Failure (File × Module) := do
  let text ← readFile files name
  match parseModule invocation.options text with
  | .ok module => pure (⟨name, text⟩, module)
  | .error cause => throw (.defect cause)

end Invocation

def positionToJson (position : Position) : Json :=
  .object [("line", .number position.line), ("column", .number position.column),
    ("offset", .number position.offset)]

def tokenToJson (source : String) (token : Token.Placed) : Json :=
  .object [("kind", .string token.kind.name), ("start", positionToJson token.start),
    ("end", positionToJson token.stop), ("text", .string (token.text source))]

def tokenLine (source : String) (token : Token.Placed) : String :=
  s!"{token.start.display}-{token.stop.display} {token.kind.name} " ++
    Text.quoted (token.text source) ++ "\n"

def runTokens (invocation : Invocation) (files : Files) (name : String) (trivia : Bool) :
    Except Failure Printed := do
  let source ← readFile files name
  let tokens := lex invocation.options.layout source
  let shown := if trivia then tokens else Token.significant tokens
  let out :=
    if invocation.json then (Json.array (shown.map (tokenToJson source))).pretty ++ "\n"
    else String.join (shown.map (tokenLine source))
  pure ⟨true, out, ""⟩

/-- How the parse of a file came out, as an object. -/
def parseReport (file : File) (module : Module) : Json :=
  .object [("file", .string file.name),
    ("success", .bool module.outcome.success), ("position", .number module.outcome.position),
    ("expected", .array (module.outcome.expected.map .string)),
    ("nodes", .number module.tree.size),
    ("diagnostics", .array ((module.messages 0).map (Message.toJson [file])))]

/-- Prints the syntax tree of a file, or how its parse came out. -/
def runParse (invocation : Invocation) (files : Files) (name : String) :
    Except Failure Printed := do
  let (file, module) ← invocation.parseFile files name
  if invocation.json then pure ⟨module.isClean, (parseReport file module).pretty ++ "\n", ""⟩
  else
    pure ⟨module.isClean, module.tree.outline file.text,
      render invocation.style [file] (module.messages 0)⟩

/-- The last line of a check. -/
def summary (files errors : Nat) : String := s!"checked {files} file(s): {errors} error(s)\n"

def runCheck (invocation : Invocation) (files : Files) (names : List String) :
    Except Failure Printed := do
  let parsed ← names.mapM (invocation.parseFile files)
  let sources := parsed.map Prod.fst
  let messages := (parsed.mapIdx fun file (_, module) => module.messages file).flatten
  let errors := errorCount messages
  if invocation.json then pure ⟨errors == 0, toJsonLines sources messages, ""⟩
  else
    pure ⟨errors == 0, "",
      render invocation.style sources messages ++ summary names.length errors⟩

def run (invocation : Invocation) (files : Files) : Except Failure Printed :=
  match invocation.command with
  | .tokens file trivia => runTokens invocation files file trivia
  | .parse file _ => runParse invocation files file
  | .check names => runCheck invocation files names

end Offside.CommandLine
