import Offside.CommandLine.Run

/-! # Writing as a command goes

The commands again, write by write. An action that fails leaves written what it wrote before, so
here it shows that files are read and parsed before anything is written. What a command comes to
is the same as when it is carried out at once.
-/

namespace Offside.CommandLine

open Source Diagnostic PureScript

inductive Stream where
  | out
  | err
deriving DecidableEq, Repr

/-- What was written to the two streams. -/
structure Streams where
  out : String
  err : String
deriving DecidableEq, Repr

def Streams.write (streams : Streams) (stream : Stream) (text : String) : Streams :=
  match stream with
  | .out => { streams with out := streams.out ++ text }
  | .err => { streams with err := streams.err ++ text }

/-- Actions that write and may fail. What they wrote before they failed stays. -/
abbrev Session := ExceptT Failure (StateM Streams)

namespace Session

/-- What an action comes to on streams, and what these hold then. -/
def on {α : Type} (action : Session α) (streams : Streams) : Except Failure α × Streams :=
  action.run.run streams

/-- Does what needs no streams. -/
def lift {α : Type} (result : Except Failure α) : Session α := MonadExcept.ofExcept result

def write (stream : Stream) (text : String) : Session Unit := modify (·.write stream text)

end Session

/-- The files read so far, and the messages about them. -/
structure Collected where
  /-- The files, in the order in which messages count them. -/
  sources : List File
  messages : List Message
  errors : Nat

namespace Collected

def empty : Collected := ⟨[], [], 0⟩

def emit (collected : Collected) (message : Message) : Collected where
  sources := collected.sources
  messages := collected.messages ++ [message]
  errors := if message.isError then collected.errors + 1 else collected.errors

def add (collected : Collected) (parsed : File × Module) : Collected :=
  (parsed.2.messages collected.sources.length).foldl emit
    { collected with sources := collected.sources ++ [parsed.1] }

end Collected

namespace Invocation

open Session

def writeMessages (invocation : Invocation) (sources : List File) (messages : List Message) :
    Session Unit :=
  forM messages fun message => write .err (message.render invocation.style sources)

def performTokens (invocation : Invocation) (files : Files) (name : String) (trivia : Bool) :
    Session Bool := do
  let source ← lift (readFile files name)
  let tokens := lex invocation.options.layout source
  let shown := if trivia then tokens else Token.significant tokens
  if invocation.json then
    write .out ((Json.array (shown.map (tokenToJson source))).pretty ++ "\n")
  else
    forM shown fun token => write .out (tokenLine source token)
  return true

def performParse (invocation : Invocation) (files : Files) (name : String) : Session Bool := do
  let (file, module) ← lift (invocation.parseFile files name)
  if invocation.json then
    write .out ((parseReport file module).pretty ++ "\n")
  else
    write .out (module.tree.outline file.text)
    invocation.writeMessages [file] (module.messages 0)
  return module.isClean

/-- Reads and parses files one by one, then writes what is wrong with them. -/
def performCheck (invocation : Invocation) (files : Files) (names : List String) :
    Session Bool := do
  let collected ← names.foldlM (fun collected name => do
    return collected.add (← lift (invocation.parseFile files name))) Collected.empty
  if invocation.json then
    write .out (toJsonLines collected.sources collected.messages)
  else
    invocation.writeMessages collected.sources collected.messages
    write .err (summary names.length collected.errors)
  return collected.errors == 0

/-- Carries out a command write by write. -/
def perform (invocation : Invocation) (files : Files) : Session Bool :=
  match invocation.command with
  | .tokens file trivia => invocation.performTokens files file trivia
  | .parse file _ => invocation.performParse files file
  | .check names => invocation.performCheck files names

end Invocation

end Offside.CommandLine
