import Offside.CommandLine.Run

/-! # The program

Reads the files that a command names, and prints what the command comes to. Everything is decided
elsewhere; this module only talks to the world.
-/

namespace Offside

def readText? (name : String) : IO (Option String) := do
  try pure (some (← IO.FS.readFile name)) catch _ => pure none

def usage : String :=
  "usage: [--json] [--explicit-blocks] [--verbose] [--no-color] COMMAND\n" ++
    "  tokens FILE [--trivia]\n  parse FILE [--naive]\n  check FILE...\n"

end Offside

open Offside in
/-- Runs the command that the arguments name: 0 if the input has no errors, 1 if it has some or
cannot be read, 2 if the arguments make no sense. -/
def main (arguments : List String) : IO UInt32 := do
  match CommandLine.invocation? arguments with
  | none =>
    (← IO.getStderr).putStr usage
    return 2
  | some invocation =>
    let texts ← invocation.command.files.mapM fun name => do pure (name, ← readText? name)
    match CommandLine.run invocation fun name => (texts.lookup name).join with
    | .error failure =>
      (← IO.getStderr).putStr s!"Error: {failure.message}\n"
      return 1
    | .ok printed =>
      (← IO.getStdout).putStr printed.out
      (← IO.getStderr).putStr printed.err
      return if printed.clean then 0 else 1
