/-! # Command line arguments

Three commands, `tokens`, `parse` and `check`, with flags of their own and flags that every command
takes. The latter may stand in front of the command as well as behind it. A flag may be given once
on each side. Two dashes end the flags: everything behind them is a file.

Arguments that fit no command, and requests for help, are not distinguished here.
-/

namespace Offside.CommandLine

inductive Flag where
  | json
  | explicitBlocks
  | verbose
  | noColor
  | trivia
  | naive
deriving DecidableEq, Repr

def globalFlags : List Flag := [.json, .explicitBlocks, .verbose, .noColor]

/-- The long spelling of a flag, without its dashes. -/
def Flag.name : Flag → String
  | json => "json"
  | explicitBlocks => "explicit-blocks"
  | verbose => "verbose"
  | noColor => "no-color"
  | trivia => "trivia"
  | naive => "naive"

/-- The letter of a flag that has a short spelling. -/
def Flag.letter? : Flag → Option Char
  | verbose => some 'v'
  | _ => none

inductive Command where
  | tokens (file : String) (trivia : Bool)
  | parse (file : String) (naive : Bool)
  | check (files : List String)
deriving DecidableEq, Repr

/-- A command with the flags that every command takes. -/
structure Invocation where
  command : Command
  json : Bool
  explicitBlocks : Bool
  verbose : Bool
  noColor : Bool
deriving DecidableEq, Repr

def Command.files : Command → List String
  | tokens file _ | parse file _ => [file]
  | check files => files

/-- The flags that an argument spells, if it does: one behind two dashes, or the letters behind
one. A single dash is no flag. -/
def flagsOf? (known : List Flag) (argument : List Char) : Option (List Flag) :=
  match argument with
  | '-' :: '-' :: name => do pure [← known.find? fun flag => flag.name.toList == name]
  | '-' :: letters => letters.mapM fun letter => known.find? fun flag => flag.letter? == some letter
  | _ => none

/-- Adds flags to those given, none of them twice. -/
def addFlags? (given : List Flag) : List Flag → Option (List Flag)
  | [] => some given
  | flag :: rest => if given.contains flag then none else addFlags? (given ++ [flag]) rest

def looksLikeFlag (argument : List Char) : Bool := argument.head? == some '-' && argument != ['-']

/-- The flags and files behind a command. A file has a name. -/
def flagsAndFiles? (known given : List Flag) (files : List String) :
    List String → Option (List Flag × List String)
  | [] => some (given, files)
  | argument :: rest =>
    if argument = "--" then
      let files := files ++ rest
      if files.contains "" then none else some (given, files)
    else if looksLikeFlag argument.toList then
      match (flagsOf? known argument.toList).bind (addFlags? given) with
      | some given => flagsAndFiles? known given files rest
      | none => none
    else if argument.isEmpty then none
    else flagsAndFiles? known given (files ++ [argument]) rest

def ownFlags : String → List Flag
  | "tokens" => [.trivia]
  | "parse" => [.naive]
  | _ => []

def commandOf? (name : String) (flags : List Flag) (files : List String) : Option Command :=
  match name, files with
  | "tokens", [file] => some (.tokens file (flags.contains .trivia))
  | "parse", [file] => some (.parse file (flags.contains .naive))
  | "check", file :: rest => some (.check (file :: rest))
  | _, _ => none

/-- The invocation that arguments ask for, behind the flags already read. -/
def invocationFrom? (given : List Flag) : List String → Option Invocation
  | [] => none
  | argument :: rest =>
    if looksLikeFlag argument.toList then
      match (flagsOf? globalFlags argument.toList).bind (addFlags? given) with
      | some given => invocationFrom? given rest
      | none => none
    else do
      let (flags, files) ← flagsAndFiles? (globalFlags ++ ownFlags argument) [] [] rest
      let command ← commandOf? argument flags files
      let isGiven (flag : Flag) : Bool := given.contains flag || flags.contains flag
      pure ⟨command, isGiven .json, isGiven .explicitBlocks, isGiven .verbose, isGiven .noColor⟩

/-- The invocation that arguments ask for, if they make sense. -/
def invocation? (arguments : List String) : Option Invocation := invocationFrom? [] arguments

end Offside.CommandLine
