/-! # JSON values

The values that reports are written as, and their two printed forms: compact on one line, and
spread out with two spaces for each level. Fields print in the order they are listed. Numbers are
counts and places, so they are natural.
-/

namespace Offside

inductive Json where
  | bool (value : Bool)
  | number (value : Nat)
  | string (value : String)
  | array (items : List Json)
  | object (fields : List (String × Json))

namespace Json

def hexQuad (value : Nat) : List Char :=
  let digits := Nat.toDigits 16 value
  List.replicate (4 - digits.length) '0' ++ digits

/-- One character inside quotes. Only quotes, backslashes and the first controls are escaped. -/
def escapeChar (char : Char) : List Char :=
  if char = '"' then ['\\', '"']
  else if char = '\\' then ['\\', '\\']
  else if char = '\x08' then ['\\', 'b']
  else if char = '\t' then ['\\', 't']
  else if char = '\n' then ['\\', 'n']
  else if char = '\x0c' then ['\\', 'f']
  else if char = '\r' then ['\\', 'r']
  else if char.toNat < 32 then ['\\', 'u'] ++ hexQuad char.toNat
  else [char]

def quote (text : String) : String :=
  String.ofList ('"' :: text.toList.flatMap escapeChar ++ ['"'])

mutual

/-- A value on one line, without spaces. -/
def compact : Json → String
  | bool value => if value then "true" else "false"
  | number value => toString value
  | string value => quote value
  | array items => "[" ++ compactItems items ++ "]"
  | object fields => "\x7b" ++ compactFields fields ++ "\x7d"

def compactItems : List Json → String
  | [] => ""
  | [last] => last.compact
  | item :: rest => item.compact ++ "," ++ compactItems rest

def compactFields : List (String × Json) → String
  | [] => ""
  | [(name, last)] => quote name ++ ":" ++ last.compact
  | (name, value) :: rest => quote name ++ ":" ++ value.compact ++ "," ++ compactFields rest

end

/-- A line break and the indentation of a level. -/
def lineBreak (level : Nat) : String := String.ofList ('\n' :: List.replicate (2 * level) ' ')

mutual

/-- A value spread out, its first line at a level. What is empty stays on one line. -/
def prettyAt (level : Nat) : Json → String
  | bool value => if value then "true" else "false"
  | number value => toString value
  | string value => quote value
  | array [] => "[]"
  | array (item :: rest) =>
    "[" ++ prettyItems (level + 1) (item :: rest) ++ lineBreak level ++ "]"
  | object [] => "\x7b\x7d"
  | object (field :: rest) =>
    "\x7b" ++ prettyFields (level + 1) (field :: rest) ++ lineBreak level ++ "\x7d"

def prettyItems (level : Nat) : List Json → String
  | [] => ""
  | [last] => lineBreak level ++ last.prettyAt level
  | item :: rest => lineBreak level ++ item.prettyAt level ++ "," ++ prettyItems level rest

def prettyFields (level : Nat) : List (String × Json) → String
  | [] => ""
  | [(name, last)] => lineBreak level ++ quote name ++ ": " ++ last.prettyAt level
  | (name, value) :: rest =>
    lineBreak level ++ quote name ++ ": " ++ value.prettyAt level ++ "," ++
      prettyFields level rest

end

def pretty (value : Json) : String := value.prettyAt 0

end Json

end Offside
