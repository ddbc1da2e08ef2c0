import Offside.Text.Printable

/-! # Quoted text

A quoted text stands on one line and shows no character that could be mistaken for its
surroundings: quotes and backslashes are escaped, the common controls by a letter, and every
other character that does not print by its code point.
-/

namespace Offside.Text

/-- A code point as `\u` with its lower-case hexadecimal digits in braces. -/
def escapePoint (char : Char) : List Char :=
  ['\\', 'u', '\x7b'] ++ Nat.toDigits 16 char.toNat ++ ['\x7d']

/-- One character as a quoted text shows it. A single quote needs no escape. -/
def escapeChar (char : Char) : List Char :=
  if char = '"' then ['\\', '"']
  else if char = '\\' then ['\\', '\\']
  else if char = '\t' then ['\\', 't']
  else if char = '\r' then ['\\', 'r']
  else if char = '\n' then ['\\', 'n']
  else if char = '\x00' then ['\\', '0']
  else if isPrintable char then [char]
  else escapePoint char

/-- The text between quotes, each character escaped where it has to be. -/
def quoted (text : String) : String :=
  String.ofList ('"' :: text.toList.flatMap escapeChar ++ ['"'])

end Offside.Text
