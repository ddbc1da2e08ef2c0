import Offside.Text.CharClass

/-! # White space

The characters with the Unicode property White_Space. Layout columns are counted in characters of
any class; white space matters only to the scanner and to gaps in string literals.
-/

namespace Offside.Text

/-- The property White_Space. -/
def whiteSpace : CharClass := ⟨[
  0x9, 0xe, 0x20, 0x21, 0x85, 0x86, 0xa0, 0xa1, 0x1680, 0x1681, 0x2000, 0x200b, 0x2028, 0x202a,
  0x202f, 0x2030, 0x205f, 0x2060, 0x3000, 0x3001
]⟩

/-- Whether a character is white space, line breaks included. -/
def isBlank (char : Char) : Bool := whiteSpace.contains char

end Offside.Text
