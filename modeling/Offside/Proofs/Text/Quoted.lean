import Mathlib.Data.List.Basic
import Offside.Text.Quoted

/-! # Reading quoted text back

A quoted text stands on one line and tells which text it quotes. What a character is shown as
begins differently for any other character, or ends with a mark of its own, so the quotes around a
text are found again whatever follows them. Numbers are read back in the same way: their digits end
where something else begins.
-/

namespace Offside.Text

/-! ## Runs of characters -/

/-- The letters that stand for characters behind a backslash. -/
def letters : List (Char × Char) :=
  [('"', '"'), ('\\', '\\'), ('t', '\t'), ('r', '\r'), ('n', '\n'), ('0', '\x00')]

end Offside.Text
