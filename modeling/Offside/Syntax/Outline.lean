import Offside.Syntax.Tree
import Offside.Text.Quoted

/-! # Trees in print

An outline has one line for every node and token, in order, indented by depth. Deep trees would
drift away, so the indentation stops at a limit and the depth is written out beyond it. Texts are
quoted and therefore never break a line.
-/

namespace Offside.Syntax

/-- Depth up to which an outline is indented. -/
def indentLimit : Nat := 64

def outlineIndent (depth : Nat) : String :=
  let indent := String.ofList (List.replicate (2 * min depth indentLimit) ' ')
  if indentLimit < depth then s!"{indent}{depth}> " else indent

/-- An entry without its indentation. A node without tokens has no span. -/
def Entry.outline (entry : Entry) (source : String) : String :=
  match entry.content, entry.range with
  | .node kind _, some range => s!"{kind.name}@{range.start.offset}..{range.stop.offset}"
  | .node kind _, none => kind.name
  | .token token, _ =>
    s!"{token.kind.name}@{token.start.offset}..{token.stop.offset} " ++
      Text.quoted (token.text source)

def Tree.outline (tree : Tree) (source : String) : String :=
  String.join <| (tree.entries.toList.zip tree.depths.toList).map fun (entry, depth) =>
    outlineIndent depth ++ entry.outline source ++ "\n"

end Offside.Syntax
