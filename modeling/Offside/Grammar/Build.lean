import Offside.Grammar.Normal

/-! # Writing grammars

The vocabulary in which grammars are written. Every construction makes nodes of its own, numbered
in the order of making; a node that is to be shared is bound once and used with `pure`. Sequences
and choices come out in normal form.
-/

namespace Offside.Grammar

/-- A construction that makes nodes, with the number of nodes made so far. -/
abbrev Build := StateM Nat

namespace Build

/-- A stamp that no node has. -/
def fresh : Build Stamp := do
  let number ← get
  set (number + 1)
  pure (.made number)

def token (kind : Token.Kind) : Build Node := do pure (.token (← fresh) kind)

def text (kind : Token.Kind) (spelling : String) : Build Node := do
  pure (.text (← fresh) kind spelling)

def empty : Build Node := do pure (.empty (← fresh))

def rule (name : String) : Build Node := do pure (.ref (← fresh) name)

def seq (items : List (Build Node)) : Build Node := do
  let items ← items.mapM id
  pure (.ofSequence (← fresh) items)

def choice (alternatives : List (Build Node)) : Build Node := do
  let alternatives ← alternatives.mapM id
  pure (.ofAlternatives (← fresh) alternatives)

def heal (node : Build Node) : Build Node := do
  let node ← node
  pure (node.healed (← fresh))

def opt (node : Build Node) : Build Node := choice [node, empty]

def many1 (node : Build Node) : Build Node := do
  let node ← node
  pure (.oneOrMore (← fresh) node)

def many (node : Build Node) : Build Node := opt (many1 node)

/-- One or more items with a delimiter between them. -/
def sepBy1 (item delimiter : Build Node) : Build Node := do
  let item ← item
  seq [pure item, many (heal (seq [delimiter, pure item]))]

def sepBy (item delimiter : Build Node) : Build Node := opt (sepBy1 item delimiter)

/-- Succeeds where the node would, and takes nothing. -/
def ahead (node : Build Node) : Build Node := do
  let node ← node
  pure (.ahead (← fresh) node)

def node (kind : Syntax.Kind) (content : Build Node) : Build Node := do
  let content ← content
  pure (.symbolic (← fresh) kind content)

/-- A chain that leans to the left: each `next` wraps everything before it. -/
def fold (kind : Syntax.Kind) (start next : Build Node) : Build Node := do
  let start ← start
  let next ← next
  pure (.fold (← fresh) kind start next)

/-- A start, wrapped together with `rest` when that follows. -/
def cont (kind : Syntax.Kind) (start rest : Build Node) : Build Node := do
  let start ← start
  let rest ← rest
  pure (.cont (← fresh) kind start rest)

/-- The node, or a message at its place. -/
def relax (node : Build Node) (message : String) : Build Node := do
  let node ← node
  pure (.relax (← fresh) node message)

/-- The node, or a message over the tokens up to where `recovery` matches, outside of blocks opened
on the way. -/
def relaxTo (node recovery : Build Node) (message : String) : Build Node := do
  let node ← node
  let recovery ← recovery
  pure (.relaxTo (← fresh) node recovery message)

end Build

end Offside.Grammar
