import Offside.Grammar.Compiled

/-! # Checking a grammar with a worklist

A grammar can be checked without descending: a stack holds the nodes that are still to be visited,
and a node that is taken from it and was not seen yet puts what is below it on top. The candidates
of a choice come from a table with an entry for every kind of token that some alternative is known
to start with, and nothing is known about the order in which the table is read.
-/

namespace Offside.Grammar

open Token (Kind)

/-- An order for the entries of every dispatch table. -/
structure TableOrder (grammar : Grammar) where
  /-- The kinds with an entry in the table of a choice. -/
  kinds : Stamp → List Node → List Kind
  /-- These are the kinds that some alternative is known to start with. -/
  perm : ∀ stamp alternatives,
    (kinds stamp alternatives).Perm (grammar.knownFirst alternatives).toList

def TableOrder.declared (grammar : Grammar) : TableOrder grammar where
  kinds _ alternatives := (grammar.knownFirst alternatives).toList
  perm _ _ := .refl _

section

variable {grammar : Grammar} (order : TableOrder grammar)

/-- What is below a node that is seen for the first time, and the walk with the node counted. -/
def TableOrder.enter (node : Node) (walk : Walk) : Except Defect (List Node × Walk) :=
  match node with
  | .ref _ rule =>
    match grammar.rules.body? rule with
    | none => .error (.undefined rule)
    | some body =>
      let rules := if walk.rules.contains rule then walk.rules else rule :: walk.rules
      .ok ([body], { walk with rules })
  | .choice stamp alternatives _ =>
    let kinds := order.kinds stamp alternatives
    let candidates := (kinds.map some ++ [none]).flatMap (grammar.candidates stamp alternatives)
    .ok (alternatives ++ candidates, { walk with
      choices := walk.choices + 1
      dispatchEntries := walk.dispatchEntries + kinds.length })
  | node => .ok (node.children, walk)

/-- Visits the nodes on a stack, and those that get there, until the stack is empty or something is
wrong. There is no answer if the turns are used up. -/
def TableOrder.worklist : Nat → List Node → Walk → Option (Except Defect Walk)
  | 0, _, _ => none
  | _ + 1, [], walk => some (.ok walk)
  | turns + 1, node :: stack, walk =>
    if walk.seen.contains node then worklist turns stack walk
    else
      match order.enter node { walk with seen := walk.seen.insert node } with
      | .error defect => some (.error defect)
      | .ok (below, walk) => worklist turns (below.reverse ++ stack) walk

end

end Offside.Grammar
