import Std.Data.HashSet
import Offside.Grammar.Dispatch

/-! # Checked grammars

A grammar is fit to run when every rule that can be reached from its root has a body. Checking
walks over everything reachable: the parts of nodes, the bodies of rules, and the nodes that
dispatch may bring about for any token. Each node is visited once, however often it is met, and the
visits are counted.

The walk goes as deep as a path that enters no rule twice: parts are lighter than the node they
belong to, and so are the merged alternatives of a choice.
-/

namespace Offside.Grammar

structure Stats where
  /-- Distinct nodes, those that dispatch brings about included. -/
  nodes : Nat
  rules : Nat
  choices : Nat
  /-- Kinds of tokens that choices tell apart, summed over the choices. -/
  dispatchEntries : Nat
deriving DecidableEq, Repr

structure Walk where
  seen : Std.HashSet Node
  rules : List String
  choices : Nat
  dispatchEntries : Nat

def Walk.start : Walk := ⟨∅, [], 0, 0⟩

def Walk.stats (walk : Walk) : Stats :=
  ⟨walk.seen.size, walk.rules.length, walk.choices, walk.dispatchEntries⟩

/-- The nodes that dispatch may bring about for a choice, for tokens that some alternative is known
to start with and then for all others. -/
def allCandidates (grammar : Grammar) (choice : Stamp) (alternatives : List Node) : List Node :=
  let known := (grammar.knownFirst alternatives).toList.map some
  (known ++ [none]).flatMap (grammar.candidates choice alternatives)

/-- Visits nodes one after the other, as long as nothing is wrong. -/
def visitAll (visit : Node → Walk → Except Defect Walk) :
    List Node → Walk → Except Defect Walk
  | [], walk => .ok walk
  | node :: rest, walk => (visit node walk).bind (visitAll visit rest)

/-- Visits a node and everything below it, the last part first. The depth bounds how far below. -/
def visit (grammar : Grammar) : Nat → Node → Walk → Except Defect Walk
  | 0, _, walk => .ok walk
  | depth + 1, node, walk =>
    if walk.seen.contains node then .ok walk
    else
      let walk := { walk with seen := walk.seen.insert node }
      match node with
      | .ref _ rule =>
        match grammar.rules.body? rule with
        | none => .error (.undefined rule)
        | some body =>
          let rules := if walk.rules.contains rule then walk.rules else rule :: walk.rules
          grammar.visit depth body { walk with rules }
      | .choice stamp alternatives _ =>
        let walk := { walk with
          choices := walk.choices + 1
          dispatchEntries := walk.dispatchEntries + (grammar.knownFirst alternatives).size }
        visitAll (grammar.visit depth)
          (alternatives ++ grammar.allCandidates stamp alternatives).reverse walk
      | node => visitAll (grammar.visit depth) node.children.reverse walk

/-- Depth of the paths that enter no rule twice. -/
def depth (grammar : Grammar) (root : Node) : Nat :=
  let heaviest := (grammar.rules.bodies.map fun (_, body) => body.weight).foldl max root.weight
  (grammar.rules.bodies.length + 1) * (heaviest + 1)

/-- A grammar with a root from which every rule that can be reached has a body. -/
structure Compiled where
  grammar : Grammar
  root : Node
  stats : Stats

/-- Checks everything that can be reached from the root. -/
def compile (grammar : Grammar) (root : Node) : Except Defect Compiled :=
  match grammar.visit (grammar.depth root) root .start with
  | .ok walk => .ok ⟨grammar, root, walk.stats⟩
  | .error defect => .error defect

end Offside.Grammar
