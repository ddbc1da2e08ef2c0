import Std.Data.HashMap
import Offside.Grammar.Compiled

/-! # Predictions found one at a time

The first sets of a grammar come from rounds through all its rules. A prediction can also be looked
for when it is asked for, by searching down from the node and writing down what is found on the way,
once and for all. A search that meets a node it is just looking into gives up on it, without writing
that down, and a choice is given up with its first alternative that is. So what is written down for
the nodes between depends on where the search began, or so it seems.
-/

namespace Offside.Grammar

open Token (KindSet)

abbrev Found := Std.HashMap Node (Option KindSet)

/-- Joins the predictions of some nodes, up to the first that has none. -/
def searchAll (search : Node → Found → Option (Option KindSet × Found)) :
    List Node → KindSet → Found → Option (Option KindSet × Found)
  | [], kinds, found => some (some kinds, found)
  | node :: rest, kinds, found =>
    match search node found with
    | some (some own, found) => searchAll search rest (kinds.union own) found
    | answer => answer

/-- Looks into a node, given a way to search the nodes below it. -/
def lookInto (grammar : Grammar) (below : Node → Found → Option (Option KindSet × Found))
    (found : Found) : Node → Option (Option KindSet × Found)
  | .token _ kind | .text _ kind _ => some (some (.single kind), found)
  | .empty _ | .relax .. | .relaxTo .. | .seq _ [] => some (none, found)
  | .seq _ (item :: _) => below item found
  | .choice _ alternatives isOptional =>
    if isOptional then some (none, found) else searchAll below alternatives .empty found
  | .oneOrMore _ child | .heal _ child | .ahead _ child | .symbolic _ _ child
  | .fold _ _ child _ | .cont _ _ child _ => below child found
  | .ref _ rule =>
    match grammar.rules.body? rule with
    | none => some (none, found)
    | some body => below body found

/-- Searches a node below those in `visiting`. The depth bounds how far down, and there is no answer
if it is used up. -/
def search (grammar : Grammar) : Nat → List Node → Node → Found → Option (Option KindSet × Found)
  | 0, _, _, _ => none
  | depth + 1, visiting, node, found =>
    match found[node]? with
    | some prediction => some (prediction, found)
    | none =>
      if node ∈ visiting then some (none, found)
      else
        (grammar.lookInto (grammar.search depth (node :: visiting)) found node).map
          fun (prediction, found) =>
            let (earlier?, found) := found.getThenInsertIfNew? node prediction
            (earlier?.getD prediction, found)

/-- The prediction of a node, and all that is found by then. -/
def ask (grammar : Grammar) (found : Found) (node : Node) : Option (Option KindSet × Found) :=
  grammar.search (grammar.depth node) [] node found

def askAll (grammar : Grammar) : List Node → Found → Option Found
  | [], found => some found
  | node :: rest, found => (grammar.ask found node).bind fun answer => grammar.askAll rest answer.2

end Offside.Grammar
