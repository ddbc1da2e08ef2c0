import Offside.Grammar.Node
import Offside.Token.KindSet

/-! # Rules and first sets

The rules of a grammar give bodies to names. Before a grammar runs it is known, for every node,
with which kinds of tokens the node can start, or else that nothing is known: because the node may
match without a token, or because its first step leads back to itself.

First sets of rules are found by rounds. Nothing is known before the first round, and every round
looks once through each body. What depends on `n` rules one behind the other is known after `n + 1`
rounds, so as many rounds as there are rules find everything that is ever found.
-/

namespace Offside

namespace Grammar

open Token (KindSet)

inductive Defect where
  | alreadyDefined (rule : String)
  | undefined (rule : String)
deriving DecidableEq, Repr

def Defect.message : Defect → String
  | alreadyDefined rule => s!"rule `{rule}` is defined twice"
  | undefined rule => s!"rule `{rule}` is referenced but never defined"

/-- The rules of a grammar, in order of definition. -/
structure Rules where
  bodies : List (String × Node)

namespace Rules

def empty : Rules := ⟨[]⟩

def body? (rules : Rules) (name : String) : Option Node := rules.bodies.lookup name

/-- Gives a rule its body, once. -/
def define (rules : Rules) (name : String) (body : Node) : Except Defect Rules :=
  match rules.body? name with
  | some _ => .error (.alreadyDefined name)
  | none => .ok ⟨rules.bodies ++ [(name, body)]⟩

end Rules

/-- What is known about the first tokens of rules. A rule that is not listed is not known. -/
abbrev FirstSets := List (String × Option KindSet)

def FirstSets.of (known : FirstSets) (rule : String) : Option KindSet := (known.lookup rule).join

mutual

/-- The kinds of tokens that a node can start with, by what is known about rules. -/
def Node.first (known : FirstSets) : Node → Option KindSet
  | .token _ kind | .text _ kind _ => some (.single kind)
  | .empty _ | .relax .. | .relaxTo .. => none
  | .seq _ [] => none
  | .seq _ (item :: _) => item.first known
  | .choice _ alternatives isOptional =>
    if isOptional then none else Node.firstOfAll known alternatives
  | .oneOrMore _ child | .heal _ child | .ahead _ child | .symbolic _ _ child => child.first known
  | .fold _ _ start _ | .cont _ _ start _ => start.first known
  | .ref _ rule => known.of rule

/-- The kinds of tokens that some of the nodes can start with, if that is known for all. -/
def Node.firstOfAll (known : FirstSets) : List Node → Option KindSet
  | [] => some .empty
  | node :: rest => do (← node.first known).union (← Node.firstOfAll known rest)

end

namespace Rules

/-- What one more look through every body finds. -/
def lookThrough (rules : Rules) (known : FirstSets) : FirstSets :=
  rules.bodies.map fun (name, body) => (name, body.first known)

def firstSetsAfter (rules : Rules) : Nat → FirstSets
  | 0 => []
  | rounds + 1 => rules.lookThrough (rules.firstSetsAfter rounds)

/-- What can be known about the first tokens of the rules. -/
def firstSets (rules : Rules) : FirstSets := rules.firstSetsAfter rules.bodies.length

end Rules

end Grammar

/-- Rules together with their first sets. -/
structure Grammar where
  rules : Grammar.Rules
  firstSets : Grammar.FirstSets
  firstSets_eq : firstSets = rules.firstSets

namespace Grammar

def ofRules (rules : Rules) : Grammar := ⟨rules, rules.firstSets, rfl⟩

/-- The kinds of tokens that a node can start with, if that is known. -/
def prediction (grammar : Grammar) (node : Node) : Option Token.KindSet :=
  node.first grammar.firstSets

end Grammar

end Offside
