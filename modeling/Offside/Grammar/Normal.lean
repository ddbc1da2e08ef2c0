import Offside.Grammar.Node

/-! # Normal forms of sequences and choices

Nodes are brought into normal form as they are made. A sequence holds no sequence and no empty
node, and stands for at least two items. A choice holds no choice, and nothing behind an
alternative that always matches: that alternative makes the choice optional. A node that undoes
its own failures is not healed again.
-/

namespace Offside.Grammar.Node

/-- Whether a failure of the node never leaves anything behind. -/
def undoesFailure : Node → Bool
  | token .. | text .. | empty _ | heal .. | choice .. | ahead .. | relax .. | relaxTo .. => true
  | _ => false

def healed (stamp : Stamp) (node : Node) : Node :=
  if node.undoesFailure then node else heal stamp node

def unhealed : Node → Node
  | heal _ child => child
  | node => node

/-- What an item contributes to a sequence. -/
def sequenceItems : Node → List Node
  | seq _ items => items
  | empty _ => []
  | node => [node]

def ofSequence (stamp : Stamp) (items : List Node) : Node :=
  match items.flatMap sequenceItems with
  | [] => empty stamp
  | [only] => only
  | flat => seq stamp flat

/-- The alternatives with nested choices spliced in, up to the first that always matches, and
whether there is one. -/
def flattenAlternatives : List Node → List Node × Bool
  | [] => ([], false)
  | alternative :: rest =>
    match alternative.unhealed with
    | choice _ nested true => (nested, true)
    | choice _ nested false =>
      let (flat, isOptional) := flattenAlternatives rest
      (nested ++ flat, isOptional)
    | empty _ => ([], true)
    | _ =>
      let (flat, isOptional) := flattenAlternatives rest
      (alternative :: flat, isOptional)

def ofAlternatives (stamp : Stamp) (alternatives : List Node) : Node :=
  match flattenAlternatives alternatives with
  | ([], true) => empty stamp
  | ([only], false) => only.healed stamp
  | (flat, isOptional) => choice stamp flat isOptional

end Offside.Grammar.Node
