import Offside.Grammar.Node
import Offside.Text.Quoted

/-! # Grammar nodes in print

A node prints as its constructor with its parts in parentheses. A rule prints as its name, so
recursive grammars print as finite text. Identity does not show.
-/

namespace Offside.Grammar.Node

mutual

def display : Node → String
  | token _ kind => s!"Token({kind.name})"
  | text _ kind spelling => s!"Text({kind.name}, {Text.quoted spelling})"
  | empty _ => "Empty"
  | seq _ items => s!"Seq([{displayOf items}])"
  | choice _ alternatives isOptional =>
    "Choice(Choice \x7b alternatives: [" ++ displayOf alternatives ++
      s!"], optional: {isOptional} \x7d)"
  | oneOrMore _ child => s!"OneOrMore({child.display})"
  | heal _ child => s!"Heal({child.display})"
  | ahead _ child => s!"Ahead({child.display})"
  | symbolic _ kind child => s!"Symbolic({kind.name}, {child.display})"
  | fold _ kind start next => s!"Fold({kind.name}, {start.display}, {next.display})"
  | cont _ kind start rest => s!"Cont({kind.name}, {start.display}, {rest.display})"
  | ref _ rule => s!"Ref(Rule({rule}))"
  | relax _ child message => s!"Relax({child.display}, {Text.quoted message})"
  | relaxTo _ child recovery message =>
    s!"RelaxTo({child.display}, {recovery.display}, {Text.quoted message})"

def displayOf : List Node → String
  | [] => ""
  | [last] => last.display
  | node :: rest => s!"{node.display}, {displayOf rest}"

end

end Offside.Grammar.Node
