import Offside.Grammar.Node

/-! # Equality of nodes

Two nodes are equal when they have the same stamp and are made of equal parts. For the nodes of one
grammar the stamps alone decide, and a comparison of different nodes ends there; the parts are
compared as well so that equality is decided for any two nodes, wherever they come from. As the
first step of an alternative, two tokens, texts or rules are interchangeable without being equal.
-/

namespace Offside.Grammar.Node

mutual

/-- Whether two nodes have the same stamp and equal parts. -/
def isEqual : Node → Node → Bool
  | token stamp kind, token stamp' kind' => stamp == stamp' && kind == kind'
  | text stamp kind spelling, text stamp' kind' spelling' =>
    stamp == stamp' && kind == kind' && spelling == spelling'
  | empty stamp, empty stamp' => stamp == stamp'
  | seq stamp items, seq stamp' items' => stamp == stamp' && areEqual items items'
  | choice stamp alternatives isOptional, choice stamp' alternatives' isOptional' =>
    stamp == stamp' && isOptional == isOptional' && areEqual alternatives alternatives'
  | oneOrMore stamp child, oneOrMore stamp' child' => stamp == stamp' && isEqual child child'
  | heal stamp child, heal stamp' child' => stamp == stamp' && isEqual child child'
  | ahead stamp child, ahead stamp' child' => stamp == stamp' && isEqual child child'
  | symbolic stamp kind child, symbolic stamp' kind' child' =>
    stamp == stamp' && kind == kind' && isEqual child child'
  | fold stamp kind start next, fold stamp' kind' start' next' =>
    stamp == stamp' && kind == kind' && isEqual start start' && isEqual next next'
  | cont stamp kind start rest, cont stamp' kind' start' rest' =>
    stamp == stamp' && kind == kind' && isEqual start start' && isEqual rest rest'
  | ref stamp rule, ref stamp' rule' => stamp == stamp' && rule == rule'
  | relax stamp child message, relax stamp' child' message' =>
    stamp == stamp' && message == message' && isEqual child child'
  | relaxTo stamp child recovery message, relaxTo stamp' child' recovery' message' =>
    stamp == stamp' && message == message' && isEqual child child' && isEqual recovery recovery'
  | _, _ => false

def areEqual : List Node → List Node → Bool
  | [], [] => true
  | first :: rest, first' :: rest' => isEqual first first' && areEqual rest rest'
  | _, _ => false

end

mutual

/-- Nodes found equal are the same. -/
theorem eq_of_isEqual : ∀ {first second : Node}, isEqual first second = true → first = second
  | token .., second, same => by cases second <;> simp_all [isEqual]
  | text .., second, same => by cases second <;> simp_all [isEqual]
  | empty .., second, same => by cases second <;> simp_all [isEqual]
  | seq .., second, same => by
    cases second <;> simp_all [isEqual]
    exact eq_of_areEqual same.2
  | choice .., second, same => by
    cases second <;> simp_all [isEqual]
    exact eq_of_areEqual same.2
  | oneOrMore .., second, same => by
    cases second <;> simp_all [isEqual]
    exact eq_of_isEqual same.2
  | heal .., second, same => by
    cases second <;> simp_all [isEqual]
    exact eq_of_isEqual same.2
  | ahead .., second, same => by
    cases second <;> simp_all [isEqual]
    exact eq_of_isEqual same.2
  | symbolic .., second, same => by
    cases second <;> simp_all [isEqual]
    exact eq_of_isEqual same.2
  | fold .., second, same => by
    cases second <;> simp_all [isEqual]
    exact ⟨eq_of_isEqual same.1.2, eq_of_isEqual same.2⟩
  | cont .., second, same => by
    cases second <;> simp_all [isEqual]
    exact ⟨eq_of_isEqual same.1.2, eq_of_isEqual same.2⟩
  | ref .., second, same => by cases second <;> simp_all [isEqual]
  | relax .., second, same => by
    cases second <;> simp_all [isEqual]
    exact eq_of_isEqual same.2
  | relaxTo .., second, same => by
    cases second <;> simp_all [isEqual]
    exact ⟨eq_of_isEqual same.1.2, eq_of_isEqual same.2⟩

theorem eq_of_areEqual :
    ∀ {first second : List Node}, areEqual first second = true → first = second
  | [], second, same => by cases second <;> simp_all [areEqual]
  | node :: rest, second, same => by
    cases second <;> simp_all [areEqual]
    exact ⟨eq_of_isEqual same.1, eq_of_areEqual same.2⟩

end

mutual

theorem isEqual_self : ∀ node : Node, isEqual node node = true
  | token .. | text .. | empty _ | ref .. => by simp [isEqual]
  | seq _ items => by simp [isEqual, areEqual_self items]
  | choice _ alternatives _ => by simp [isEqual, areEqual_self alternatives]
  | oneOrMore _ child | heal _ child | ahead _ child | symbolic _ _ child | relax _ child _ => by
    simp [isEqual, isEqual_self child]
  | fold _ _ start next => by simp [isEqual, isEqual_self start, isEqual_self next]
  | cont _ _ start rest => by simp [isEqual, isEqual_self start, isEqual_self rest]
  | relaxTo _ child recovery _ => by simp [isEqual, isEqual_self child, isEqual_self recovery]

theorem areEqual_self : ∀ nodes : List Node, areEqual nodes nodes = true
  | [] => rfl
  | node :: rest => by simp [areEqual, isEqual_self node, areEqual_self rest]

end

instance : DecidableEq Node := fun first second =>
  if same : isEqual first second = true then isTrue (eq_of_isEqual same)
  else isFalse fun h => same (h ▸ isEqual_self first)

instance : Hashable Node := ⟨fun node => hash node.stamp⟩

/-- Whether two nodes are interchangeable as the first step of an alternative: the same node, or
the same token, text or rule. -/
def isSame (first second : Node) : Bool :=
  first == second ||
    match first, second with
    | token _ kind, token _ kind' => kind == kind'
    | text _ kind spelling, text _ kind' spelling' => kind == kind' && spelling == spelling'
    | ref _ rule, ref _ rule' => rule == rule'
    | _, _ => false

end Offside.Grammar.Node
