import Offside.Grammar.Rules
import Offside.Parse.State

/-! # The language of a grammar

Which words a node stands for, apart from how they are found: no order of alternatives, no
prediction, and no going back. What a grammar accepts is to be measured by this.

A node that tolerates errors stands for what its child stands for, and one that only looks ahead
for no words at all.
-/

namespace Offside.Grammar

open Parse (Word)

/-- The words can be derived from a node. -/
inductive Derives (rules : Rules) : Node → List Word → Prop
  /-- A token of the kind, whatever it reads. -/
  | token {stamp : Stamp} {kind : Token.Kind} (text : String) :
    Derives rules (.token stamp kind) [⟨kind, text⟩]
  /-- A token of the kind that reads what it should. -/
  | text {stamp : Stamp} {kind : Token.Kind} {spelling : String} :
    Derives rules (.text stamp kind spelling) [⟨kind, spelling⟩]
  | empty {stamp : Stamp} : Derives rules (.empty stamp) []
  | none {stamp : Stamp} : Derives rules (.seq stamp []) []
  | item {stamp : Stamp} {item : Node} {rest : List Node} {words more : List Word}
    (first : Derives rules item words) (behind : Derives rules (.seq stamp rest) more) :
    Derives rules (.seq stamp (item :: rest)) (words ++ more)
  | alternative {stamp : Stamp} {alternatives : List Node} {isOptional : Bool} {node : Node}
    {words : List Word} (member : node ∈ alternatives) (derives : Derives rules node words) :
    Derives rules (.choice stamp alternatives isOptional) words
  | omitted {stamp : Stamp} {alternatives : List Node} :
    Derives rules (.choice stamp alternatives true) []
  | once {stamp : Stamp} {child : Node} {words : List Word} (first : Derives rules child words) :
    Derives rules (.oneOrMore stamp child) words
  | again {stamp : Stamp} {child : Node} {words more : List Word}
    (before : Derives rules (.oneOrMore stamp child) words) (next : Derives rules child more) :
    Derives rules (.oneOrMore stamp child) (words ++ more)
  | heal {stamp : Stamp} {child : Node} {words : List Word} (derives : Derives rules child words) :
    Derives rules (.heal stamp child) words
  | ahead {stamp : Stamp} {child : Node} : Derives rules (.ahead stamp child) []
  | symbolic {stamp : Stamp} {kind : Syntax.Kind} {child : Node} {words : List Word}
    (derives : Derives rules child words) : Derives rules (.symbolic stamp kind child) words
  | chain {stamp : Stamp} {kind : Syntax.Kind} {start next : Node} {words : List Word}
    (derives : Derives rules start words) : Derives rules (.fold stamp kind start next) words
  | link {stamp : Stamp} {kind : Syntax.Kind} {start next : Node} {words more : List Word}
    (before : Derives rules (.fold stamp kind start next) words)
    (link : Derives rules next more) :
    Derives rules (.fold stamp kind start next) (words ++ more)
  | alone {stamp : Stamp} {kind : Syntax.Kind} {start rest : Node} {words : List Word}
    (derives : Derives rules start words) : Derives rules (.cont stamp kind start rest) words
  | followed {stamp : Stamp} {kind : Syntax.Kind} {start rest : Node} {words more : List Word}
    (first : Derives rules start words) (behind : Derives rules rest more) :
    Derives rules (.cont stamp kind start rest) (words ++ more)
  | ref {stamp : Stamp} {rule : String} {body : Node} {words : List Word}
    (lookup : rules.body? rule = some body) (derives : Derives rules body words) :
    Derives rules (.ref stamp rule) words
  /-- What may be missing, when it is there. -/
  | relax {stamp : Stamp} {child : Node} {message : String} {words : List Word}
    (derives : Derives rules child words) : Derives rules (.relax stamp child message) words
  /-- What may be skipped, when it is there. -/
  | relaxTo {stamp : Stamp} {child recovery : Node} {message : String} {words : List Word}
    (derives : Derives rules child words) :
    Derives rules (.relaxTo stamp child recovery message) words

/-- The nodes that take part in what a node does: its parts, and the bodies of the rules it
names. -/
inductive Reaches (rules : Rules) (root : Node) : Node → Prop
  | root : Reaches rules root root
  | part {node child : Node} (reached : Reaches rules root node) (member : child ∈ node.children) :
    Reaches rules root child
  | body {stamp : Stamp} {rule : String} {body : Node}
    (reached : Reaches rules root (.ref stamp rule)) (lookup : rules.body? rule = some body) :
    Reaches rules root body

namespace Reaches

variable {rules : Rules} {root middle node : Node}

theorem trans (first : Reaches rules root middle) (second : Reaches rules middle node) :
    Reaches rules root node := by
  induction second with
  | root => exact first
  | part _ member ih => exact .part ih member
  | body _ lookup ih => exact .body ih lookup

/-- Without rules, what takes part in a node is in the node. -/
theorem mem_of_closed {inside : List Node} (member : root ∈ inside)
    (closed : ∀ node ∈ inside, ∀ child ∈ node.children, child ∈ inside)
    (reached : Reaches .empty root node) : node ∈ inside := by
  induction reached with
  | root => exact member
  | part _ below ih => exact closed _ ih _ below
  | body _ lookup => cases lookup

/-- What takes part in a node that is no name is the node, or takes part in a part of it. -/
theorem eq_or_below (reached : Reaches rules root node)
    (noName : ∀ stamp rule, root ≠ .ref stamp rule) :
    node = root ∨ ∃ child ∈ root.children, Reaches rules child node := by
  induction reached with
  | root => exact .inl rfl
  | part _ member ih =>
    obtain rfl | ⟨child, inside, below⟩ := ih
    · exact .inr ⟨_, member, .root⟩
    · exact .inr ⟨child, inside, .part below member⟩
  | body _ lookup ih =>
    obtain same | ⟨child, inside, below⟩ := ih
    · exact absurd same.symm (noName _ _)
    · exact .inr ⟨child, inside, .body below lookup⟩

end Reaches

/-- Every rule that takes part in a node has a body. -/
def Defined (grammar : Grammar) (root : Node) : Prop :=
  ∀ stamp rule, Reaches grammar.rules root (.ref stamp rule) → (grammar.rules.body? rule).isSome

/-! ## Rules that are named -/

mutual

/-- Whether a node names only rules that are listed. -/
def Node.namesOnly (listed : List String) : Node → Bool
  | .token .. | .text .. | .empty _ => true
  | .seq _ nodes | .choice _ nodes _ => Node.allNameOnly listed nodes
  | .oneOrMore _ child | .heal _ child | .ahead _ child | .symbolic _ _ child
  | .relax _ child _ => child.namesOnly listed
  | .fold _ _ first second | .cont _ _ first second | .relaxTo _ first second _ =>
    first.namesOnly listed && second.namesOnly listed
  | .ref _ rule => listed.contains rule

/-- Whether several nodes do. -/
def Node.allNameOnly (listed : List String) : List Node → Bool
  | [] => true
  | node :: rest => node.namesOnly listed && Node.allNameOnly listed rest

end

/-- Whether every rule named in a node or in the body of a rule is defined. -/
def Rules.areDefined (rules : Rules) (root : Node) : Bool :=
  let names := rules.bodies.map Prod.fst
  root.namesOnly names && rules.bodies.all fun (_, body) => body.namesOnly names

section

variable {rules : Rules} {listed : List String} {root node : Node} {rule : String}

theorem namesOnly_of_mem {nodes : List Node} (checked : Node.allNameOnly listed nodes = true) :
    ∀ node ∈ nodes, node.namesOnly listed = true := by
  induction nodes with
  | nil => simp
  | cons first rest ih =>
    obtain ⟨own, others⟩ := Bool.and_eq_true_iff.mp checked
    exact List.forall_mem_cons.mpr ⟨own, ih others⟩

theorem namesOnly_child (checked : node.namesOnly listed = true) :
    ∀ child ∈ node.children, child.namesOnly listed = true := by
  cases node with
  | token | text | empty | ref => simp [Node.children]
  | seq | choice => exact namesOnly_of_mem checked
  | oneOrMore | heal | ahead | symbolic | relax =>
    intro child member
    obtain rfl := List.mem_singleton.mp member
    exact checked
  | fold | cont | relaxTo =>
    simpa [Node.children] using Bool.and_eq_true_iff.mp checked

theorem Rules.mem_bodies {body : Node} (lookup : rules.body? rule = some body) :
    (rule, body) ∈ rules.bodies := by
  obtain ⟨before, after, split, -⟩ := List.lookup_eq_some_iff.mp lookup
  rw [split]
  exact List.mem_append_right _ (List.mem_cons_self ..)

/-- What takes part in a node names defined rules only, if the node and all bodies do. -/
theorem Rules.isSome_body_of_areDefined {stamp : Stamp} (defined : rules.areDefined root = true)
    (reached : Reaches rules root (.ref stamp rule)) : (rules.body? rule).isSome := by
  obtain ⟨inRoot, inBodies⟩ := Bool.and_eq_true_iff.mp defined
  have named : ∀ {node}, Reaches rules root node →
      node.namesOnly (rules.bodies.map Prod.fst) = true := by
    intro node reached
    induction reached with
    | root => exact inRoot
    | part _ member ih => exact namesOnly_child ih _ member
    | body _ lookup => exact List.all_eq_true.mp inBodies _ (Rules.mem_bodies lookup)
  have listed : rule ∈ rules.bodies.map Prod.fst := by
    simpa [Node.namesOnly] using named reached
  obtain ⟨⟨name, body⟩, member, rfl⟩ := List.mem_map.mp listed
  rw [← Option.ne_none_iff_isSome]
  intro missing
  have other := List.lookup_eq_none_iff.mp missing _ member
  exact absurd rfl (bne_iff_ne.mp other)

theorem defined_ofRules (defined : rules.areDefined root = true) : (ofRules rules).Defined root :=
  fun _ _ reached => Rules.isSome_body_of_areDefined defined reached

end

end Offside.Grammar
