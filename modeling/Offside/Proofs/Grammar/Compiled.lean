import Offside.Grammar.Worklist
import Offside.Proofs.Grammar.Weight
import Offside.Proofs.Grammar.Language

/-! # A check comes to an end

Whatever lies on the stack below a node, a worklist gets down to it again once it has worked off the
node and all that it put on top. How deep this goes is bounded: what is put on the stack for a node
is lighter than the node, and a rule is entered only while its body is not seen yet, so one less is
left of the bodies that may be entered. The depth that a visit is given is never used up either, and
with tables read in the order in which kinds are declared, working off a node comes to the same as
visiting it.
-/

namespace Offside.Grammar

section

variable {grammar : Grammar} {walk middle after : Walk} {node : Node} {depth heaviest : Nat}

theorem mem_insert {seen : Std.HashSet Node} {other : Node} :
    other ∈ seen.insert node ↔ other = node ∨ other ∈ seen := by
  rw [Std.HashSet.mem_insert, beq_iff_eq, eq_comm]

/-! ## The depth of the walk -/

/-- Whether the body of a rule was not seen. -/
def Walk.isFresh (walk : Walk) (definition : String × Node) : Bool :=
  !walk.seen.contains definition.2

theorem Walk.isFresh_iff {definition : String × Node} :
    walk.isFresh definition = true ↔ definition.2 ∉ walk.seen := by
  rw [isFresh, Bool.not_eq_true', Std.HashSet.mem_iff_contains, Bool.not_eq_true]

/-- How many rules have a body that was not seen. -/
def unseen (grammar : Grammar) (walk : Walk) : Nat := grammar.rules.bodies.countP walk.isFresh

section

variable (seen : ∀ node ∈ walk.seen, node ∈ after.seen)

include seen

private theorem isFresh_of_isFresh (definition : String × Node)
    (fresh : after.isFresh definition = true) : walk.isFresh definition = true :=
  Walk.isFresh_iff.mpr fun early => Walk.isFresh_iff.mp fresh (seen _ early)

theorem unseen_le : grammar.unseen after ≤ grammar.unseen walk :=
  List.countP_mono_left fun definition _ => isFresh_of_isFresh seen definition

/-- Seeing the body of a rule leaves fewer of them. -/
theorem unseen_lt {rule : String} (defined : (rule, node) ∈ grammar.rules.bodies)
    (fresh : node ∉ walk.seen) (marked : node ∈ after.seen) :
    grammar.unseen after < grammar.unseen walk := by
  refine countP_lt_countP (fun definition _ => isFresh_of_isFresh seen definition) defined ?_ ?_
  · simp [Walk.isFresh, marked]
  · exact Walk.isFresh_iff.mpr fresh

end

/-- A node is within the depth of a visit: the depth is enough to enter all rules whose bodies are
left once the node is marked, and to get to the bottom of the node. -/
def InDepth (grammar : Grammar) (heaviest : Nat) (walk : Walk) (depth : Nat) (node : Node) : Prop :=
  node.weight ≤ heaviest ∧ ∀ marked : Walk, marked.seen = walk.seen.insert node →
    grammar.unseen marked * (heaviest + 1) + node.weight < depth

theorem unseen_insert_le (marked : after.seen = walk.seen.insert node) :
    grammar.unseen after ≤ grammar.unseen walk := by
  refine unseen_le fun other member => ?_
  rw [marked]
  exact mem_insert.mpr (.inr member)

namespace InDepth

/-- The root of a grammar is within the depth that its check is given. -/
theorem root (grammar : Grammar) (root : Node) :
    grammar.InDepth (grammar.rules.heaviest root) .start (grammar.depth root) root := by
  refine ⟨Rules.weight_le_heaviest .., fun marked _ => ?_⟩
  have few : grammar.unseen marked ≤ grammar.rules.bodies.length := List.countP_le_length
  have scaled := Nat.mul_le_mul_right (grammar.rules.heaviest root + 1) few
  have light := Rules.weight_le_heaviest grammar.rules root
  change _ < (grammar.rules.bodies.length + 1) * (grammar.rules.heaviest root + 1)
  rw [Nat.succ_mul]
  omega

/-- What is lighter than a node is within the depth below it, whenever it is visited there. -/
theorem below {child : Node} (inDepth : grammar.InDepth heaviest walk (depth + 1) node)
    (lighter : child.weight < node.weight) {marked : Walk}
    (isMarked : marked.seen = walk.seen.insert node)
    (seen : ∀ other ∈ marked.seen, other ∈ middle.seen) :
    grammar.InDepth heaviest middle depth child := by
  obtain ⟨light, enough⟩ := inDepth
  refine ⟨by omega, fun inner isInner => ?_⟩
  have left := enough marked isMarked
  have fewer : grammar.unseen inner ≤ grammar.unseen marked :=
    (unseen_insert_le isInner).trans (unseen_le seen)
  have scaled := Nat.mul_le_mul_right (heaviest + 1) fewer
  omega

/-- So is the body of a rule below its name, as long as it was not seen. -/
theorem body {stamp : Stamp} {rule : String} {body : Node}
    (inDepth : grammar.InDepth heaviest walk (depth + 1) (.ref stamp rule))
    (lookup : grammar.rules.body? rule = some body) (light : body.weight ≤ heaviest)
    (isMarked : middle.seen = walk.seen.insert (.ref stamp rule)) (fresh : body ∉ middle.seen) :
    grammar.InDepth heaviest middle depth body := by
  refine ⟨light, fun inner isInner => ?_⟩
  have left := inDepth.2 middle isMarked
  have fewer : grammar.unseen inner < grammar.unseen middle := by
    refine unseen_lt (fun other member => ?_) (Rules.mem_bodies lookup) fresh ?_
    · exact isInner ▸ mem_insert.mpr (.inr member)
    · exact isInner ▸ mem_insert.mpr (.inl rfl)
  have scaled := Nat.mul_le_mul_right (heaviest + 1) (Nat.succ_le_of_lt fewer)
  rw [Nat.succ_mul] at scaled
  omega

end InDepth

/-- What is visited below a choice is lighter than the choice. -/
theorem weight_lt_of_visited {stamp : Stamp} {alternatives : List Node} {isOptional : Bool}
    {nexts : List (Option Token.Kind)}
    (visited : child ∈ alternatives ++ nexts.flatMap (grammar.candidates stamp alternatives)) :
    child.weight < (Node.choice stamp alternatives isOptional).weight := by
  rcases List.mem_append.mp visited with member | member
  · exact Node.weight_lt_of_mem_children member
  · obtain ⟨next?, -, candidate⟩ := List.mem_flatMap.mp member
    have light := weight_le_of_mem_candidates candidate
    rw [Node.weight_choice]
    omega

end

/-! ## The worklist -/

namespace TableOrder

variable {grammar : Grammar}

/-- Nodes on top of a stack are worked off with an outcome, whatever lies below them. -/
def Clears (order : TableOrder grammar) (nodes : List Node) (walk : Walk)
    (outcome : Except Defect Walk) : Prop :=
  ∃ turns, ∀ more stack, order.worklist (more + turns) (nodes ++ stack) walk =
    match outcome with
    | .ok after => order.worklist more stack after
    | .error defect => some (.error defect)

/-- Nodes on top of a stack are worked off, with nothing unseen again, and as by a visit if tables
are read in the order of declaration. -/
def WorksOff (order : TableOrder grammar) (nodes : List Node) (walk : Walk)
    (visited : Except Defect Walk) : Prop :=
  ∃ outcome, order.Clears nodes walk outcome ∧
    (∀ after, outcome = .ok after → ∀ other ∈ walk.seen, other ∈ after.seen) ∧
    (order = declared grammar → visited = outcome)

variable {order : TableOrder grammar} {node : Node} {nodes rest below : List Node}
  {walk middle marked : Walk} {outcome visited : Except Defect Walk} {defect : Defect}

namespace Clears

theorem nil (order : TableOrder grammar) (walk : Walk) : order.Clears [] walk (.ok walk) :=
  ⟨0, fun _ _ => rfl⟩

theorem cons (first : order.Clears [node] walk (.ok middle))
    (others : order.Clears rest middle outcome) : order.Clears (node :: rest) walk outcome := by
  obtain ⟨turns, own⟩ := first
  obtain ⟨later, behind⟩ := others
  refine ⟨later + turns, fun more stack => ?_⟩
  rw [← Nat.add_assoc]
  exact (own (more + later) (rest ++ stack)).trans (behind more stack)

theorem cons_error (first : order.Clears [node] walk (.error defect)) (rest : List Node) :
    order.Clears (node :: rest) walk (.error defect) := by
  obtain ⟨turns, own⟩ := first
  exact ⟨turns, fun more stack => own more (rest ++ stack)⟩

/-- A node that was seen is dropped. -/
theorem seen (order : TableOrder grammar) (there : node ∈ walk.seen) :
    order.Clears [node] walk (.ok walk) := by
  refine ⟨1, fun more stack => ?_⟩
  have contained : walk.seen.contains node = true := Std.HashSet.mem_iff_contains.mp there
  simp [worklist, contained]

/-- A node that was not seen makes place for what is below it. -/
theorem enter (fresh : node ∉ walk.seen)
    (entered : order.enter node { walk with seen := walk.seen.insert node } = .ok (below, marked))
    (others : order.Clears below.reverse marked outcome) : order.Clears [node] walk outcome := by
  obtain ⟨turns, behind⟩ := others
  refine ⟨turns + 1, fun more stack => ?_⟩
  have new : walk.seen.contains node = false := by simpa using fresh
  have goOn := behind more stack
  rw [← Nat.add_assoc, List.singleton_append, worklist, new]
  simpa [entered] using goOn

theorem enter_error (fresh : node ∉ walk.seen)
    (entered : order.enter node { walk with seen := walk.seen.insert node } = .error defect) :
    order.Clears [node] walk (.error defect) := by
  refine ⟨1, fun more stack => ?_⟩
  have new : walk.seen.contains node = false := by simpa using fresh
  rw [List.singleton_append, worklist, new]
  simp [entered]

end Clears

namespace WorksOff

theorem seen (order : TableOrder grammar) (there : node ∈ walk.seen) :
    order.WorksOff [node] walk (.ok walk) := by
  refine ⟨.ok walk, .seen order there, ?_, fun _ => rfl⟩
  rintro _ ⟨⟩ _ member
  exact member

theorem error (cleared : order.Clears nodes walk (.error defect))
    (same : order = declared grammar → visited = .error defect) :
    order.WorksOff nodes walk visited := by
  refine ⟨.error defect, cleared, ?_, same⟩
  rintro _ ⟨⟩

/-- Nodes one after the other, each of which is worked off whatever was seen before. -/
theorem all {visit : Node → Walk → Except Defect Walk}
    (each : ∀ node ∈ nodes, ∀ middle : Walk, (∀ other ∈ walk.seen, other ∈ middle.seen) →
      order.WorksOff [node] middle (visit node middle)) :
    order.WorksOff nodes walk (visitAll visit nodes walk) := by
  suffices ∀ start : Walk, (∀ other ∈ walk.seen, other ∈ start.seen) →
      order.WorksOff nodes start (visitAll visit nodes start) from this walk fun _ member => member
  induction nodes with
  | nil =>
    intro start _
    refine ⟨.ok start, .nil order start, ?_, fun _ => rfl⟩
    rintro _ ⟨⟩ _ member
    exact member
  | cons node rest ih =>
    intro start onward
    obtain ⟨own, others⟩ := List.forall_mem_cons.mp each
    obtain ⟨first, cleared, kept, same⟩ := own start onward
    cases first with
    | error defect =>
      refine .error (cleared.cons_error rest) fun isDeclared => ?_
      rw [visitAll, same isDeclared]
      rfl
    | ok middle =>
      have seen := kept middle rfl
      obtain ⟨last, clearedRest, keptRest, sameRest⟩ :=
        ih others middle fun other member => seen other (onward other member)
      refine ⟨last, cleared.cons clearedRest, fun after ended other member => ?_,
        fun isDeclared => ?_⟩
      · exact keptRest after ended other (seen other member)
      · rw [visitAll, same isDeclared]
        exact sameRest isDeclared

theorem congr {other : Except Defect Walk} (worked : order.WorksOff nodes walk other)
    (same : order = declared grammar → visited = other) : order.WorksOff nodes walk visited := by
  obtain ⟨outcome, cleared, kept, asVisited⟩ := worked
  exact ⟨outcome, cleared, kept, fun isDeclared => (same isDeclared).trans (asVisited isDeclared)⟩

/-- A node that was not seen, once what is below it is worked off. -/
theorem enter (fresh : node ∉ walk.seen)
    (entered : order.enter node { walk with seen := walk.seen.insert node } = .ok (below, marked))
    (isMarked : marked.seen = walk.seen.insert node)
    (others : order.WorksOff below.reverse marked visited) :
    order.WorksOff [node] walk visited := by
  obtain ⟨outcome, cleared, kept, same⟩ := others
  refine ⟨outcome, cleared.enter fresh entered, fun after ended other member => ?_, same⟩
  exact kept after ended other (isMarked ▸ mem_insert.mpr (.inr member))

end WorksOff

/-- A node within the depth of a visit is worked off. -/
theorem worksOff {heaviest depth : Nat}
    (heavy : ∀ rule body, grammar.rules.body? rule = some body → body.weight ≤ heaviest)
    (inDepth : node ∉ walk.seen → grammar.InDepth heaviest walk depth node) :
    order.WorksOff [node] walk (grammar.visit depth node walk) := by
  induction depth generalizing node walk with
  | zero =>
    have there : node ∈ walk.seen := by_contra fun fresh =>
      Nat.not_lt_zero _ ((inDepth fresh).2 ⟨walk.seen.insert node, [], 0, 0⟩ rfl)
    exact .seen order there
  | succ depth ih =>
    by_cases there : node ∈ walk.seen
    · have contained : walk.seen.contains node = true := Std.HashSet.mem_iff_contains.mp there
      rw [visit, if_pos contained]
      exact .seen order there
    replace inDepth := inDepth there
    have new : ¬walk.seen.contains node = true := by simpa using there
    -- Whatever is put on the stack for the node, in whatever order, is lighter than the node.
    have below : ∀ (nodes : List Node) (marked : Walk), marked.seen = walk.seen.insert node →
        (∀ child ∈ nodes, child.weight < node.weight) →
        order.WorksOff nodes.reverse marked
          (visitAll (grammar.visit depth) nodes.reverse marked) := by
      intro nodes marked isMarked lighter
      refine .all fun child member middle seen => ih fun _ => ?_
      exact inDepth.below (lighter child (List.mem_reverse.mp member)) isMarked seen
    rw [visit, if_neg new]
    cases node with
    | ref stamp rule =>
      dsimp only
      cases lookup : grammar.rules.body? rule with
      | none =>
        have entered : order.enter (.ref stamp rule)
            { walk with seen := walk.seen.insert (.ref stamp rule) } =
              .error (.undefined rule) := by
          simp only [TableOrder.enter, lookup]
        exact .error (.enter_error there entered) fun _ => rfl
      | some body =>
        refine .enter there (by simp only [TableOrder.enter, lookup]; rfl) rfl ?_
        exact ih fun fresh => inDepth.body lookup (heavy rule body lookup) rfl fresh
    | choice stamp alternatives isOptional =>
      have entries := (order.perm stamp alternatives).length_eq
      refine .enter there rfl rfl ((below _ _ rfl fun child => weight_lt_of_visited).congr ?_)
      intro isDeclared
      subst isDeclared
      rfl
    | _ =>
      exact .enter there rfl rfl
        (below _ _ rfl fun child member => Node.weight_lt_of_mem_children member)

/-- Checking a grammar comes to an end in whatever order tables are read, and as a visit does if
that is the order of declaration. -/
theorem exists_answer (order : TableOrder grammar) (root : Node) :
    ∃ turns answer, order.worklist turns [root] .start = some answer ∧
      (order = declared grammar → grammar.visit (grammar.depth root) root .start = answer) := by
  have heavy : ∀ rule body, grammar.rules.body? rule = some body →
      body.weight ≤ grammar.rules.heaviest root :=
    fun rule body lookup => Rules.weight_body_le_heaviest root (Rules.mem_bodies lookup)
  obtain ⟨outcome, ⟨turns, cleared⟩, -, same⟩ :=
    order.worksOff heavy fun _ => InDepth.root grammar root
  have ended := cleared 1 []
  refine ⟨1 + turns, outcome, ended.trans ?_, same⟩
  cases outcome <;> rfl

end TableOrder

end Offside.Grammar
