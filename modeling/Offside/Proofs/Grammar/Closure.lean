import Mathlib.Data.List.Nodup
import Offside.Proofs.Grammar.Closed
import Offside.Proofs.Grammar.Compiled
import Offside.Proofs.Grammar.FirstSets

/-! # A check visits everything once

What is involved in checking a node is more than what takes part in running it in order: the nodes
that dispatch brings about for a choice are involved as well, with choices of their own among them,
for which dispatch brings about more. Yet all of it names the same rules, since merging alternatives
takes nodes apart and brings no names about.

In whatever order its tables are read, a worklist has visited exactly what is involved when it comes
to an end, and has counted each node once. So the order makes no difference to the counts.
-/

namespace Offside.Grammar

open Token (Kind KindSet)

/-- The nodes that are involved in checking a node: its parts, the bodies of the rules it names, and
what dispatch brings about. -/
inductive Involves (grammar : Grammar) (root : Node) : Node → Prop
  | root : Involves grammar root root
  | part {node child : Node} (involved : Involves grammar root node)
    (member : child ∈ node.children) : Involves grammar root child
  | body {stamp : Stamp} {rule : String} {body : Node}
    (involved : Involves grammar root (.ref stamp rule))
    (lookup : grammar.rules.body? rule = some body) : Involves grammar root body
  | candidate {stamp : Stamp} {alternatives : List Node} {isOptional : Bool} {candidate : Node}
    (involved : Involves grammar root (.choice stamp alternatives isOptional))
    (member : candidate ∈ grammar.allCandidates stamp alternatives) :
    Involves grammar root candidate

/-- Whether a node is a choice. -/
def Node.isChoice : Node → Bool
  | .choice .. => true
  | _ => false

/-- Number of kinds that some alternative of a choice is known to start with. -/
def entries (grammar : Grammar) : Node → Nat
  | .choice _ alternatives _ =>
    Kind.all.countP fun kind =>
      alternatives.any fun alternative => (grammar.prediction alternative).any (·.contains kind)
  | _ => 0

/-- The counts of everything that is involved in a node, each counted once. -/
def CountsInvolved (grammar : Grammar) (root : Node) (stats : Stats) : Prop :=
  ∃ (nodes : List Node) (rules : List String), nodes.Nodup ∧ rules.Nodup ∧
    (∀ node, node ∈ nodes ↔ grammar.Involves root node) ∧
    (∀ rule, rule ∈ rules ↔ ∃ stamp, Reaches grammar.rules root (.ref stamp rule)) ∧
    stats = ⟨nodes.length, rules.length, nodes.countP Node.isChoice,
      (nodes.map grammar.entries).foldr (· + ·) 0⟩

section

variable {grammar : Grammar} {root node next : Node} {stamp : Stamp} {rule : String}

/-! ## Names that are involved -/

theorem involves_of_reaches (reached : Reaches grammar.rules root node) :
    grammar.Involves root node := by
  induction reached with
  | root => exact .root
  | part _ member ih => exact .part ih member
  | body _ lookup ih => exact .body ih lookup

/-- What is involved in a node names nothing that does not take part in it. -/
theorem namesAre_of_involves (involved : grammar.Involves root node) :
    NamesAre grammar.rules (fun stamp rule => Reaches grammar.rules root (.ref stamp rule))
      node := by
  induction involved with
  | root => exact fun _ _ reached => reached
  | part _ member ih => exact ih.of_reaches (.part .root member)
  | body _ lookup ih => exact ih.of_reaches (.body .root lookup)
  | candidate _ member ih =>
    obtain ⟨next?, -, candidate⟩ := List.mem_flatMap.mp member
    have closed := NamesAre.closed grammar.rules
      fun stamp rule => Reaches grammar.rules root (.ref stamp rule)
    exact closed.candidates grammar _ (closed.alternatives ih) next? _ candidate

theorem involves_ref_iff :
    grammar.Involves root (.ref stamp rule) ↔ Reaches grammar.rules root (.ref stamp rule) :=
  ⟨fun involved => namesAre_of_involves involved stamp rule .root, involves_of_reaches⟩

/-! ## What is put on the stack -/

/-- What is right below a node in a check. -/
def opens (grammar : Grammar) : Node → List Node
  | .ref _ rule => (grammar.rules.body? rule).toList
  | .choice stamp alternatives _ => alternatives ++ grammar.allCandidates stamp alternatives
  | node => node.children

theorem Involves.of_opens (involved : grammar.Involves root node)
    (member : next ∈ grammar.opens node) : grammar.Involves root next := by
  cases node with
  | ref stamp rule => exact .body involved (Option.mem_toList.mp member)
  | choice stamp alternatives isOptional =>
    rcases List.mem_append.mp member with inside | candidate
    · exact .part involved inside
    · exact .candidate involved candidate
  | _ => exact .part involved member

theorem mem_opens_of_mem_children (member : next ∈ node.children) : next ∈ grammar.opens node := by
  cases node with
  | ref => cases member
  | choice => exact List.mem_append_left _ member
  | _ => exact member

/-- What becomes of a walk that enters a node. -/
structure Entered (grammar : Grammar) (node : Node) (walk : Walk) (below : List Node)
    (after : Walk) : Prop where
  seen : after.seen = walk.seen
  /-- What is right below the node is put on the stack. -/
  below (next : Node) : next ∈ below ↔ next ∈ grammar.opens node
  choices : after.choices = walk.choices + if node.isChoice then 1 else 0
  dispatchEntries : after.dispatchEntries = walk.dispatchEntries + grammar.entries node
  nodup : walk.rules.Nodup → after.rules.Nodup
  /-- The rule that the node names is listed. -/
  rules (rule : String) :
    rule ∈ after.rules ↔ (∃ stamp, node = .ref stamp rule) ∨ rule ∈ walk.rules
  defined (stamp : Stamp) (rule : String) :
    node = .ref stamp rule → (grammar.rules.body? rule).isSome = true

variable {order : TableOrder grammar} {walk after : Walk} {below stack visited : List Node}
  {defect : Defect}

theorem length_kinds (order : TableOrder grammar) (stamp : Stamp) (alternatives : List Node)
    (isOptional : Bool) :
    (order.kinds stamp alternatives).length =
      grammar.entries (.choice stamp alternatives isOptional) := by
  rw [(order.perm stamp alternatives).length_eq, KindSet.toList, ← List.countP_eq_length_filter]
  exact List.countP_congr fun kind _ => by rw [contains_knownFirst_eq]

theorem entered_of_enter (entered : order.enter node walk = .ok (below, after)) :
    grammar.Entered node walk below after := by
  cases node with
  | ref stamp rule =>
    rw [TableOrder.enter] at entered
    cases lookup : grammar.rules.body? rule with
    | none =>
      rw [lookup] at entered
      cases entered
    | some body =>
      rw [lookup] at entered
      cases entered
      have listed : (if walk.rules.contains rule then walk.rules else rule :: walk.rules) =
          walk.rules.insert rule := rfl
      refine ⟨rfl, by simp [opens, lookup], by simp [Node.isChoice], by simp [entries],
        fun nodup => ?_, fun other => ?_, ?_⟩
      · exact listed ▸ nodup.insert
      · dsimp only
        rw [listed, List.mem_insert_iff]
        simp [eq_comm]
      · rintro _ _ ⟨⟩
        rw [lookup]
        rfl
  | choice stamp alternatives isOptional =>
    cases entered
    refine ⟨rfl, fun next => ?_, rfl, ?_, id, by simp, by simp⟩
    · simp [opens, allCandidates, (order.perm stamp alternatives).mem_iff]
    · rw [length_kinds order stamp alternatives isOptional]
  | _ =>
    cases entered
    exact ⟨rfl, fun _ => .rfl, by simp [Node.isChoice], by simp [entries], id, by simp, by simp⟩

theorem undefined_of_enter (entered : order.enter node walk = .error defect) :
    ∃ stamp rule, node = .ref stamp rule ∧ grammar.rules.body? rule = none ∧
      defect = .undefined rule := by
  cases node with
  | ref stamp rule =>
    rw [TableOrder.enter] at entered
    cases lookup : grammar.rules.body? rule with
    | none =>
      rw [lookup] at entered
      cases entered
      exact ⟨stamp, rule, rfl, lookup, rfl⟩
    | some body =>
      rw [lookup] at entered
      cases entered
  | _ => cases entered

/-! ## The worklist -/

/-- How far a worklist has come that visited some nodes, each once. -/
structure Covers (grammar : Grammar) (root : Node) (visited stack : List Node) (walk : Walk) :
    Prop where
  nodup : visited.Nodup
  /-- The nodes visited are those that are seen. -/
  seen (node : Node) : node ∈ walk.seen ↔ node ∈ visited
  size : walk.seen.size = visited.length
  choices : walk.choices = visited.countP Node.isChoice
  dispatchEntries : walk.dispatchEntries = (visited.map grammar.entries).foldr (· + ·) 0
  rulesNodup : walk.rules.Nodup
  /-- The rules listed are those that were named. -/
  rules (rule : String) : rule ∈ walk.rules ↔ ∃ stamp, .ref stamp rule ∈ visited
  defined (stamp : Stamp) (rule : String) :
    .ref stamp rule ∈ visited → (grammar.rules.body? rule).isSome = true
  /-- All nodes met so far are involved in the root. -/
  involved (node : Node) : node ∈ visited ∨ node ∈ stack → grammar.Involves root node
  root : root ∈ visited ∨ root ∈ stack
  /-- What is right below a node that was visited was met. -/
  followed (node next : Node) : node ∈ visited → next ∈ grammar.opens node →
    next ∈ visited ∨ next ∈ stack

namespace Covers

theorem start (grammar : Grammar) (root : Node) : grammar.Covers root [] [root] .start where
  nodup := .nil
  seen node := by simp [Walk.start]
  size := by simp [Walk.start]
  choices := rfl
  dispatchEntries := rfl
  rulesNodup := .nil
  rules rule := by simp [Walk.start]
  defined stamp rule member := by cases member
  involved node met := by
    obtain rfl : node = root := by simpa using met
    exact .root
  root := .inr (List.mem_singleton_self _)
  followed node next member := by cases member

/-- A node that was seen is dropped. -/
theorem skip (covers : grammar.Covers root visited (node :: stack) walk)
    (there : node ∈ walk.seen) : grammar.Covers root visited stack walk := by
  have known := (covers.seen node).mp there
  -- Whatever was met is still met without the node on the stack.
  have met : ∀ other, other ∈ visited ∨ other ∈ node :: stack →
      other ∈ visited ∨ other ∈ stack := by
    rintro other (early | top)
    · exact .inl early
    · rcases List.mem_cons.mp top with rfl | later
      · exact .inl known
      · exact .inr later
  exact { covers with
    involved := fun other there => covers.involved other (there.imp_right (List.mem_cons_of_mem _))
    root := met root covers.root
    followed := fun other next member below => met next (covers.followed other next member below) }

/-- A node that was not seen is visited. -/
theorem enter (covers : grammar.Covers root visited (node :: stack) walk) (fresh : node ∉ walk.seen)
    (entered : grammar.Entered node { walk with seen := walk.seen.insert node } below after) :
    grammar.Covers root (node :: visited) (below.reverse ++ stack) after := by
  have new : node ∉ visited := fun member => fresh ((covers.seen node).mpr member)
  have own : grammar.Involves root node := covers.involved node (.inr (List.mem_cons_self ..))
  have met : ∀ other, other ∈ visited ∨ other ∈ node :: stack →
      other ∈ node :: visited ∨ other ∈ below.reverse ++ stack := by
    rintro other (early | top)
    · exact .inl (List.mem_cons_of_mem _ early)
    · rcases List.mem_cons.mp top with rfl | later
      · exact .inl (List.mem_cons_self ..)
      · exact .inr (List.mem_append_right _ later)
  constructor
  case nodup => exact List.nodup_cons.mpr ⟨new, covers.nodup⟩
  case seen =>
    intro other
    rw [entered.seen, mem_insert, covers.seen, List.mem_cons]
  case size =>
    rw [entered.seen, Std.HashSet.size_insert, if_neg fresh, covers.size]
    rfl
  case choices =>
    rw [entered.choices, List.countP_cons, covers.choices]
  case dispatchEntries =>
    rw [entered.dispatchEntries, List.map_cons, List.foldr_cons, covers.dispatchEntries]
    exact Nat.add_comm _ _
  case rulesNodup => exact entered.nodup covers.rulesNodup
  case rules =>
    intro rule
    rw [entered.rules, covers.rules]
    simp [eq_comm, exists_or]
  case defined =>
    intro stamp rule member
    rcases List.mem_cons.mp member with same | early
    · exact entered.defined stamp rule same.symm
    · exact covers.defined stamp rule early
  case involved =>
    rintro other (top | later)
    · rcases List.mem_cons.mp top with rfl | early
      · exact own
      · exact covers.involved other (.inl early)
    · rcases List.mem_append.mp later with put | waiting
      · exact own.of_opens ((entered.below other).mp (List.mem_reverse.mp put))
      · exact covers.involved other (.inr (List.mem_cons_of_mem _ waiting))
  case root => exact met root covers.root
  case followed =>
    intro other next member opened
    rcases List.mem_cons.mp member with rfl | early
    · have put := (entered.below next).mpr opened
      exact .inr (List.mem_append_left _ (List.mem_reverse.mpr put))
    · exact met next (covers.followed other next early opened)

/-- A worklist that comes to an end has visited all there is to visit, or met a name without a
body. -/
theorem run {turns : Nat} {answer : Except Defect Walk}
    (covers : grammar.Covers root visited stack walk)
    (ended : order.worklist turns stack walk = some answer) :
    (∀ last, answer = .ok last → ∃ visited, grammar.Covers root visited [] last) ∧
      ∀ defect, answer = .error defect → ∃ stamp rule, defect = .undefined rule ∧
        Reaches grammar.rules root (.ref stamp rule) ∧ grammar.rules.body? rule = none := by
  induction turns generalizing visited stack walk with
  | zero => cases ended
  | succ turns ih =>
    cases stack with
    | nil =>
      cases ended
      refine ⟨?_, ?_⟩
      · rintro _ ⟨⟩
        exact ⟨visited, covers⟩
      · rintro _ ⟨⟩
    | cons node stack =>
      rw [TableOrder.worklist] at ended
      split at ended
      · next contained =>
        exact ih (covers.skip (Std.HashSet.mem_iff_contains.mpr contained)) ended
      · next new =>
        have fresh : node ∉ walk.seen := fun member =>
          new (Std.HashSet.mem_iff_contains.mp member)
        split at ended
        · next defect entered =>
          cases ended
          refine ⟨?_, ?_⟩
          · rintro _ ⟨⟩
          · rintro _ ⟨⟩
            obtain ⟨stamp, rule, rfl, missing, isUndefined⟩ := undefined_of_enter entered
            have involved := covers.involved _ (.inr (List.mem_cons_self ..))
            exact ⟨stamp, rule, isUndefined, involves_ref_iff.mp involved, missing⟩
        · next below after entered =>
          exact ih (covers.enter fresh (entered_of_enter entered)) ended

/-- Once the stack is empty, everything that is involved was visited. -/
theorem mem_iff (covers : grammar.Covers root visited [] walk) :
    node ∈ visited ↔ grammar.Involves root node := by
  have closed : ∀ node next, node ∈ visited → next ∈ grammar.opens node → next ∈ visited :=
    fun node next member below => (covers.followed node next member below).resolve_right
      List.not_mem_nil
  refine ⟨fun member => covers.involved node (.inl member), fun involved => ?_⟩
  induction involved with
  | root => exact covers.root.resolve_right List.not_mem_nil
  | part _ member ih => exact closed _ _ ih (mem_opens_of_mem_children member)
  | body _ lookup ih => exact closed _ _ ih (Option.mem_toList.mpr lookup)
  | candidate _ member ih => exact closed _ _ ih (List.mem_append_right _ member)

theorem defined_root (covers : grammar.Covers root visited [] walk) : grammar.Defined root :=
  fun stamp rule reached => covers.defined stamp rule
    (covers.mem_iff.mpr (involves_of_reaches reached))

theorem counts (covers : grammar.Covers root visited [] walk) :
    grammar.CountsInvolved root walk.stats := by
  refine ⟨visited, walk.rules, covers.nodup, covers.rulesNodup, fun node => covers.mem_iff,
    fun rule => ?_, ?_⟩
  · rw [covers.rules]
    exact exists_congr fun stamp => covers.mem_iff.trans involves_ref_iff
  · rw [Walk.stats, covers.size, covers.choices, covers.dispatchEntries]

end Covers

/-- There is one way to count each thing once. -/
theorem CountsInvolved.eq {stats other : Stats} (counts : grammar.CountsInvolved root stats)
    (again : grammar.CountsInvolved root other) : stats = other := by
  obtain ⟨nodes, rules, nodup, rulesNodup, mem, memRules, rfl⟩ := counts
  obtain ⟨nodes', rules', nodup', rulesNodup', mem', memRules', rfl⟩ := again
  have sameNodes : nodes.Perm nodes' :=
    (List.perm_ext_iff_of_nodup nodup nodup').mpr fun node => (mem node).trans (mem' node).symm
  have sameRules : rules.Perm rules' :=
    (List.perm_ext_iff_of_nodup rulesNodup rulesNodup').mpr
      fun rule => (memRules rule).trans (memRules' rule).symm
  have sameEntries := (sameNodes.map grammar.entries).foldr_eq' (f := (· + ·))
    (fun first _ second _ total => Nat.add_left_comm second first total) 0
  rw [sameNodes.length_eq, sameRules.length_eq, sameNodes.countP_eq, sameEntries]

/-- What a worklist comes to when it ends, in whatever order it reads tables. -/
theorem checks_of_ended {order : TableOrder grammar} {turns : Nat} {answer : Except Defect Walk}
    (ended : order.worklist turns [root] .start = some answer) :
    ((∃ walk, answer = .ok walk) ↔ grammar.Defined root) ∧
      (∀ walk, answer = .ok walk → grammar.CountsInvolved root walk.stats) ∧
      ∀ defect, answer = .error defect → ∃ stamp rule, defect = .undefined rule ∧
        Reaches grammar.rules root (.ref stamp rule) ∧ grammar.rules.body? rule = none := by
  obtain ⟨accepts, rejects⟩ := (Covers.start grammar root).run ended
  refine ⟨⟨?_, fun defined => ?_⟩, fun walk accepted => ?_, rejects⟩
  · rintro ⟨walk, accepted⟩
    obtain ⟨visited, covers⟩ := accepts walk accepted
    exact covers.defined_root
  · cases answer with
    | ok walk => exact ⟨walk, rfl⟩
    | error defect =>
      obtain ⟨stamp, rule, -, reached, missing⟩ := rejects defect rfl
      have isSome := defined stamp rule reached
      rw [missing] at isSome
      cases isSome
  · obtain ⟨visited, covers⟩ := accepts walk accepted
    exact covers.counts

/-- What compiling a grammar comes to, which reads tables in the order of declaration. -/
theorem compile_checks (grammar : Grammar) (root : Node) :
    ((∃ stats, compile grammar root = .ok ⟨grammar, root, stats⟩) ↔ grammar.Defined root) ∧
      (∀ compiled, compile grammar root = .ok compiled →
        ∃ stats, compiled = ⟨grammar, root, stats⟩ ∧ grammar.CountsInvolved root stats) ∧
      ∀ defect, compile grammar root = .error defect → ∃ stamp rule, defect = .undefined rule ∧
        Reaches grammar.rules root (.ref stamp rule) ∧ grammar.rules.body? rule = none := by
  obtain ⟨turns, answer, ended, same⟩ := TableOrder.exists_answer (.declared grammar) root
  obtain ⟨accepts, counts, rejects⟩ := checks_of_ended ended
  have compiled : compile grammar root = answer.map fun walk => ⟨grammar, root, walk.stats⟩ := by
    rw [compile, same rfl]
    cases answer <;> rfl
  rw [← accepts, compiled]
  cases answer with
  | ok walk =>
    refine ⟨⟨fun _ => ⟨walk, rfl⟩, fun _ => ⟨walk.stats, rfl⟩⟩, ?_, ?_⟩
    · rintro _ ⟨⟩
      exact ⟨walk.stats, rfl, counts walk rfl⟩
    · rintro _ ⟨⟩
  | error defect =>
    refine ⟨⟨?_, ?_⟩, ?_, ?_⟩
    · rintro ⟨_, ⟨⟩⟩
    · rintro ⟨_, ⟨⟩⟩
    · rintro _ ⟨⟩
    · rintro _ ⟨⟩
      exact rejects defect rfl

/-- A checked grammar is the grammar as it was, and every rule that takes part in its root has a
body. -/
theorem of_compile {compiled : Compiled} (accepted : compile grammar root = .ok compiled) :
    compiled.grammar = grammar ∧ compiled.root = root ∧ grammar.Defined root := by
  obtain ⟨accepts, counts, -⟩ := compile_checks grammar root
  obtain ⟨stats, rfl, -⟩ := counts compiled accepted
  exact ⟨rfl, rfl, accepts.mp ⟨stats, accepted⟩⟩

/-- A grammar in which every rule has a body is fit to run. -/
theorem exists_compile (defined : grammar.Defined root) :
    ∃ stats, compile grammar root = .ok ⟨grammar, root, stats⟩ :=
  (compile_checks grammar root).1.mpr defined

end

/-- Checking a grammar comes to an end in whatever order dispatch tables are read, although dispatch
brings nodes about that are checked in turn. The grammar is accepted if and only if every rule that
takes part in its root has a body, and otherwise a rule is reported that takes part in the root and
has none. If it is accepted, every node that is involved, every rule that takes part, and every
choice are counted once, and so are for every choice the kinds that its alternatives are known to
start with. The order makes no difference to these counts. -/
theorem compile_counts_involved (grammar : Grammar) (root : Node) (order : TableOrder grammar) :
    (∃ turns answer, order.worklist turns [root] .start = some answer ∧
      ((∃ walk, answer = .ok walk) ↔ grammar.Defined root) ∧
      (∀ walk, answer = .ok walk → grammar.CountsInvolved root walk.stats ∧
        compile grammar root = .ok ⟨grammar, root, walk.stats⟩) ∧
      ∀ defect, answer = .error defect → ∃ stamp rule, defect = .undefined rule ∧
        Reaches grammar.rules root (.ref stamp rule) ∧ grammar.rules.body? rule = none) ∧
      ((∃ stats, compile grammar root = .ok ⟨grammar, root, stats⟩) ↔ grammar.Defined root) ∧
      ∀ defect, compile grammar root = .error defect → ∃ stamp rule, defect = .undefined rule ∧
        Reaches grammar.rules root (.ref stamp rule) ∧ grammar.rules.body? rule = none := by
  obtain ⟨turns, answer, ended, -⟩ := TableOrder.exists_answer order root
  obtain ⟨accepts, counts, rejects⟩ := checks_of_ended ended
  obtain ⟨compiles, countsCompiled, rejectsCompiled⟩ := compile_checks grammar root
  refine ⟨⟨turns, answer, ended, accepts, fun walk accepted => ?_, rejects⟩, compiles,
    rejectsCompiled⟩
  obtain ⟨stats, compiled⟩ := compiles.mpr (accepts.mp ⟨walk, accepted⟩)
  obtain ⟨_, ⟨⟩, again⟩ := countsCompiled _ compiled
  have own := counts walk accepted
  exact ⟨own, own.eq again ▸ compiled⟩

end Offside.Grammar
