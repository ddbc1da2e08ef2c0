import Offside.Proofs.Grammar.Closure
import Offside.Proofs.Grammar.FirstGraph
import Offside.Proofs.Run.Grounded
import Offside.Proofs.Run.Sharing
import Offside.Proofs.Run.Termination

/-! # Nodes that own up

What a failed parse expected is what was refused at the furthest word. One state expects at most
what another does if it came less far, or as far and was refused there for no more. Moves keep this
order, so it is a gauge.

Dispatch expects no more than ordered choice where merged alternatives own up. A choice that leaves
out all its alternatives expects the kinds they are known to start with, and an alternative that
owns up expects these itself when it is tried.
-/

namespace Offside.Grammar

open Parse
open Token (Kind KindSet)

/-- No word was refused further on, and where the furthest is the same, for nothing more. -/
def ExpectsAtMost (state other : State) : Prop :=
  state.failure.position < other.failure.position ∨
    state.failure.position = other.failure.position ∧
      (∀ kind, state.failure.kinds.contains kind = true →
        other.failure.kinds.contains kind = true) ∧
      ∀ text ∈ state.failure.texts, text ∈ other.failure.texts

/-- A word was refused, or one behind it; if none behind it was, then for these kinds among
others. -/
structure Owns (kinds : KindSet) (position : Nat) (failure : Failure) : Prop where
  /-- The word or one behind it was refused. -/
  refused : position ≤ failure.position
  /-- If it was the word itself, each of these kinds was expected. -/
  kinds : failure.position = position → ∀ kind, kinds.contains kind = true →
    failure.kinds.contains kind = true

theorem Owns.mono {part whole : KindSet} {position : Nat} {failure : Failure}
    (owns : Owns whole position failure)
    (subset : ∀ kind, part.contains kind = true → whole.contains kind = true) :
    Owns part position failure :=
  ⟨owns.refused, fun here kind inside => owns.kinds here kind (subset kind inside)⟩

section

variable {state other third : State} {kinds : KindSet}

theorem ExpectsAtMost.refl (state : State) : ExpectsAtMost state state :=
  .inr ⟨rfl, fun _ inside => inside, fun _ member => member⟩

theorem ExpectsAtMost.trans (first : ExpectsAtMost state other)
    (second : ExpectsAtMost other third) : ExpectsAtMost state third := by
  unfold ExpectsAtMost at *
  grind

/-- Refusing a word for some kinds is no more than what owns them. -/
theorem expect_atMost_iff :
    ExpectsAtMost (state.expect kinds) other ↔
      ExpectsAtMost state other ∧ Owns kinds state.position other.failure := by
  have owns : Owns kinds state.position other.failure ↔ state.position ≤ other.failure.position ∧
      (other.failure.position = state.position → ∀ kind, kinds.contains kind = true →
        other.failure.kinds.contains kind = true) :=
    ⟨fun owns => ⟨owns.refused, owns.kinds⟩, fun both => ⟨both.1, both.2⟩⟩
  rw [owns]
  unfold ExpectsAtMost
  rw [State.failure_expect]
  split
  · grind
  · split
    · simp only [KindSet.contains_union, Bool.or_eq_true]
      grind
    · grind

theorem expectText_atMost_iff {text : String} :
    ExpectsAtMost (state.expectText text) other ↔ ExpectsAtMost state other ∧
      state.position ≤ other.failure.position ∧
      (other.failure.position = state.position → text ∈ other.failure.texts) := by
  unfold ExpectsAtMost
  rw [State.failure_expectText]
  split
  · simp only [KindSet.contains_empty]
    grind
  · split <;> grind

theorem expect_atMost_self (state : State) (kinds : KindSet) :
    ExpectsAtMost state (state.expect kinds) ∧
      Owns kinds state.position (state.expect kinds).failure :=
  expect_atMost_iff.mp (.refl _)

theorem expect_atMost_expect {part whole : KindSet} (same : state.trail = other.trail)
    (atMost : ExpectsAtMost state other)
    (subset : ∀ kind, part.contains kind = true → whole.contains kind = true) :
    ExpectsAtMost (state.expect part) (other.expect whole) := by
  have position : state.position = other.position := congrArg Trail.position same
  obtain ⟨onward, owns⟩ := expect_atMost_self other whole
  refine expect_atMost_iff.mpr ⟨atMost.trans onward, ?_, fun here kind inside => ?_⟩
  · exact position ▸ owns.refused
  · exact owns.kinds (here.trans position) kind (subset kind inside)

variable (words : Array Word) in
/-- What was expected where a parse got furthest is a gauge. -/
theorem expectsAtMost_gauge : Gauge words ExpectsAtMost where
  refl := .refl
  trans := .trans
  follow _ _ atMost := atMost
  bump state := by
    unfold ExpectsAtMost
    rw [State.failure_bump]
    exact ExpectsAtMost.refl state
  bump_mono _ atMost := by
    unfold ExpectsAtMost
    rw [State.failure_bump, State.failure_bump]
    exact atMost
  expect state kinds := (expect_atMost_self state kinds).1
  expect_mono _ same atMost := expect_atMost_expect same atMost fun _ inside => inside
  expectText state text := (expectText_atMost_iff.mp (.refl (state.expectText text))).1
  expectText_mono {state other} text same atMost := by
    have position : state.position = other.position := congrArg Trail.position same
    obtain ⟨onward, refused, expected⟩ := expectText_atMost_iff.mp (.refl (other.expectText text))
    exact expectText_atMost_iff.mpr ⟨atMost.trans onward, position ▸ refused,
      fun here => expected (here.trans position)⟩
  join {state other _ _} same atMost expects := by
    have position : state.position = other.position := congrArg Trail.position same
    have owns := (expect_atMost_iff.mp expects).2
    exact expect_atMost_iff.mpr ⟨atMost, position ▸ owns.refused,
      fun here => owns.kinds (here.trans position)⟩
  each some owned := by
    obtain ⟨first, inside⟩ := some
    obtain ⟨atMost, owns⟩ := expect_atMost_iff.mp (owned first inside)
    refine expect_atMost_iff.mpr ⟨atMost, owns.refused, fun here kind inside => ?_⟩
    have own := (expect_atMost_iff.mp (owned kind inside)).2
    exact own.kinds here kind (by simp)
  subset _ := expect_atMost_expect rfl (.refl _)

end

/-! ## Nodes that own up -/

/-- When the node fails in order, it expects in the end what its first set says, unless it came
further. That is not so of a text, which names itself and not its kind, and not of what stands
behind a lookahead. -/
inductive OwnsUp (grammar : Grammar) : Node → Prop
  /-- Nothing is known about what it starts with. -/
  | unknown {node : Node} (unpredicted : grammar.prediction node = none) : OwnsUp grammar node
  | token {stamp : Stamp} {kind : Kind} : OwnsUp grammar (.token stamp kind)
  | choice {stamp : Stamp} {alternatives : List Node} {isOptional : Bool} :
    OwnsUp grammar (.choice stamp alternatives isOptional)
  /-- A node around a first step that does. -/
  | leading {node child : Node} (leads : node.leading? = some child)
    (begins : OwnsUp grammar child) : OwnsUp grammar node
  /-- A sequence whose first item does, and takes a word if it matches. -/
  | seq {stamp : Stamp} {item : Node} {rest : List Node} (takes : ¬Nullable grammar.rules item)
    (begins : OwnsUp grammar item) : OwnsUp grammar (.seq stamp (item :: rest))
  | ref {stamp : Stamp} {rule : String} {body : Node}
    (lookup : grammar.rules.body? rule = some body) (begins : OwnsUp grammar body) :
    OwnsUp grammar (.ref stamp rule)

section

variable {grammar : Grammar} {words : Array Word} {node : Node}

/-- What is predicted for alternatives is known of one of them. -/
theorem contains_knownFirst_of_prediction {stamp : Stamp} {alternatives : List Node}
    {kinds : KindSet} {kind : Kind}
    (predicted : grammar.prediction (.choice stamp alternatives false) = some kinds)
    (inside : kinds.contains kind = true) :
    (grammar.knownFirst alternatives).contains kind = true := by
  obtain ⟨node, member, own, found, holds⟩ := (Node.contains_firstOfAll_iff predicted).mp inside
  exact contains_knownFirst member found holds

/-- A node that owns up does so in every run of it. -/
theorem OwnsUp.owns (ownsUp : grammar.OwnsUp node) (grounded : grammar.Grounded node)
    {kinds : KindSet} (predicted : grammar.prediction node = some kinds) {state after : State}
    (ended : grammar.meaning words true node state = some (false, after)) :
    Owns kinds state.position after.failure := by
  induction ownsUp generalizing state after with
  | unknown unpredicted =>
    rw [predicted] at unpredicted
    cases unpredicted
  | token =>
    rw [← step_meaning] at ended
    obtain rfl := eq_of_eat (Option.some.inj ended)
    cases predicted
    exact (expect_atMost_self state _).2
  | @choice stamp alternatives isOptional =>
    have refused := grounded.refusesAt state after ended
    rw [← step_meaning] at ended
    obtain ⟨rfl, behind, ran, rfl⟩ := eq_of_runChoice ended
    have known : ∀ kind, kinds.contains kind = true →
        (grammar.knownFirst alternatives).contains kind = true :=
      fun kind => contains_knownFirst_of_prediction predicted
    refine ⟨refused, fun here kind inside => ?_⟩
    have some := KindSet.isEmpty_of_contains (known kind inside)
    have back : behind.position = state.position :=
      congrArg Trail.position (trail_of_runAny (goesOnTo_moves words).meaning ran)
    have owns := (expect_atMost_self behind (grammar.knownFirst alternatives)).2.mono known
    rw [some] at here ⊢
    rw [back] at owns
    exact owns.kinds here kind inside
  | @leading node child leads _ ih =>
    have part : grammar.Grounded child := grounded.child (mem_children_of_leading leads)
    rw [← step_meaning] at ended
    rw [prediction_leading leads] at predicted
    cases failsAtFirst_of_step leads ended with
    | refused same =>
      rw [same, refused, predicted]
      exact (expect_atMost_self state kinds).2
    | failed ran position _ ends =>
      rw [ends, ← position]
      exact ih part predicted ran
  | @seq stamp item rest takes _ ih =>
    have parts : ∀ part ∈ item :: rest, grammar.Grounded part := fun part => grounded.child
    rw [← step_meaning] at ended
    change runAll _ (item :: rest) state = _ at ended
    rw [runAll_cons] at ended
    obtain ⟨⟨matched, behind⟩, ran, ended⟩ := Option.bind_eq_some_iff.mp ended
    cases matched with
    | false =>
      cases ended
      exact ih (parts item (List.mem_cons_self ..)) predicted ran
    | true =>
      -- The item took a word, and what fails behind it refuses one behind that.
      have later := refuses_runAll (goesOnTo_moves words).meaning
        (fun node member => (parts node (List.mem_cons_of_mem _ member)).refusesAt) ended
      have onward := ((goesOnTo_moves words).meaning item state _ ran).position_le
      have moved : behind.position ≠ state.position := by
        obtain ⟨fuel, ran⟩ := meaning_eq_some_iff.mp ran
        exact fun still => takes (stillIfNullable_runNode grammar words true fuel _ _ _ ran still)
      have beyond : state.position < after.failure.position :=
        Nat.lt_of_lt_of_le (Nat.lt_of_le_of_ne onward moved.symm) later
      exact ⟨Nat.le_of_lt beyond, fun here => absurd here (Nat.ne_of_gt beyond)⟩
  | ref lookup _ ih =>
    rw [← step_meaning, step_ref, lookup] at ended
    rw [prediction_ref, lookup] at predicted
    exact ih (grounded.body lookup) predicted ended

theorem OwnsUp.leavesAtLeastCheck (ownsUp : grammar.OwnsUp node)
    (grounded : grammar.Grounded node) :
    grammar.LeavesAtLeastCheck words ExpectsAtMost node := by
  intro state after kinds predicted ended
  have onward := (expectsAtMost_gauge words).moves.meaning node state _ ended
  exact expect_atMost_iff.mpr ⟨onward, ownsUp.owns grounded predicted ended⟩

end

/-! ## Rests that own up -/

/-- Where two alternatives start with the same node, what follows it owns up in both. -/
def RestsOwnUp (grammar : Grammar) (alternatives : List Node) : Prop :=
  ∀ first second, [first, second].Sublist alternatives → first.head.isSame second.head = true →
    ∀ node ∈ [first, second], ∀ stamp, grammar.OwnsUp (.ofSequence stamp node.tail)

section

variable {grammar : Grammar} {words : Array Word} {alternatives : List Node}

/-- In a chain of two or more, everyone has a neighbour. -/
theorem exists_neighbour {α : Type} {rel : α → α → Prop} {first second : α} {rest : List α}
    (chain : (first :: second :: rest).IsChain rel) :
    ∀ one ∈ first :: second :: rest, ∃ left right,
      [left, right].Sublist (first :: second :: rest) ∧ rel left right ∧ one ∈ [left, right] := by
  induction rest generalizing first second with
  | nil =>
    obtain ⟨related, -⟩ := List.isChain_cons_cons.mp chain
    exact fun one member => ⟨first, second, .refl _, related, member⟩
  | cons third rest ih =>
    obtain ⟨related, onward⟩ := List.isChain_cons_cons.mp chain
    refine List.forall_mem_cons.mpr ⟨?_, fun one member => ?_⟩
    · exact ⟨first, second, by simp, related, List.mem_cons_self ..⟩
    · obtain ⟨left, right, inside, related, among⟩ := ih onward one member
      exact ⟨left, right, inside.cons first, related, among⟩

/-- Grounded alternatives do not get fewer in normal form, unless one of them always matches. -/
theorem length_le_flattenAlternatives
    (grounded : ∀ node ∈ alternatives, grammar.Grounded node)
    (required : (Node.flattenAlternatives alternatives).2 = false) :
    alternatives.length ≤ (Node.flattenAlternatives alternatives).1.length := by
  induction alternatives with
  | nil => exact Nat.zero_le _
  | cons node rest ih =>
    obtain ⟨own, others⟩ := List.forall_mem_cons.mp grounded
    have inner := (Grounded.closed grammar).unhealed own
    rw [Node.flattenAlternatives] at required ⊢
    split at required
    · cases required
    · next stamp nested same =>
      have filled : 0 < nested.length := by
        rw [same] at inner
        refine List.length_pos_iff.mpr fun none => ?_
        subst none
        exact inner.filled stamp .root
      have later := ih others required
      simp only [List.length_cons, List.length_append]
      omega
    · cases required
    · have later := ih others required
      simp only [List.length_cons]
      omega

/-- Alternatives of which not one is left alone become a choice, or nothing. -/
theorem Node.ofAlternatives_cases (stamp : Stamp)
    (many : ∀ only, Node.flattenAlternatives alternatives ≠ ([only], false)) :
    Node.ofAlternatives stamp alternatives = .empty stamp ∨
      ∃ flat isOptional,
        Node.ofAlternatives stamp alternatives = .choice stamp flat isOptional := by
  unfold Node.ofAlternatives
  split
  · exact .inl rfl
  · next only one => exact absurd one (many only)
  · exact .inr ⟨_, _, rfl⟩

theorem mergeable_of_ownsUp {stamp : Nat → Stamp} {first second : Node} {rest : List Node}
    (grounded : ∀ node ∈ first :: second :: rest, grammar.Grounded node)
    (ownUp : ∀ node ∈ first :: second :: rest, ∀ stamp,
      grammar.OwnsUp (.ofSequence stamp node.tail)) :
    grammar.Mergeable words ExpectsAtMost stamp (first :: second :: rest) := by
  have closed := Grounded.closed grammar
  have restsGrounded := closed.tails (fun place => stamp (place + 2)) grounded
  have many : ∀ only, Node.flattenAlternatives (Node.rests (fun place => stamp (place + 2))
      (first :: second :: rest)) ≠ ([only], false) := by
    intro only same
    have bound := length_le_flattenAlternatives restsGrounded (congrArg Prod.snd same)
    have one := congrArg (fun flat => flat.1.length) same
    simp [Node.rests] at bound one
    omega
  refine ⟨?_, fun only one => absurd one (many only), ?_⟩
  · intro node member
    have own := restsGrounded node member
    obtain ⟨place, there, rfl⟩ := List.mem_mapIdx.mp member
    exact (ownUp _ (List.getElem_mem there) _).leavesAtLeastCheck own
  · intro head same nothing
    obtain rfl := Option.some.inj same
    refine OwnsUp.leavesAtLeastCheck ?_ (closed.mergeRun stamp grounded)
    rw [Node.mergeRun_eq, Node.ofSequence]
    simp only [List.flatMap_cons, nothing, List.flatMap_nil, List.append_nil, List.nil_append]
    rcases Node.ofAlternatives_cases (stamp 1) many with none | ⟨flat, isOptional, some⟩
    · rw [none]
      exact .unknown rfl
    · rw [some]
      exact .choice

theorem merges_of_restsOwnUp (grounded : ∀ node ∈ alternatives, grammar.Grounded node)
    (ownUp : grammar.RestsOwnUp alternatives) :
    grammar.Merges words ExpectsAtMost alternatives := by
  intro stamp first second rest inside chain
  refine mergeable_of_ownsUp (fun node member => grounded node (inside.subset member)) ?_
  intro node member
  obtain ⟨left, right, neighbours, same, among⟩ := exists_neighbour chain node member
  exact ownUp left right (neighbours.trans inside) same node among

end

end Offside.Grammar
