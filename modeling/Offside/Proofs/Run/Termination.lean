import Offside.Proofs.Grammar.LeftRecursion
import Offside.Proofs.Run.Dispatch

/-! # Runs come to an end

Between one word and the next a run only goes down: to parts of a node, which are lighter, or to the
body of a rule, behind which fewer rules can be entered. Loops go on only as long as every turn
takes a word. So the words that are left, then the rules that can be entered, then the weight of the
node bound how far runs lie inside each other, and the fuel that a node is given is more than that.

That an item of a sequence runs where the sequence starts only behind items that may match nothing
is a matter of what runs do: a node that matched without taking a word is one of those.
-/

namespace Offside.Grammar

open Parse
open Token (Kind KindSet)

/-- The words that are left behind a position. -/
def left (words : Array Word) (position : Nat) : Nat := words.size - position

theorem left_lt (words : Array Word) (position : Nat) : left words position < words.size + 1 :=
  Nat.lt_succ_of_le (Nat.sub_le ..)

/-- Nothing was taken, or fewer words are left. -/
def Advances (words : Array Word) (state after : State) : Prop :=
  after.position = state.position ∨ left words after.position < left words state.position

section

variable {words : Array Word} {state middle after : State}

theorem Advances.of_trail_eq (same : after.trail = state.trail) : Advances words state after :=
  .inl (congrArg Trail.position same)

theorem Advances.trans (first : Advances words state middle)
    (second : Advances words middle after) : Advances words state after := by
  unfold Advances at *
  rcases first with same | less
  · rwa [← same]
  · rcases second with same | more
    · exact .inr (same ▸ less)
    · exact .inr (more.trans less)

theorem Advances.left_le (advances : Advances words state after) :
    left words after.position ≤ left words state.position := by
  rcases advances with same | less
  · rw [same]
  · exact Nat.le_of_lt less

/-- Who stands where he stood before stood there all the time. -/
theorem Advances.still (first : Advances words state middle)
    (second : Advances words middle after) (still : after.position = state.position) :
    middle.position = state.position := by
  rcases first with same | less
  · exact same
  · have more := second.left_le
    rw [still] at more
    omega

theorem advances_bump {state : State} (ahead : state.atEnd words = false) :
    left words (state.bump words).position < left words state.position := by
  unfold State.bump
  unfold State.atEnd at *
  simp only [ahead, Bool.false_eq_true, ↓reduceIte, left]
  have inside := of_decide_eq_false ahead
  omega

/-- Where there is a word, taking it moves on. -/
theorem position_bump_ne {word : Word} (next : state.current? words = some word) :
    (state.bump words).position ≠ state.position := by
  obtain ⟨inside, -⟩ := Array.getElem?_eq_some_iff.mp next
  have ahead : state.atEnd words = false := decide_eq_false (Nat.not_le.mpr inside)
  intro same
  have fewer := advances_bump ahead
  rw [same] at fewer
  exact Nat.lt_irrefl _ fewer

theorem position_ne_of_eat {kind : Kind} (ate : state.eat words kind = (true, after)) :
    after.position ≠ state.position := by
  unfold State.eat at ate
  split at ate
  · next present =>
    obtain rfl : state.bump words = after := congrArg Prod.snd ate
    obtain ⟨word, next, -⟩ := Option.map_eq_some_iff.mp (beq_iff_eq.mp present)
    exact position_bump_ne next
  · cases ate

theorem position_ne_of_eatText {kind : Kind} {spelling : String}
    (ate : state.eatText words kind spelling = (true, after)) :
    after.position ≠ state.position := by
  unfold State.eatText at ate
  split at ate
  · next present =>
    obtain rfl : state.bump words = after := congrArg Prod.snd ate
    exact position_bump_ne present
  · cases ate

variable (words) in
/-- Runs take words and give back only what they took. -/
theorem advances_moves : KeptByMoves words (Advances words) where
  refl _ := .inl rfl
  trans := .trans
  bump state := by
    cases atEnd : state.atEnd words with
    | true => exact .inl (by simp [State.bump, atEnd])
    | false => exact .inr (advances_bump atEnd)
  expect state kinds := .of_trail_eq (State.trail_expect state kinds)
  expectText state text := .of_trail_eq (State.trail_expectText state text)
  report _ _ _ _ := .inl rfl
  node inner := inner
  abandon {state after _} inner := by
    have same : (after.abandon state.checkpoint).position = after.position := by
      unfold State.abandon
      split <;> rfl
    unfold Advances at *
    rwa [same]
  wrap _ onward := onward
  undo _ := .inl rfl
  forget _ := .inl rfl

end

/-! ## Matches that take nothing -/

/-- A node that a run matches without taking a word is one that may match nothing. -/
def StillIfNullable (rules : Rules) (run : Runner) : Prop :=
  ∀ node state after, run node state = some (true, after) → after.position = state.position →
    Nullable rules node

section

variable {grammar : Grammar} {words : Array Word} {run : Runner} {state after : State}
  (still : StillIfNullable grammar.rules run)

include still

theorem nullable_of_runHealed {node : Node}
    (ended : grammar.runHealed words run node state = some (true, after))
    (same : after.position = state.position) : Nullable grammar.rules node :=
  still node state after (matched_of_runHealed ended) same

variable (advances : Keeps (Advances words) run)

include advances

theorem nullable_of_runAll {items : List Node}
    (ended : runAll run items state = some (true, after))
    (same : after.position = state.position) : ∀ item ∈ items, Nullable grammar.rules item := by
  induction items generalizing state with
  | nil => simp
  | cons item rest ih =>
    rw [runAll_cons] at ended
    obtain ⟨⟨matched, middle⟩, ran, ended⟩ := Option.bind_eq_some_iff.mp ended
    cases matched with
    | false => cases ended
    | true =>
      have first := advances _ _ _ ran
      have second := (advances_moves words).within.runAll (fun node _ => advances node) ended
      have stands : middle.position = state.position := first.still second same
      exact List.forall_mem_cons.mpr
        ⟨still item state middle ran stands, ih ended (same.trans stands.symm)⟩

omit still in
/-- A chain goes on from where its last link ended. -/
theorem advances_runFold {kind : Syntax.Kind} {next : Node} {checkpoint limit : Nat}
    {answer : Bool × State}
    (ended : grammar.runFold words run kind next checkpoint limit state = some answer) :
    Advances words state answer.2 := by
  induction limit generalizing state with
  | zero => cases ended
  | succ limit ih =>
    rw [runFold_succ] at ended
    obtain ⟨link, ran, ended⟩ := Option.bind_eq_some_iff.mp ended
    have first := (advances_moves words).within.runHealed (advances _) _ _ ran
    split at ended
    · split at ended
      · cases ended
        exact first
      · have links : Advances words (wrapped checkpoint kind link.2) answer.2 := ih ended
        exact first.trans links
    · cases ended
      exact first

omit advances in
theorem nullable_of_runAny {nodes : List Node}
    (onward : Keeps (fun state after => state.trail.GoesOnTo after.trail) run)
    (ended : grammar.runAny words run nodes state = some (true, after))
    (same : after.position = state.position) : ∃ node ∈ nodes, Nullable grammar.rules node := by
  induction nodes generalizing state with
  | nil => cases ended
  | cons node rest ih =>
    rw [runAny_cons] at ended
    obtain ⟨⟨matched, middle⟩, ran, ended⟩ := Option.bind_eq_some_iff.mp ended
    cases matched with
    | true =>
      cases ended
      exact ⟨node, List.mem_cons_self .., nullable_of_runHealed still ran same⟩
    | false =>
      have back : middle.position = state.position :=
        congrArg Trail.position (trail_of_runHealed onward ran)
      obtain ⟨other, member, nullable⟩ := ih ended (same.trans back.symm)
      exact ⟨other, List.mem_cons_of_mem _ member, nullable⟩

section

variable {stamp : Stamp} {kind : Syntax.Kind} {child start : Node}

theorem nullable_of_oneOrMore
    (ended : grammar.step words run true (.oneOrMore stamp child) state = some (true, after))
    (same : after.position = state.position) : Nullable grammar.rules child := by
  rw [step_oneOrMore] at ended
  obtain ⟨⟨matched, middle⟩, ran, ended⟩ := Option.bind_eq_some_iff.mp ended
  cases matched with
  | true =>
    have second := (advances_moves words).within.runMore (advances _) ended
    exact still child state middle ran ((advances _ _ _ ran).still second same)
  | false => cases ended

omit advances in
theorem nullable_of_symbolic
    (ended : grammar.step words run true (.symbolic stamp kind child) state = some (true, after))
    (same : after.position = state.position) : Nullable grammar.rules child := by
  rw [step_symbolic] at ended
  split at ended
  · obtain ⟨⟨matched, middle⟩, ran, closed⟩ := Option.map_eq_some_iff.mp ended
    cases matched with
    | true =>
      obtain rfl : middle.record .finish = after := congrArg Prod.snd closed
      exact still child _ middle ran same
    | false => cases closed
  · cases ended

theorem nullable_of_fold {next : Node}
    (ended : grammar.step words run true (.fold stamp kind start next) state = some (true, after))
    (same : after.position = state.position) : Nullable grammar.rules start := by
  rw [step_fold] at ended
  split at ended
  · obtain ⟨⟨matched, middle⟩, ran, ended⟩ := Option.bind_eq_some_iff.mp ended
    cases matched with
    | true =>
      have second := advances_runFold advances ended
      exact still start state middle ran ((advances _ _ _ ran).still second same)
    | false => cases ended
  · cases ended

theorem nullable_of_cont {rest : Node}
    (ended : grammar.step words run true (.cont stamp kind start rest) state = some (true, after))
    (same : after.position = state.position) : Nullable grammar.rules start := by
  rw [step_cont] at ended
  obtain ⟨⟨matched, middle⟩, ran, ended⟩ := Option.bind_eq_some_iff.mp ended
  cases matched with
  | true =>
    obtain ⟨answer, ranRest, closed⟩ := Option.map_eq_some_iff.mp ended
    have healed := (advances_moves words).within.runHealed (advances _) _ _ ranRest
    have second : Advances words middle after := by
      obtain rfl := congrArg Prod.snd closed
      dsimp only
      split
      · exact healed
      · exact healed
    exact still start state middle ran ((advances _ _ _ ran).still second same)
  | false => cases ended

end

/-- One step keeps to this when choices try all their alternatives. -/
theorem stillIfNullable_step
    (onward : Keeps (fun state after => state.trail.GoesOnTo after.trail) run) :
    StillIfNullable grammar.rules (grammar.step words run true) := by
  intro node state after ended same
  cases node with
  | token _ kind => exact absurd same (position_ne_of_eat (Option.some.inj ended))
  | text _ kind spelling => exact absurd same (position_ne_of_eatText (Option.some.inj ended))
  | empty => exact .empty
  | seq _ items => exact .seq (nullable_of_runAll still advances ended same)
  | choice stamp alternatives isOptional =>
    cases isOptional with
    | true => exact .omitted
    | false =>
      change grammar.runChoice words run true stamp alternatives false state = _ at ended
      rw [runChoice_eq] at ended
      obtain ⟨⟨matched, middle⟩, ran, chose⟩ := Option.map_eq_some_iff.mp ended
      cases matched with
      | true =>
        obtain rfl : middle = after := congrArg Prod.snd chose
        obtain ⟨node, member, nullable⟩ := nullable_of_runAny still onward ran same
        exact .alternative member nullable
      | false => cases chose
  | oneOrMore _ child => exact .oneOrMore (nullable_of_oneOrMore still advances ended same)
  | heal _ child => exact .heal (nullable_of_runHealed still ended same)
  | ahead => exact .ahead
  | symbolic _ kind child => exact .symbolic (nullable_of_symbolic still ended same)
  | fold _ kind start next => exact .fold (nullable_of_fold still advances ended same)
  | cont _ kind start rest => exact .cont (nullable_of_cont still advances ended same)
  | ref _ rule =>
    rw [step_ref] at ended
    split at ended
    · next body lookup => exact .ref lookup (still body state after ended same)
    · cases ended
  | relax => exact .relax
  | relaxTo => exact .relaxTo

end

/-- In either mode, a node that matches without taking a word may match nothing. -/
theorem stillIfNullable_runNode (grammar : Grammar) (words : Array Word) (naive : Bool)
    (fuel : Nat) : StillIfNullable grammar.rules (grammar.runNode words naive fuel) := by
  have inOrder : ∀ fuel, StillIfNullable grammar.rules (grammar.runNode words true fuel) := by
    intro fuel
    induction fuel with
    | zero => intro node state after ended; cases ended
    | succ fuel ih =>
      exact stillIfNullable_step ih ((advances_moves words).runNode true fuel)
        ((goesOnTo_moves words).runNode true fuel)
  intro node state after ended same
  obtain ⟨⟨matched, other⟩, found, sameAnswer⟩ :=
    runNode_simulates_meaning naive true fuel node state state rfl _ ended
  obtain ⟨rfl, sameTrail⟩ := Prod.mk.inj (seen_eq_of_same sameAnswer)
  obtain ⟨more, ran⟩ := meaning_eq_some_iff.mp found
  exact inOrder more node state other ran ((congrArg Trail.position sameTrail).symm.trans same)

/-! ## Loops -/

section

variable {grammar : Grammar} {words : Array Word} {run : Runner} {state : State}

variable (grammar words) in
theorem runHealed_ends {node : Node} (ends : (run node state).isSome) :
    (grammar.runHealed words run node state).isSome := by
  rw [runHealed_eq]
  split
  · rwa [Option.isSome_map]
  · rfl

/-- Runs of a node end from some state on. -/
def EndsFrom (words : Array Word) (run : Runner) (node : Node) (state : State) : Prop :=
  ∀ other, Advances words state other → (run node other).isSome

theorem EndsFrom.here {node : Node} (ends : EndsFrom words run node state) :
    (run node state).isSome :=
  ends state (.inl rfl)

theorem EndsFrom.later {node : Node} {after : State} (ends : EndsFrom words run node state)
    (advances : Advances words state after) : EndsFrom words run node after :=
  fun other further => ends other (advances.trans further)

variable (advances : Keeps (Advances words) run)

include advances

theorem runAll_ends {rules : Rules} (still : StillIfNullable rules run) {items : List Node}
    (here : ∀ before item after, items = before ++ item :: after →
      (∀ node ∈ before, Nullable rules node) →
        ∀ other, other.position = state.position → (run item other).isSome)
    (later : ∀ item ∈ items, ∀ other,
      left words other.position < left words state.position → (run item other).isSome) :
    (runAll run items state).isSome := by
  induction items generalizing state with
  | nil => rfl
  | cons item rest ih =>
    obtain ⟨⟨matched, middle⟩, ran⟩ :=
      Option.isSome_iff_exists.mp (here [] item rest rfl (by simp) state rfl)
    rw [runAll_cons, ran, Option.bind_some]
    have first : Advances words state middle := advances _ _ _ ran
    cases matched with
    | false => rfl
    | true =>
      refine ih ?_ ?_
      · intro before other after split passes target same
        rcases first with stands | fewer
        · have nullable := still item state middle ran stands
          exact here (item :: before) other after (congrArg _ split)
            (List.forall_mem_cons.mpr ⟨nullable, passes⟩) target (same.trans stands)
        · exact later other (by simp [split]) target (same ▸ fewer)
      · exact fun other member target fewer =>
          later other (List.mem_cons_of_mem _ member) target (fewer.trans_le first.left_le)

omit advances in
theorem runAny_ends {nodes : List Node}
    (onward : Keeps (fun state after => state.trail.GoesOnTo after.trail) run)
    (here : ∀ node ∈ nodes, ∀ other, other.position = state.position → (run node other).isSome) :
    (grammar.runAny words run nodes state).isSome := by
  induction nodes generalizing state with
  | nil => rfl
  | cons node rest ih =>
    obtain ⟨first, others⟩ := List.forall_mem_cons.mp here
    obtain ⟨⟨matched, middle⟩, ran⟩ := Option.isSome_iff_exists.mp
      (runHealed_ends grammar words (first state rfl))
    rw [runAny_cons, ran, Option.bind_some]
    cases matched with
    | true => rfl
    | false =>
      have back : middle.position = state.position :=
        congrArg Trail.position (trail_of_runHealed onward ran)
      exact ih fun other member target same => others other member target (same.trans back)

theorem runMore_ends {child : Node} {limit : Nat} (ends : EndsFrom words run child state)
    (enough : left words state.position < limit) :
    (grammar.runMore words run child limit state).isSome := by
  induction limit generalizing state with
  | zero => exact absurd enough (Nat.not_lt_zero _)
  | succ limit ih =>
    obtain ⟨⟨matched, middle⟩, ran⟩ := Option.isSome_iff_exists.mp ends.here
    rw [runMore_succ, ran, Option.bind_some]
    have turn : Advances words state middle := advances _ _ _ ran
    split
    · split
      · next goesOn =>
        have moved := bne_iff_ne.mp (Bool.and_eq_true_iff.mp goesOn).2
        have fewer : left words middle.position < left words state.position :=
          turn.resolve_left moved
        have enough : left words middle.position < limit := by omega
        exact ih (ends.later turn) enough
      · rfl
    · rfl

theorem runFold_ends {kind : Syntax.Kind} {next : Node} {checkpoint limit : Nat}
    (ends : EndsFrom words run next state) (enough : left words state.position < limit) :
    (grammar.runFold words run kind next checkpoint limit state).isSome := by
  induction limit generalizing state with
  | zero => exact absurd enough (Nat.not_lt_zero _)
  | succ limit ih =>
    obtain ⟨⟨matched, middle⟩, ran⟩ := Option.isSome_iff_exists.mp
      (runHealed_ends grammar words ends.here)
    rw [runFold_succ, ran, Option.bind_some]
    have turn : Advances words state middle :=
      (advances_moves words).within.runHealed (advances _) _ _ ran
    split
    · split
      · rfl
      · next moved =>
        have fewer : left words middle.position < left words state.position :=
          turn.resolve_left moved
        have enough : left words (wrapped checkpoint kind middle).position < limit := by
          change left words middle.position < limit
          omega
        exact ih (ends.later turn) enough
    · rfl

omit advances in
theorem skipTo_ends {recovery : Node} {depth limit : Nat}
    (onward : Keeps (fun state after => state.trail.GoesOnTo after.trail) run)
    (ends : EndsFrom words run recovery state) (enough : left words state.position < limit) :
    (skipTo words run recovery depth limit state).isSome := by
  induction limit generalizing depth state with
  | zero => exact absurd enough (Nat.not_lt_zero _)
  | succ limit ih =>
    rw [skipTo_succ]
    cases next : state.currentKind? words with
    | none => rfl
    | some kind =>
      have fewer : left words (state.bump words).position < left words state.position := by
        obtain ⟨word, found, -⟩ := Option.map_eq_some_iff.mp next
        obtain ⟨inside, -⟩ := Array.getElem?_eq_some_iff.mp found
        exact advances_bump (decide_eq_false (Nat.not_le.mpr inside))
      have onwards : ∀ depth, (skipTo words run recovery depth limit (state.bump words)).isSome :=
        fun depth => ih (ends.later (.inr fewer)) (by omega)
      dsimp only
      split
      · obtain ⟨answer, ran⟩ := Option.isSome_iff_exists.mp ends.here
        rw [ran, Option.bind_some, probed_run onward ran]
        split
        · rfl
        · exact onwards _
      · exact onwards _

/-! ## Steps that run more than one node -/

variable {naive : Bool} {stamp : Stamp} {kind : Syntax.Kind} {child start : Node}

theorem step_oneOrMore_ends (ends : EndsFrom words run child state) :
    (grammar.step words run naive (.oneOrMore stamp child) state).isSome := by
  obtain ⟨⟨matched, middle⟩, ran⟩ := Option.isSome_iff_exists.mp ends.here
  rw [step_oneOrMore, ran, Option.bind_some]
  split
  · exact runMore_ends advances (ends.later (advances _ _ _ ran)) (left_lt words _)
  · rfl

theorem step_fold_ends {next : Node} (first : (run start state).isSome)
    (behind : ∀ middle, run start state = some (true, middle) → EndsFrom words run next middle) :
    (grammar.step words run naive (.fold stamp kind start next) state).isSome := by
  rw [step_fold]
  split
  · obtain ⟨⟨matched, middle⟩, ran⟩ := Option.isSome_iff_exists.mp first
    rw [ran, Option.bind_some]
    cases matched with
    | false => rfl
    | true => exact runFold_ends advances (behind middle ran) (left_lt words _)
  · rfl

omit advances in
theorem step_cont_ends {rest : Node} (first : (run start state).isSome)
    (behind : ∀ middle, run start state = some (true, middle) → EndsFrom words run rest middle) :
    (grammar.step words run naive (.cont stamp kind start rest) state).isSome := by
  obtain ⟨⟨matched, middle⟩, ran⟩ := Option.isSome_iff_exists.mp first
  rw [step_cont, ran, Option.bind_some]
  cases matched with
  | false => rfl
  | true =>
    dsimp only
    rw [if_pos rfl, Option.isSome_map]
    exact runHealed_ends grammar words (behind middle ran).here

theorem step_relaxTo_ends {recovery : Node} {message : String}
    (onward : Keeps (fun state after => state.trail.GoesOnTo after.trail) run)
    (first : (run child state).isSome) (ends : EndsFrom words run recovery state) :
    (grammar.step words run naive (.relaxTo stamp child recovery message) state).isSome := by
  obtain ⟨⟨matched, middle⟩, ran⟩ := Option.isSome_iff_exists.mp
    (runHealed_ends grammar words first)
  rw [step_relaxTo, ran, Option.bind_some]
  split
  · rfl
  · rw [Option.isSome_map]
    have turn := (advances_moves words).within.runHealed (advances _) _ _ ran
    exact skipTo_ends onward (ends.later turn) (left_lt words _)

end

/-! ## One step down -/

/-- How far down a node is between one word and the next: by the rules that it may enter, and then
by its weight. -/
noncomputable def level (rules : Rules) (heaviest : Nat) (node : Node) : Nat :=
  rank rules node * (heaviest + 1) + node.weight

section

variable {grammar : Grammar} {rules : Rules} {heaviest : Nat} {node child : Node}

theorem level_lt (ranks : rank rules child ≤ rank rules node)
    (lighter : child.weight < node.weight) :
    level rules heaviest child < level rules heaviest node := by
  have scaled := Nat.mul_le_mul_right (heaviest + 1) ranks
  unfold level
  omega

/-- What runs first is a part of the node or the body of its rule. -/
theorem RunsFirst.mem_children_or_body (runs : RunsFirst rules node child) :
    child ∈ node.children ∨
      ∃ stamp rule, node = .ref stamp rule ∧ rules.body? rule = some child := by
  cases runs with
  | item => exact .inl (List.mem_append_right _ (List.mem_cons_self ..))
  | alternative member => exact .inl member
  | body lookup => exact .inr ⟨_, _, rfl, lookup⟩
  | oneOrMore | heal | ahead | symbolic | start | next | init | rest | relax | relaxTo
  | recovery => exact .inl (by simp [Node.children])

theorem RunsFirst.level_lt (free : rules.LeftRecursionFree)
    (heavy : ∀ rule body, rules.body? rule = some body → body.weight ≤ heaviest)
    (runs : RunsFirst rules node child) :
    level rules heaviest child < level rules heaviest node := by
  rcases runs.mem_children_or_body with member | ⟨stamp, rule, rfl, lookup⟩
  · exact Grammar.level_lt runs.rank_le (Node.weight_lt_of_mem_children member)
  · have fewer := rank_body_lt stamp free lookup
    have light := heavy rule child lookup
    have scaled := Nat.mul_le_mul_right (heaviest + 1) (Nat.succ_le_of_lt fewer)
    rw [Nat.succ_mul] at scaled
    unfold level
    omega

theorem RunsFirst.weight_le (heavy : ∀ rule body, rules.body? rule = some body →
    body.weight ≤ heaviest) (light : node.weight ≤ heaviest) (runs : RunsFirst rules node child) :
    child.weight ≤ heaviest := by
  rcases runs.mem_children_or_body with member | ⟨_, rule, -, lookup⟩
  · exact Nat.le_trans (Nat.le_of_lt (Node.weight_lt_of_mem_children member)) light
  · exact heavy rule child lookup

section

variable {naive : Bool} {stamp : Stamp} {alternatives : List Node} {isOptional : Bool}
  {next? : Option Kind} (member : child ∈ grammar.tried naive stamp alternatives next?)

include member

/-- What is tried for a choice is lighter than the choice. -/
theorem weight_lt_of_mem_tried :
    child.weight < (Node.choice stamp alternatives isOptional).weight := by
  have light : child.weight ≤ Node.weightOf alternatives := by
    cases naive with
    | true => exact Node.weight_le_weightOf member
    | false => exact weight_le_of_mem_candidates member
  rw [Node.weight_choice]
  omega

theorem level_lt_of_mem_tried :
    level grammar.rules heaviest child <
      level grammar.rules heaviest (.choice stamp alternatives isOptional) := by
  refine level_lt (rank_mono fun rule enters => enters_choice_iff.mpr ?_)
    (weight_lt_of_mem_tried member)
  cases naive with
  | true => exact ⟨child, member, enters⟩
  | false => exact enters_of_candidates member enters

end

end

section

variable {grammar : Grammar} {words : Array Word} {run : Runner} {heaviest : Nat} {node : Node}
  {state : State}

/-- One step ends if the runs that it may ask for do: those of nodes further down at the same place,
and all that begin where fewer words are left. -/
theorem step_ends (naive : Bool) (free : grammar.rules.LeftRecursionFree)
    (heavy : ∀ rule body, grammar.rules.body? rule = some body → body.weight ≤ heaviest)
    (light : node.weight ≤ heaviest) (still : StillIfNullable grammar.rules run)
    (advances : Keeps (Advances words) run)
    (onward : Keeps (fun state after => state.trail.GoesOnTo after.trail) run)
    (here : ∀ child, child.weight ≤ heaviest →
      level grammar.rules heaviest child < level grammar.rules heaviest node →
        ∀ other, other.position = state.position → (run child other).isSome)
    (later : ∀ child, child.weight ≤ heaviest →
      ∀ other, left words other.position < left words state.position → (run child other).isSome) :
    (grammar.step words run naive node state).isSome := by
  have first : ∀ {child}, RunsFirst grammar.rules node child →
      ∀ other, other.position = state.position → (run child other).isSome :=
    fun runs => here _ (runs.weight_le heavy light) (runs.level_lt free heavy)
  have part : ∀ {child}, child ∈ node.children →
      ∀ other, left words other.position < left words state.position →
        (run child other).isSome :=
    fun member =>
      later _ (Nat.le_trans (Nat.le_of_lt (Node.weight_lt_of_mem_children member)) light)
  have ends : ∀ {child}, RunsFirst grammar.rules node child → child ∈ node.children →
      EndsFrom words run child state := fun runs member other onwards => by
    rcases onwards with same | fewer
    · exact first runs other same
    · exact part member other fewer
  have behind : ∀ {start child middle}, run start state = some (true, middle) →
      (Nullable grammar.rules start → RunsFirst grammar.rules node child) →
        child ∈ node.children → EndsFrom words run child middle := by
    intro start child middle ran runs member
    rcases advances _ _ _ ran with same | fewer
    · exact (ends (runs (still start state middle ran same)) member).later (.inl same)
    · exact fun other onwards => part member other (onwards.left_le.trans_lt fewer)
  cases node with
  | token | text | empty => rfl
  | seq _ items =>
    refine runAll_ends advances still ?_ fun item member => part member
    rintro before item after rfl passes
    exact first (.item passes)
  | choice stamp alternatives isOptional =>
    change (grammar.runChoice words run naive stamp alternatives isOptional state).isSome
    rw [runChoice_eq, Option.isSome_map]
    exact runAny_ends onward fun child member =>
      here child (Nat.le_trans (Nat.le_of_lt (weight_lt_of_mem_tried member)) light)
        (level_lt_of_mem_tried member)
  | oneOrMore _ child =>
    exact step_oneOrMore_ends advances (ends .oneOrMore (List.mem_singleton_self _))
  | heal _ child => exact runHealed_ends grammar words (first .heal state rfl)
  | ahead _ child =>
    change (Option.map _ (run child state)).isSome
    rw [Option.isSome_map]
    exact first .ahead state rfl
  | symbolic _ kind child =>
    rw [step_symbolic]
    split
    · rw [Option.isSome_map]
      exact first .symbolic _ rfl
    · rfl
  | fold _ kind start next =>
    exact step_fold_ends advances (first .start state rfl) fun middle ran =>
      behind ran .next (List.mem_cons_of_mem _ (List.mem_singleton_self _))
  | cont _ kind start rest =>
    exact step_cont_ends (first .init state rfl) fun middle ran =>
      behind ran .rest (List.mem_cons_of_mem _ (List.mem_singleton_self _))
  | ref _ rule =>
    rw [step_ref]
    split
    · next body lookup => exact first (.body lookup) state rfl
    · rfl
  | relax _ child message =>
    change (Option.map _ (grammar.runHealed words run child state)).isSome
    rw [Option.isSome_map]
    exact runHealed_ends grammar words (first .relax state rfl)
  | relaxTo _ child recovery message =>
    exact step_relaxTo_ends advances onward (first .relaxTo state rfl)
      (ends .recovery (List.mem_cons_of_mem _ (List.mem_singleton_self _)))

/-! ## Enough fuel -/

theorem level_lt_mul (rules : Rules) (light : node.weight ≤ heaviest) :
    level rules heaviest node < (rules.bodies.length + 1) * (heaviest + 1) := by
  have ranked := Nat.mul_le_mul_right (heaviest + 1) (rank_le rules node)
  rw [Nat.succ_mul]
  unfold level
  omega

/-- A run ends with more fuel than its level and all levels behind each of the words left. -/
theorem runNode_ends (naive : Bool) (free : grammar.rules.LeftRecursionFree)
    (heavy : ∀ rule body, grammar.rules.body? rule = some body → body.weight ≤ heaviest)
    (light : node.weight ≤ heaviest) {fuel : Nat}
    (enough : left words state.position * ((grammar.rules.bodies.length + 1) * (heaviest + 1)) +
      level grammar.rules heaviest node < fuel) :
    (grammar.runNode words naive fuel node state).isSome := by
  induction fuel generalizing node state with
  | zero => exact absurd enough (Nat.not_lt_zero _)
  | succ fuel ih =>
    refine step_ends naive free heavy light (stillIfNullable_runNode grammar words naive fuel)
      ((advances_moves words).runNode naive fuel) ((goesOnTo_moves words).runNode naive fuel) ?_ ?_
    · intro child lightChild down other same
      refine ih lightChild ?_
      rw [same]
      omega
    · intro child lightChild other fewer
      refine ih lightChild ?_
      have levels := level_lt_mul grammar.rules lightChild
      have scaled := Nat.mul_le_mul_right
        ((grammar.rules.bodies.length + 1) * (heaviest + 1)) (Nat.succ_le_of_lt fewer)
      rw [Nat.succ_mul] at scaled
      omega

end

/-- Without left recursion a node comes to an end with the fuel it is given, from any state, however
choices are made. -/
theorem runNode_ends_of_leftRecursionFree {grammar : Grammar}
    (free : grammar.rules.LeftRecursionFree) (words : Array Word) (naive : Bool) (node : Node)
    (state : State) :
    (grammar.runNode words naive (grammar.fuel words node) node state).isSome := by
  have light : node.weight ≤ grammar.rules.heaviest node := Rules.weight_le_heaviest ..
  have heavy : ∀ rule body, grammar.rules.body? rule = some body →
      body.weight ≤ grammar.rules.heaviest node :=
    fun rule body lookup => Rules.weight_body_le_heaviest node (Rules.mem_bodies lookup)
  apply runNode_ends naive free heavy light
  have levels : level grammar.rules (grammar.rules.heaviest node) node < grammar.depth node :=
    level_lt_mul _ light
  have scaled : left words state.position * grammar.depth node ≤
      words.size * grammar.depth node := Nat.mul_le_mul_right _ (Nat.sub_le ..)
  change _ * grammar.depth node + _ < (words.size + 1) * (grammar.depth node + 1)
  rw [Nat.succ_mul, Nat.mul_succ]
  omega

/-- So what a parse answers is what the run of the node comes to. -/
theorem runNode_eq_parse {grammar : Grammar} (free : grammar.rules.LeftRecursionFree)
    (words : Array Word) (naive : Bool) (node : Node) (state : State) {fuel : Nat}
    (enough : grammar.fuel words node ≤ fuel) :
    grammar.runNode words naive fuel node state = some (grammar.parse words naive node state) := by
  obtain ⟨answer, ran⟩ := Option.isSome_iff_exists.mp
    (runNode_ends_of_leftRecursionFree free words naive node state)
  rw [parse, parseWithin, ran]
  exact runNode_below enough node state answer ran

end Offside.Grammar
