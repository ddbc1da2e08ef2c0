import Offside.Proofs.Run.Prediction

/-! # Effects

Leaving out what decides nothing, a node is a function from trails to an answer and a trail. These
effects have an algebra of their own: they follow each other, are attempted, and stand in for each
other. Sequences and choices are what the algebra makes of the effects of their parts, and the check
in front of an attempt is not visible in it.

One law carries the merging of alternatives: attempts that begin alike may share their beginning.
-/

namespace Offside.Grammar

open Parse
open Token (Kind KindSet)

/-- What a node does to a trail, if it comes to an end. -/
abbrev Effect := Trail → Option (Bool × Trail)

namespace Effect

/-- Matches and does nothing. -/
def succeed : Effect := fun trail => some (true, trail)

/-- Fails and does nothing. -/
def fail : Effect := fun trail => some (false, trail)

/-- The effect, undone if it fails. -/
def attempt (effect : Effect) : Effect := fun trail =>
  (effect trail).map fun answer => (answer.1, if answer.1 then answer.2 else trail)

/-- The second effect behind the first, if that matched. -/
def andThen (first second : Effect) : Effect := fun trail =>
  (first trail).bind fun answer => if answer.1 then second answer.2 else some answer

/-- The second effect behind the first, if that failed. -/
def orElse (first second : Effect) : Effect := fun trail =>
  (first trail).bind fun answer => if answer.1 then some answer else second answer.2

/-- Effects one behind the other up to the first that fails. -/
def all (effects : List Effect) : Effect := effects.foldr andThen succeed

/-- Attempts one after the other up to the first that matches. -/
def firstOf (effects : List Effect) : Effect :=
  effects.foldr (fun effect rest => effect.attempt.orElse rest) fail

/-- The effect, or nothing if that is allowed. -/
def orNothing (effect : Effect) (isOptional : Bool) : Effect :=
  effect.orElse fun trail => some (isOptional, trail)

variable (first second third : Effect)

theorem andThen_succeed : first.andThen succeed = first := by
  funext trail
  unfold andThen succeed
  cases first trail using answer_cases <;> rfl

theorem andThen_assoc :
    (first.andThen second).andThen third = first.andThen (second.andThen third) := by
  funext trail
  unfold andThen
  cases first trail using answer_cases <;> rfl

theorem orElse_fail : first.orElse fail = first := by
  funext trail
  unfold orElse fail
  cases first trail using answer_cases <;> rfl

theorem orElse_assoc : (first.orElse second).orElse third = first.orElse (second.orElse third) := by
  funext trail
  unfold orElse
  cases first trail using answer_cases <;> rfl

theorem attempt_attempt : first.attempt.attempt = first.attempt := by
  funext trail
  unfold attempt
  cases first trail using answer_cases <;> rfl

/-- What matches whenever it ends leaves nothing to what would stand in for it. -/
theorem orNothing_true_orElse : (first.orNothing true).orElse second = first.orNothing true := by
  funext trail
  unfold orNothing orElse
  cases first trail using answer_cases <;> rfl

theorem orNothing_false : first.orNothing false = first := orElse_fail first

/-- Attempts that begin alike may share their beginning. -/
theorem attempt_andThen_orElse :
    (first.andThen second).attempt.orElse (first.andThen third).attempt =
      (first.andThen (second.attempt.orElse third)).attempt := by
  funext trail
  simp only [attempt, andThen, orElse]
  cases begun : first trail using answer_cases with
  | none => rfl
  | failed middle => simp [begun]
  | matched middle => cases ended : second middle using answer_cases <;> simp [begun, ended]

/-- What is undone anyway need not be undone before. -/
theorem attempt_andThen_attempt :
    (first.andThen second.attempt).attempt = (first.andThen second).attempt := by
  funext trail
  unfold attempt andThen
  cases first trail using answer_cases with
  | none | failed => rfl
  | matched middle =>
    simp only [Option.bind_some, ↓reduceIte]
    cases second middle using answer_cases <;> rfl

theorem all_cons (effects : List Effect) : all (first :: effects) = first.andThen (all effects) :=
  rfl

theorem all_singleton : all [first] = first := andThen_succeed first

theorem all_append (effects more : List Effect) :
    all (effects ++ more) = (all effects).andThen (all more) := by
  induction effects with
  | nil => rfl
  | cons effect rest ih => rw [List.cons_append, all_cons, all_cons, ih, andThen_assoc]

theorem firstOf_cons (effects : List Effect) :
    firstOf (first :: effects) = first.attempt.orElse (firstOf effects) := rfl

theorem firstOf_singleton : firstOf [first] = first.attempt := orElse_fail _

theorem firstOf_append (effects more : List Effect) :
    firstOf (effects ++ more) = (firstOf effects).orElse (firstOf more) := by
  induction effects with
  | nil => rfl
  | cons effect rest ih => rw [List.cons_append, firstOf_cons, firstOf_cons, ih, orElse_assoc]

/-- If all attempts fail, nothing is left of them. -/
theorem trail_of_firstOf {effects : List Effect} {trail after : Trail}
    (ended : firstOf effects trail = some (false, after)) : after = trail := by
  induction effects generalizing trail with
  | nil =>
    cases ended
    rfl
  | cons effect rest ih =>
    rw [firstOf_cons] at ended
    obtain ⟨⟨matched, middle⟩, ran, ended⟩ := Option.bind_eq_some_iff.mp ended
    cases matched with
    | true => simp at ended
    | false =>
      have back : middle = trail := by
        obtain ⟨answer, -, same⟩ := Option.map_eq_some_iff.mp ran
        obtain ⟨failed, rfl⟩ := Prod.mk.injEq .. ▸ same
        simp [failed]
      rw [← back]
      exact ih ended

theorem attempt_orNothing_firstOf (effects : List Effect) (isOptional : Bool) :
    ((firstOf effects).orNothing isOptional).attempt = (firstOf effects).orNothing isOptional := by
  funext trail
  unfold attempt orNothing orElse
  cases ended : firstOf effects trail using answer_cases with
  | none | matched => rfl
  | failed after => cases isOptional <;> simp [trail_of_firstOf ended]

/-- Attempts that all begin alike come to one attempt of the beginning and what follows. -/
theorem firstOf_map_andThen {effects : List Effect} (some : effects ≠ []) :
    firstOf (effects.map first.andThen) = (first.andThen (firstOf effects)).attempt := by
  induction effects with
  | nil => cases some rfl
  | cons effect rest ih =>
    cases rest with
    | nil => rw [List.map_singleton, firstOf_singleton, firstOf_singleton, attempt_andThen_attempt]
    | cons next rest =>
      rw [List.map_cons, firstOf_cons, ih (List.cons_ne_nil next rest), attempt_andThen_orElse,
        ← firstOf_cons]

/-- Only what the effects do when attempted matters to attempts in order. -/
theorem firstOf_map_congr {α : Type} {items : List α} {effect other : α → Effect}
    (same : ∀ item ∈ items, (effect item).attempt = (other item).attempt) :
    firstOf (items.map effect) = firstOf (items.map other) := by
  induction items with
  | nil => rfl
  | cons item rest ih =>
    rw [List.map_cons, List.map_cons, firstOf_cons, firstOf_cons,
      same item (List.mem_cons_self ..), ih fun other member => same other (.tail _ member)]

end Effect

/-! ## The effects of nodes -/

/-- What can be seen of an answer. -/
def seen (answer : Bool × State) : Bool × Trail := (answer.1, answer.2.trail)

section

variable (grammar : Grammar) (words : Array Word) (naive : Bool)

/-- What a node does to a trail. -/
noncomputable def effect (node : Node) : Effect := fun trail =>
  (grammar.meaning words naive node (State.start.follow trail)).map seen

/-- Kind of the next word. -/
def kindAt (trail : Trail) : Option Kind := words[trail.position]?.map Word.kind

end

section

variable {grammar : Grammar} {words : Array Word} {naive : Bool}

theorem currentKind?_eq_kindAt (state : State) :
    state.currentKind? words = kindAt words state.trail := rfl

theorem seen_eq_of_same {answer other : Bool × State}
    (same : SameAnswer SameTrail SameTrail answer other) : seen answer = seen other := by
  cases same with
  | matched same | failed same => exact congrArg (Prod.mk _) same

theorem same_of_seen_eq {answer other : Bool × State} (same : seen answer = seen other) :
    SameAnswer SameTrail SameTrail answer other := by
  obtain ⟨matched, state⟩ := answer
  obtain ⟨matched', state'⟩ := other
  obtain ⟨rfl, trails⟩ := Prod.mk.inj same
  cases matched with
  | true => exact .matched trails
  | false => exact .failed trails

/-- Runs that come to the same answers on the same trails look the same. -/
theorem map_seen_eq {first second : Option (Bool × State)}
    (left : Within (SameAnswer SameTrail SameTrail) first second)
    (right : Within (SameAnswer SameTrail SameTrail) second first) :
    first.map seen = second.map seen := by
  cases first with
  | some answer =>
    obtain ⟨other, rfl, same⟩ := left answer rfl
    exact congrArg some (seen_eq_of_same same)
  | none =>
    cases second with
    | none => rfl
    | some other =>
      obtain ⟨answer, impossible, -⟩ := right other rfl
      cases impossible

/-- Runs that look the same come to the same answers on the same trails. -/
theorem within_of_map_seen_eq {first second : Option (Bool × State)}
    (same : first.map seen = second.map seen) :
    Within (SameAnswer SameTrail SameTrail) first second := by
  rintro answer rfl
  obtain ⟨other, rfl, looks⟩ := Option.map_eq_some_iff.mp same.symm
  exact ⟨other, rfl, same_of_seen_eq looks.symm⟩

/-- In any state, a node has the effect it has on the state's trail. -/
theorem map_seen_meaning (node : Node) (state : State) :
    (grammar.meaning words naive node state).map seen =
      grammar.effect words naive node state.trail := by
  have same : SameTrail state (State.start.follow state.trail) := (State.trail_follow ..).symm
  have simulates : Simulates SameTrail SameTrail (grammar.meaning words naive)
      (grammar.meaning words naive) := (sameTrail_alike words).meaning naive
  exact map_seen_eq (simulates node _ _ same) (simulates node _ _ same.symm)

/-- One step of a node, seen as an effect. -/
theorem map_seen_step (node : Node) (trail : Trail) :
    grammar.effect words naive node trail =
      (grammar.step words (grammar.meaning words naive) naive node
        (State.start.follow trail)).map seen := by
  rw [step_meaning]
  rfl

variable (grammar words naive) in
/-- A healed run is an attempt: the check in front of it cannot be seen. -/
theorem map_seen_runHealed (node : Node) (state : State) :
    (grammar.runHealed words (grammar.meaning words naive) node state).map seen =
      (grammar.effect words naive node).attempt state.trail := by
  rw [Effect.attempt, ← map_seen_meaning]
  cases starts : grammar.starts words node state with
  | false =>
    obtain ⟨after, ran, -⟩ : Fails (grammar.meaning words naive) node state :=
      fails_of_not_starts starts
    rw [runHealed_eq, starts, ran]
    simp [seen, refused]
  | true =>
    rw [runHealed_eq, starts]
    simp only [↓reduceIte, Option.map_map]
    cases ended : grammar.meaning words naive node state with
    | none => rfl
    | some answer =>
      have back := rollback_meaning ended
      obtain ⟨matched, after⟩ := answer
      cases matched with
      | true => rfl
      | false => simpa [seen, kept] using back

variable (grammar words naive) in
theorem map_seen_runAll (nodes : List Node) (state : State) :
    (runAll (grammar.meaning words naive) nodes state).map seen =
      Effect.all (nodes.map (grammar.effect words naive)) state.trail := by
  induction nodes generalizing state with
  | nil => rfl
  | cons node rest ih =>
    rw [runAll_cons, List.map_cons, Effect.all_cons, Effect.andThen, ← map_seen_meaning]
    cases grammar.meaning words naive node state using answer_cases with
    | none | failed => rfl
    | matched after => exact ih after

theorem map_seen_runAny (nodes : List Node) (state : State) :
    (grammar.runAny words (grammar.meaning words naive) nodes state).map seen =
      Effect.firstOf (nodes.map (grammar.effect words naive)) state.trail := by
  induction nodes generalizing state with
  | nil => rfl
  | cons node rest ih =>
    rw [runAny_cons, List.map_cons, Effect.firstOf_cons, Effect.orElse, ← map_seen_runHealed]
    cases grammar.runHealed words (grammar.meaning words naive) node state using answer_cases with
    | none | matched => rfl
    | failed after => exact ih after

@[simp] theorem effect_empty (stamp : Stamp) :
    grammar.effect words naive (.empty stamp) = Effect.succeed := by
  funext trail
  rw [map_seen_step]
  simp [step, seen, Effect.succeed]

/-- A sequence is its items one behind the other. -/
theorem effect_seq (stamp : Stamp) (items : List Node) :
    grammar.effect words naive (.seq stamp items) =
      Effect.all (items.map (grammar.effect words naive)) := by
  funext trail
  have run := map_seen_runAll grammar words naive items (State.start.follow trail)
  rw [State.trail_follow] at run
  rw [map_seen_step]
  exact run

/-- A healed node is attempted. -/
theorem effect_heal (stamp : Stamp) (child : Node) :
    grammar.effect words naive (.heal stamp child) =
      (grammar.effect words naive child).attempt := by
  funext trail
  have run := map_seen_runHealed grammar words naive child (State.start.follow trail)
  rw [State.trail_follow] at run
  rw [map_seen_step]
  exact run

variable (grammar words naive) in
/-- A choice attempts the alternatives it tries, and matches nothing if it is optional. -/
theorem map_seen_runChoice (flag : Bool) (stamp : Stamp) (alternatives : List Node)
    (isOptional : Bool) (state : State) :
    (grammar.runChoice words (grammar.meaning words naive) flag stamp alternatives isOptional
        state).map seen =
      (Effect.firstOf ((grammar.tried flag stamp alternatives (kindAt words state.trail)).map
        (grammar.effect words naive))).orNothing isOptional state.trail := by
  rw [runChoice_eq, currentKind?_eq_kindAt, Effect.orNothing, Effect.orElse, ← map_seen_runAny]
  cases grammar.runAny words (grammar.meaning words naive) _ state using answer_cases with
  | none | matched => rfl
  | failed after =>
    simp only [Option.map_some, chosen, Bool.false_eq_true, ↓reduceIte, seen, Option.bind_some]
    split <;> simp

theorem effect_choice (stamp : Stamp) (alternatives : List Node) (isOptional : Bool)
    (trail : Trail) :
    grammar.effect words naive (.choice stamp alternatives isOptional) trail =
      (Effect.firstOf ((grammar.tried naive stamp alternatives (kindAt words trail)).map
        (grammar.effect words naive))).orNothing isOptional trail := by
  have run := map_seen_runChoice grammar words naive naive stamp alternatives isOptional
    (State.start.follow trail)
  rw [State.trail_follow] at run
  rw [map_seen_step]
  exact run

end

end Offside.Grammar
