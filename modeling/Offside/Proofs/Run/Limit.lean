import Offside.Proofs.Run.Invariant

/-! # What a node comes to, however long it takes

Fuel bounds how deep runs lie inside each other. A run that ends asks for finitely many others, so
it ends the same way with more fuel, and the limit of all fuels is a run in its own right: one step
over the limit is the limit again. Whoever reasons about ends of runs can leave fuel out of it.
-/

namespace Offside.Grammar

open Parse

/-- Whatever the one run comes to, the other comes to as well. -/
def Below (run other : Runner) : Prop :=
  ∀ node state answer, run node state = some answer → other node state = some answer

/-- What is computed depends on finitely many runs that ended. -/
def Finitary {α : Type} (compute : Runner → Option α) : Prop :=
  ∀ run answer, compute run = some answer →
    ∃ calls : List (Node × State), (∀ call ∈ calls, (run call.1 call.2).isSome) ∧
      ∀ other : Runner, (∀ call ∈ calls, other call.1 call.2 = run call.1 call.2) →
        compute other = some answer

namespace Finitary

variable {α β : Type} {compute : Runner → Option α}

theorem const (answer : Option α) : Finitary fun _ => answer :=
  fun _ _ ended => ⟨[], by simp, fun _ _ => ended⟩

theorem call (node : Node) (state : State) : Finitary fun run => run node state := by
  intro run answer ended
  refine ⟨[(node, state)], by simp [ended], fun other agree => ?_⟩
  rw [← ended]
  exact agree _ (List.mem_singleton_self _)

theorem bind {next : α → Runner → Option β} (first : Finitary compute)
    (second : ∀ answer, Finitary (next answer)) :
    Finitary fun run => (compute run).bind fun answer => next answer run := by
  intro run answer ended
  obtain ⟨middle, begun, ended⟩ := Option.bind_eq_some_iff.mp ended
  obtain ⟨early, earlyEnd, earlyAgree⟩ := first run middle begun
  obtain ⟨late, lateEnd, lateAgree⟩ := second middle run answer ended
  refine ⟨early ++ late, ?_, fun other agree => Option.bind_eq_some_iff.mpr ⟨middle, ?_, ?_⟩⟩
  · intro call member
    exact (List.mem_append.mp member).elim (earlyEnd call) (lateEnd call)
  · exact earlyAgree other fun call member => agree call (List.mem_append_left _ member)
  · exact lateAgree other fun call member => agree call (List.mem_append_right _ member)

theorem map (finitary : Finitary compute) (f : α → β) :
    Finitary fun run => (compute run).map f := by
  have sequence := finitary.bind fun answer => const (some (f answer))
  simpa only [Option.map_eq_bind, Function.comp_def] using sequence

theorem ite {other : Runner → Option α} (condition : Prop) [Decidable condition]
    (yes : Finitary compute) (no : Finitary other) :
    Finitary fun run => if condition then compute run else other run := by
  by_cases holds : condition
  · simpa only [holds, ↓reduceIte] using yes
  · simpa only [holds, ↓reduceIte] using no

/-- More runs that end change nothing about what is computed from those that ended before. -/
theorem of_below (finitary : Finitary compute) {run other : Runner} (below : Below run other)
    {answer : α} (ended : compute run = some answer) : compute other = some answer := by
  obtain ⟨calls, ends, agree⟩ := finitary run answer ended
  refine agree other fun call member => ?_
  obtain ⟨outcome, same⟩ := Option.isSome_iff_exists.mp (ends call member)
  rw [same, below _ _ _ same]

variable (grammar : Grammar) (words : Array Word)

theorem runHealed (node : Node) (state : State) :
    Finitary fun run => grammar.runHealed words run node state := by
  simp only [runHealed_eq]
  exact ite _ ((call node state).map _) (const _)

theorem runAll (nodes : List Node) (state : State) :
    Finitary fun run => runAll run nodes state := by
  induction nodes generalizing state with
  | nil => exact const _
  | cons node rest ih =>
    simp only [runAll_cons]
    exact (call node state).bind fun answer => ite _ (ih answer.2) (const _)

theorem runAny (nodes : List Node) (state : State) :
    Finitary fun run => grammar.runAny words run nodes state := by
  induction nodes generalizing state with
  | nil => exact const _
  | cons node rest ih =>
    simp only [runAny_cons]
    exact (runHealed grammar words node state).bind fun answer => ite _ (const _) (ih answer.2)

theorem runMore (child : Node) (limit : Nat) (state : State) :
    Finitary fun run => grammar.runMore words run child limit state := by
  induction limit generalizing state with
  | zero => exact const none
  | succ limit ih =>
    simp only [runMore_succ]
    exact ite _ ((call child state).bind fun answer => ite _ (ih answer.2) (const _)) (const _)

theorem runFold (kind : Syntax.Kind) (next : Node) (checkpoint limit : Nat) (state : State) :
    Finitary fun run => grammar.runFold words run kind next checkpoint limit state := by
  induction limit generalizing state with
  | zero => exact const none
  | succ limit ih =>
    simp only [runFold_succ]
    exact (runHealed grammar words next state).bind fun answer =>
      ite _ (ite _ (const _) (ih _)) (const _)

theorem skipTo (recovery : Node) (depth limit : Nat) (state : State) :
    Finitary fun run => skipTo words run recovery depth limit state := by
  induction limit generalizing depth state with
  | zero => exact const none
  | succ limit ih =>
    simp only [skipTo_succ]
    cases state.currentKind? words with
    | none => exact const _
    | some kind =>
      exact ite _ ((call recovery state).bind fun answer => ite _ (const _) (ih _ _)) (ih _ _)

theorem step (naive : Bool) (node : Node) (state : State) :
    Finitary fun run => grammar.step words run naive node state := by
  cases node with
  | token | text | empty => exact const _
  | seq _ items => exact runAll items state
  | choice stamp alternatives isOptional =>
    simp only [Grammar.step, runChoice_eq]
    exact (runAny grammar words _ state).map _
  | oneOrMore _ child =>
    simp only [step_oneOrMore]
    exact (call child state).bind fun answer =>
      ite _ (runMore grammar words child _ answer.2) (const _)
  | heal _ child => exact runHealed grammar words child state
  | ahead _ child => exact (call child state).map _
  | symbolic _ kind child =>
    simp only [step_symbolic]
    exact ite _ ((call child _).map _) (const _)
  | fold _ kind start next =>
    simp only [step_fold]
    exact ite _ ((call start state).bind fun answer =>
      ite _ (runFold grammar words kind next _ _ answer.2) (const _)) (const _)
  | cont _ kind start rest =>
    simp only [step_cont]
    exact (call start state).bind fun answer =>
      ite _ ((runHealed grammar words rest answer.2).map _) (const _)
  | ref _ rule =>
    simp only [step_ref]
    cases grammar.rules.body? rule with
    | none => exact const _
    | some body => exact call body state
  | relax _ child message => exact (runHealed grammar words child state).map _
  | relaxTo _ child recovery message =>
    simp only [step_relaxTo]
    exact (runHealed grammar words child state).bind fun answer =>
      ite _ (const _) ((skipTo words recovery _ _ _).map _)

end Finitary

section

variable {grammar : Grammar} {words : Array Word} {naive : Bool}

/-- A run that ended ends the same way with more fuel. -/
theorem runNode_below {fuel more : Nat} (le : fuel ≤ more) :
    Below (grammar.runNode words naive fuel) (grammar.runNode words naive more) := by
  induction fuel generalizing more with
  | zero => intro node state answer ended; cases ended
  | succ fuel ih =>
    obtain ⟨more, rfl⟩ : ∃ less, more = less + 1 := ⟨more - 1, by omega⟩
    intro node state answer ended
    exact (Finitary.step grammar words naive node state).of_below (ih (by omega)) ended

end

section

variable (grammar : Grammar) (words : Array Word) (naive : Bool)

open Classical in
/-- What a node comes to with enough fuel, if any fuel is enough. -/
noncomputable def meaning : Runner := fun node state =>
  if enough : ∃ fuel, (grammar.runNode words naive fuel node state).isSome then
    grammar.runNode words naive enough.choose node state
  else none

end

section

variable {grammar : Grammar} {words : Array Word} {naive : Bool}

/-- The limit comes to what some fuel is enough for. -/
theorem meaning_eq_some_iff {node : Node} {state : State} {answer : Bool × State} :
    grammar.meaning words naive node state = some answer ↔
      ∃ fuel, grammar.runNode words naive fuel node state = some answer := by
  unfold meaning
  constructor
  · intro ended
    split at ended
    · exact ⟨_, ended⟩
    · cases ended
  · rintro ⟨fuel, ended⟩
    have enough : ∃ fuel, (grammar.runNode words naive fuel node state).isSome :=
      ⟨fuel, by rw [ended]; rfl⟩
    rw [dif_pos enough]
    obtain ⟨other, chosen⟩ := Option.isSome_iff_exists.mp enough.choose_spec
    have first := runNode_below (Nat.le_max_left enough.choose fuel) _ _ _ chosen
    have second := runNode_below (Nat.le_max_right enough.choose fuel) _ _ _ ended
    rw [chosen, ← first, second]

theorem runNode_below_meaning (fuel : Nat) :
    Below (grammar.runNode words naive fuel) (grammar.meaning words naive) :=
  fun _ _ _ ended => meaning_eq_some_iff.mpr ⟨fuel, ended⟩

/-- One fuel is enough for finitely many runs that end. -/
theorem exists_fuel (calls : List (Node × State))
    (ends : ∀ call ∈ calls, (grammar.meaning words naive call.1 call.2).isSome) :
    ∃ fuel, ∀ call ∈ calls,
      grammar.runNode words naive fuel call.1 call.2 =
        grammar.meaning words naive call.1 call.2 := by
  induction calls with
  | nil => exact ⟨0, by simp⟩
  | cons call rest ih =>
    obtain ⟨fuel, enough⟩ := ih fun other member => ends other (List.mem_cons_of_mem _ member)
    obtain ⟨answer, ended⟩ := Option.isSome_iff_exists.mp (ends call (List.mem_cons_self ..))
    obtain ⟨own, ran⟩ := meaning_eq_some_iff.mp ended
    refine ⟨max own fuel, fun other member => ?_⟩
    rcases List.mem_cons.mp member with rfl | later
    · rw [ended, runNode_below (Nat.le_max_left own fuel) _ _ _ ran]
    · obtain ⟨answer, ended⟩ := Option.isSome_iff_exists.mp (ends other member)
      have ran := (enough other later).trans ended
      rw [ended, runNode_below (Nat.le_max_right own fuel) _ _ _ ran]

/-- One step over the limit is the limit. -/
theorem step_meaning (node : Node) (state : State) :
    grammar.step words (grammar.meaning words naive) naive node state =
      grammar.meaning words naive node state := by
  ext answer
  constructor
  · intro ended
    obtain ⟨calls, ends, agree⟩ := Finitary.step grammar words naive node state _ _ ended
    obtain ⟨fuel, enough⟩ := exists_fuel calls ends
    exact meaning_eq_some_iff.mpr ⟨fuel + 1, agree _ enough⟩
  · intro ended
    obtain ⟨fuel, ran⟩ := meaning_eq_some_iff.mp ended
    cases fuel with
    | zero => cases ran
    | succ fuel =>
      exact (Finitary.step grammar words naive node state).of_below
        (runNode_below_meaning fuel) ran

/-- What the moves keep, the limit keeps. -/
theorem KeptByMoves.meaning {rel : State → State → Prop} (moves : KeptByMoves words rel) :
    Keeps rel (grammar.meaning words naive) := by
  intro node state answer ended
  obtain ⟨fuel, ran⟩ := meaning_eq_some_iff.mp ended
  exact moves.runNode naive fuel _ _ _ ran

end

end Offside.Grammar
