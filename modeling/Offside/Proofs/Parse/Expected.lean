import Mathlib.Data.List.Induction
import Offside.Proofs.Run.Trail
import Offside.Proofs.Token.KindSet

/-! # What was expected where a parse got furthest

A parse remembers one place at which words were refused, the furthest, and what would have been
taken there. The cursor may go back from that place any number of times; what is refused in front of
it is not remembered, and what is refused behind it makes the parse forget what it remembered.

Beside this stands the list of all refusals in the order in which they were reported, without those
reported while a probe ran. Whatever was done to a parse, what it remembers is a summary of that
list.
-/

namespace Offside.Parse

open Token (Kind KindSet)

/-- What is done to a parse. To set a point to go back to and to give it up are not listed: neither
changes anything, and going back to any point whatsoever is. -/
inductive Action where
  | bump
  /-- Takes the next word if it is of a kind. -/
  | eat (kind : Kind)
  /-- Takes the next word if it is of a kind and reads `text`. -/
  | eatText (kind : Kind) (text : String)
  /-- Notes that one of `kinds` would have been taken. -/
  | expect (kinds : KindSet)
  /-- Starts or finishes a node, or reports something. -/
  | record (event : Event)
  /-- Opens a node around everything recorded since a checkpoint. -/
  | wrapAt (checkpoint : Nat) (kind : Syntax.Kind)
  /-- Turns the start of a node that came to nothing into an event without effect. -/
  | abandon (place : Nat)
  | rollback (marker : Marker)
  | probe (actions : List Action)

mutual

/-- The state after an action. -/
def State.perform (words : Array Word) (state : State) : Action → State
  | .bump => state.bump words
  | .eat kind => (state.eat words kind).2
  | .eatText kind text => (state.eatText words kind text).2
  | .expect kinds => state.expect kinds
  | .record event => state.record event
  | .wrapAt checkpoint kind => state.wrapAt checkpoint kind
  | .abandon place => state.abandon place
  | .rollback marker => state.rollback marker
  | .probe actions => (state.probe fun state => ((), state.performAll words actions)).2

/-- The state after some actions. -/
def State.performAll (words : Array Word) (state : State) : List Action → State
  | [] => state
  | action :: rest => (state.perform words action).performAll words rest

end

/-- What would have been taken in place of a word. -/
inductive Wanted where
  | kinds (kinds : KindSet)
  | text (text : String)
deriving DecidableEq

/-- The refusal of a word. -/
structure Refusal where
  position : Nat
  wanted : Wanted
deriving DecidableEq

namespace Refusal

/-- The kinds of tokens that would have been taken. -/
def kinds (refusal : Refusal) : KindSet :=
  match refusal.wanted with
  | .kinds kinds => kinds
  | .text _ => .empty

/-- The text that would have been taken. -/
def text? (refusal : Refusal) : Option String :=
  match refusal.wanted with
  | .kinds _ => none
  | .text text => some text

end Refusal

/-- What an action refuses. A probe takes back what was refused while it ran. -/
def Action.refusal? (words : Array Word) (state : State) : Action → Option Refusal
  | .eat kind =>
    if (state.eat words kind).1 then none else some ⟨state.position, .kinds (.single kind)⟩
  | .eatText kind text =>
    if (state.eatText words kind text).1 then none else some ⟨state.position, .text text⟩
  | .expect kinds => some ⟨state.position, .kinds kinds⟩
  | _ => none

/-- What some actions refuse, in the order of report. -/
def refusals (words : Array Word) (state : State) : List Action → List Refusal
  | [] => []
  | action :: rest =>
    (action.refusal? words state).toList ++ refusals words (state.perform words action) rest

/-- The furthest place at which a word was refused, or the first if none was. -/
def furthest (refused : List Refusal) : Nat := (refused.map Refusal.position).foldl max 0

/-- The refusals at the furthest place. -/
def atFurthest (refused : List Refusal) : List Refusal :=
  refused.filter (·.position = furthest refused)

/-- What there is to remember of some refusals. -/
def Failure.ofRefusals (refused : List Refusal) : Failure where
  position := furthest refused
  kinds := (atFurthest refused).foldl (fun kinds refusal => kinds.union refusal.kinds) .empty
  texts := ((atFurthest refused).filterMap Refusal.text?).eraseDups

section

variable {words : Array Word} {state : State} {refused : List Refusal} {refusal : Refusal}

theorem furthest_concat (refused : List Refusal) (refusal : Refusal) :
    furthest (refused ++ [refusal]) = max (furthest refused) refusal.position := by
  simp [furthest]

theorem position_le_furthest (member : refusal ∈ refused) :
    refusal.position ≤ furthest refused := by
  induction refused using List.reverseRecOn with
  | nil => cases member
  | append_singleton before last ih =>
    rw [furthest_concat]
    rcases List.mem_append.mp member with early | late
    · exact Nat.le_trans (ih early) (Nat.le_max_left ..)
    · obtain rfl := List.mem_singleton.mp late
      exact Nat.le_max_right ..

/-! ## One more refusal -/

/-- A refusal in front of the furthest place is not remembered. -/
theorem ofRefusals_concat_of_lt (behind : refusal.position < furthest refused) :
    Failure.ofRefusals (refused ++ [refusal]) = .ofRefusals refused := by
  have place : furthest (refused ++ [refusal]) = furthest refused := by
    rw [furthest_concat]
    exact Nat.max_eq_left (Nat.le_of_lt behind)
  have here : atFurthest (refused ++ [refusal]) = atFurthest refused := by
    simp [atFurthest, place, Nat.ne_of_lt behind]
  simp only [Failure.ofRefusals, place, here]

/-- A refusal at the furthest place is remembered with the others, a text only once. -/
theorem ofRefusals_concat_of_eq (same : refusal.position = furthest refused) :
    Failure.ofRefusals (refused ++ [refusal]) =
      ⟨refusal.position, (Failure.ofRefusals refused).kinds.union refusal.kinds,
        (Failure.ofRefusals refused).texts ++
          refusal.text?.toList.filter (· ∉ (Failure.ofRefusals refused).texts)⟩ := by
  have place : furthest (refused ++ [refusal]) = furthest refused := by
    rw [furthest_concat, same]
    exact Nat.max_self _
  have here : atFurthest (refused ++ [refusal]) = atFurthest refused ++ [refusal] := by
    simp [atFurthest, place, same]
  simp only [Failure.ofRefusals, place, here, same, List.foldl_append, List.foldl_cons,
    List.foldl_nil, List.filterMap_append, List.mem_eraseDups]
  congr 1
  generalize (atFurthest refused).filterMap Refusal.text? = texts
  cases found : refusal.text? with
  | none => simp [found]
  | some text =>
    have one : [refusal].filterMap Refusal.text? = [text] := by simp [found]
    rw [one, List.eraseDups_append]
    by_cases early : text ∈ texts <;> simp [early, List.removeAll, List.eraseDups_cons]

/-- A refusal further on is the only one remembered. -/
theorem ofRefusals_concat_of_gt (ahead : furthest refused < refusal.position) :
    Failure.ofRefusals (refused ++ [refusal]) =
      ⟨refusal.position, refusal.kinds, refusal.text?.toList⟩ := by
  have place : furthest (refused ++ [refusal]) = refusal.position := by
    rw [furthest_concat]
    exact Nat.max_eq_right (Nat.le_of_lt ahead)
  have none : refused.filter (·.position = refusal.position) = [] := by
    refine List.filter_eq_nil_iff.mpr fun other member same => ?_
    have bound := position_le_furthest member
    simp only [decide_eq_true_eq] at same
    omega
  have here : atFurthest (refused ++ [refusal]) = [refusal] := by
    simp [atFurthest, place, none]
  simp only [Failure.ofRefusals, place, here, List.foldl_cons, List.foldl_nil,
    KindSet.empty_union]
  cases found : refusal.text? <;> simp [found, List.eraseDups_cons]

/-! ## What a parse remembers -/

theorem failure_expect_eq (remembered : state.failure = .ofRefusals refused) (kinds : KindSet) :
    (state.expect kinds).failure = .ofRefusals (refused ++ [⟨state.position, .kinds kinds⟩]) := by
  have place : state.failure.position = furthest refused := congrArg Failure.position remembered
  rcases Nat.lt_trichotomy state.position (furthest refused) with behind | same | ahead
  · rw [ofRefusals_concat_of_lt behind, ← remembered]
    simp [State.failure_expect, place, Nat.ne_of_lt behind,
      Nat.not_lt_of_gt behind]
  · rw [ofRefusals_concat_of_eq same, ← remembered]
    simp [State.failure_expect, place, same, Refusal.kinds, Refusal.text?]
  · rw [ofRefusals_concat_of_gt ahead]
    simp [State.failure_expect, place, ahead, Refusal.kinds, Refusal.text?]

theorem failure_expectText_eq (remembered : state.failure = .ofRefusals refused) (text : String) :
    (state.expectText text).failure = .ofRefusals (refused ++ [⟨state.position, .text text⟩]) := by
  have place : state.failure.position = furthest refused := congrArg Failure.position remembered
  rcases Nat.lt_trichotomy state.position (furthest refused) with behind | same | ahead
  · rw [ofRefusals_concat_of_lt behind, ← remembered]
    simp [State.failure_expectText, place, Nat.ne_of_lt behind,
      Nat.not_lt_of_gt behind]
  · rw [ofRefusals_concat_of_eq same, ← remembered]
    have here : state.failure.position = state.position := place.trans same.symm
    by_cases early : text ∈ state.failure.texts <;>
      simp [State.failure_expectText, ← here, early, Refusal.kinds, Refusal.text?]
  · rw [ofRefusals_concat_of_gt ahead]
    simp [State.failure_expectText, place, ahead, Refusal.kinds, Refusal.text?]

/-- An action adds what it refuses to what is remembered, and a probe adds nothing. -/
theorem failure_perform (remembered : state.failure = .ofRefusals refused) (action : Action) :
    (state.perform words action).failure =
      .ofRefusals (refused ++ (action.refusal? words state).toList) := by
  -- What refuses nothing leaves alone what is remembered.
  have kept {after : State} (same : after.failure = state.failure) :
      after.failure = .ofRefusals (refused ++ []) := by
    rw [List.append_nil, same, remembered]
  cases action with
  | bump => exact kept (state.failure_bump words)
  | eat kind =>
    simp only [State.perform, State.eat, Action.refusal?]
    split
    · exact kept (state.failure_bump words)
    · exact failure_expect_eq remembered (.single kind)
  | eatText kind text =>
    simp only [State.perform, State.eatText, Action.refusal?]
    split
    · exact kept (state.failure_bump words)
    · exact failure_expectText_eq remembered text
  | expect kinds => exact failure_expect_eq remembered kinds
  | record event => exact kept rfl
  | wrapAt checkpoint kind => exact kept rfl
  | abandon place => exact kept (state.failure_abandon place)
  | rollback marker => exact kept rfl
  | probe actions => exact kept rfl

/-- After any actions a parse remembers the summary of all refusals. -/
theorem failure_performAll (remembered : state.failure = .ofRefusals refused)
    (actions : List Action) :
    (state.performAll words actions).failure =
      .ofRefusals (refused ++ refusals words state actions) := by
  induction actions generalizing state refused with
  | nil => simpa [State.performAll, refusals] using remembered
  | cons action rest ih =>
    rw [State.performAll, refusals, ← List.append_assoc]
    exact ih (failure_perform remembered action)

/-! ## What is listed -/

theorem contains_foldl_union (refused : List Refusal) (kinds : KindSet) (kind : Kind) :
    (refused.foldl (fun kinds refusal => kinds.union refusal.kinds) kinds).contains kind = true ↔
      kinds.contains kind = true ∨ ∃ refusal ∈ refused, refusal.kinds.contains kind = true := by
  induction refused generalizing kinds with
  | nil => simp
  | cons refusal rest ih =>
    rw [List.foldl_cons, ih]
    simp [or_assoc]

/-- The kinds remembered are those of the refusals at the furthest place. -/
theorem contains_kinds_ofRefusals (refused : List Refusal) (kind : Kind) :
    (Failure.ofRefusals refused).kinds.contains kind = true ↔
      ∃ refusal ∈ atFurthest refused, refusal.kinds.contains kind = true := by
  rw [Failure.ofRefusals, contains_foldl_union]
  simp

theorem furthest_eq_of_perm {other : List Refusal} (reordered : other.Perm refused) :
    furthest other = furthest refused := by
  refine (reordered.map Refusal.position).foldl_eq' ?_ 0
  intro first _ second _ place
  rw [Nat.max_assoc, Nat.max_comm first second, ← Nat.max_assoc]

/-- In whatever order words are refused, the same kinds are remembered. -/
theorem kinds_ofRefusals_eq_of_perm {other : List Refusal} (reordered : other.Perm refused) :
    (Failure.ofRefusals other).kinds = (Failure.ofRefusals refused).kinds := by
  apply KindSet.ext_of_contains
  intro kind
  rw [Bool.eq_iff_iff, contains_kinds_ofRefusals, contains_kinds_ofRefusals]
  simp only [atFurthest, furthest_eq_of_perm reordered, (reordered.filter _).mem_iff]

end

/-- Whatever is done to a parse, with any points gone back to and any probes, the furthest refusal
is at the furthest place at which a word was refused outside of a probe. A parse given up there
lists the kinds refused there, each once and in order of declaration, and then the texts refused
there, each where it was refused first. Which kinds are listed does not depend on the order in which
the words were refused. -/
theorem expected_at_furthest_refusal (words : Array Word) (actions : List Action) :
    let state := State.start.performAll words actions
    let refused := refusals words .start actions
    let here := refused.filter (·.position = state.failure.position)
    let kinds := state.failure.kinds.toList
    let outcome := state.outcome false
    state.failure.position = (refused.map Refusal.position).foldl max 0 ∧
      outcome.position = max state.failure.position state.position ∧
      (outcome.expected =
        if outcome.position = state.failure.position then
          kinds.map Kind.description ++
            (here.filterMap Refusal.text?).eraseDups.map fun text => s!"`{text}`"
        else []) ∧
      kinds.Pairwise (fun first second => first.index < second.index) ∧
      (∀ kind, kind ∈ kinds ↔ ∃ refusal ∈ here, refusal.kinds.contains kind = true) ∧
      ∀ otherWords others, (refusals otherWords .start others).Perm refused →
        (State.start.performAll otherWords others).failure.kinds.toList = kinds := by
  have remembered (words : Array Word) (actions : List Action) :
      (State.start.performAll words actions).failure =
        .ofRefusals (refusals words .start actions) := by
    have nothing : State.start.failure = .ofRefusals [] := rfl
    exact failure_performAll nothing actions
  intro state refused here kinds outcome
  have failure : state.failure = .ofRefusals refused := remembered words actions
  have listed : here = atFurthest refused := by
    simp only [here, failure, Failure.ofRefusals, atFurthest]
  refine ⟨congrArg Failure.position failure, rfl, ?_, KindSet.pairwise_toList _, ?_, ?_⟩
  · have texts : state.failure.texts = (here.filterMap Refusal.text?).eraseDups :=
      listed ▸ congrArg Failure.texts failure
    rw [← texts]
    rfl
  · intro kind
    rw [listed, ← contains_kinds_ofRefusals, ← failure]
    exact KindSet.mem_toList
  · intro otherWords others reordered
    have same := kinds_ofRefusals_eq_of_perm reordered
    rw [← remembered otherWords others, ← failure] at same
    exact congrArg KindSet.toList same

/-- A parse takes a word, is refused three times behind it, goes back, is refused in front of it and
looks ahead. Refused in another order, the same kinds are listed. -/
theorem expected_behind_first_word :
    let words : Array Word := #[⟨.lowerName, "a"⟩, ⟨.lowerName, "b"⟩]
    let actions : List Action := [.bump, .eat .doubleColon, .eatText .lowerName "as",
      .eat .leftParen, .rollback ⟨0, 0, 0⟩, .eat .kwModule, .probe [.bump, .bump, .eat .comma]]
    let others : List Action := [.eat .kwModule, .bump, .eat .leftParen, .eatText .lowerName "as",
      .eat .doubleColon]
    (State.start.performAll words actions).outcome false =
        ⟨false, 1, ["`(`", "`::`", "`as`"]⟩ ∧
      (State.start.performAll words others).failure.kinds.toList =
        (State.start.performAll words actions).failure.kinds.toList := by
  intro words actions others
  obtain ⟨-, -, -, -, -, unordered⟩ := expected_at_furthest_refusal words actions
  have reordered : (refusals words .start others).Perm (refusals words .start actions) := by
    decide +kernel
  exact ⟨by decide +kernel, unordered words others reordered⟩

end Offside.Parse
