import Offside.Parse.Whole
import Offside.Proofs.Parse.Log
import Offside.Proofs.Run.Limit

/-! # The log of a whole file

Whatever the grammar came to, every word is taken in the end, once: by the grammar, behind it up to
the furthest word refused, or in the error node that holds the rest. All of it goes on from the
start of the root node, so the log is one node around what was added.
-/

namespace Offside.Parse

open Source Token

variable {words : Array Word}

/-- Words are taken as long as there are any. -/
theorem positions_moves (words : Array Word) :
    Grammar.KeptByMoves words fun state after =>
      state.position ≤ words.size → after.position ≤ words.size where
  refl _ := id
  trans first second bounded := second (first bounded)
  bump state bounded := by
    unfold State.bump State.atEnd
    split
    · exact bounded
    · next ahead => exact Nat.succ_le_of_lt (by simpa using ahead)
  expect state kinds bounded := by
    have same : (state.expect kinds).position = state.position :=
      congrArg Trail.position (State.trail_expect state kinds)
    rwa [same]
  expectText state text bounded := by
    have same : (state.expectText text).position = state.position :=
      congrArg Trail.position (State.trail_expectText state text)
    rwa [same]
  report _ _ _ _ := id
  node inner := inner
  abandon {state after kind} inner bounded := by
    have same : (after.abandon state.checkpoint).position = after.position := by
      unfold State.abandon
      split <;> rfl
    rw [same]
    exact inner bounded
  wrap _ onward := onward
  undo _ := id
  forget _ := id

/-! ## The rest of the input -/

/-- Words set apart in an error node, if there are any. -/
def apart (count : Nat) : List Event :=
  if count = 0 then [] else .start .error :: (List.replicate count .token ++ [.finish])

theorem State.trail_bumpTimes (count : Nat) {state : State}
    (enough : state.position + count ≤ words.size) :
    (state.bumpTimes words count).trail = state.trail.append (List.replicate count .token) [] := by
  induction count generalizing state with
  | zero => exact (Trail.append_nil _).symm
  | succ count ih =>
    have inside : state.position < words.size := by omega
    have next : state.current? words = some words[state.position] :=
      Array.getElem?_eq_getElem inside
    have position : (state.bump words).position = state.position + 1 :=
      congrArg Trail.position (State.trail_bump_of_word next)
    rw [State.bumpTimes, ih (by omega), State.trail_bump_of_word next, Trail.append_append]
    rfl

theorem State.trail_setApart {state : State} {index : Nat} (bounded : state.position ≤ words.size)
    (reached : state.position ≤ index) :
    (state.setApart words index).trail = state.trail.append
      (List.replicate (min index words.size - state.position) .token ++
        apart (words.size - min index words.size)) [] := by
  have taken : (state.bumpTimes words (min index words.size - state.position)).trail = _ :=
    State.trail_bumpTimes _ (by omega)
  unfold State.setApart
  dsimp only
  generalize state.bumpTimes words (min index words.size - state.position) = behind at taken
  have position : behind.position = min index words.size := by
    have moved := congrArg Trail.position taken
    simp only [State.trail, Trail.append, List.count_replicate_self] at moved
    omega
  split
  · next atEnd =>
    have none : words.size - min index words.size = 0 := by
      have all : words.size ≤ behind.position := of_decide_eq_true atEnd
      omega
    rw [taken, none]
    simp [apart]
  · next ahead =>
    have some : words.size - min index words.size ≠ 0 := by
      have left : ¬words.size ≤ behind.position := fun all => ahead (decide_eq_true all)
      omega
    rw [trail_record, State.trail_bumpTimes _ (by change behind.position + _ ≤ _; omega),
      trail_record, taken, position, apart, if_neg some]
    simp [Trail.record, Trail.append, Nat.add_assoc]

theorem State.position_le_outcome (state : State) (success : Bool) :
    state.position ≤ (state.outcome success).position := by
  unfold State.outcome
  split
  · exact Nat.le_refl _
  · exact Nat.le_max_right ..

theorem grows_apart (base count : Nat) : Grows base (apart count) [] := by
  unfold apart
  split
  · exact .nil
  · exact (Grows.words (base + 1) count).node .error

theorem nested_apart (count : Nat) : Nested Event.role (apart count) := by
  have nested := (grows_apart 0 count).nested_inserted
  rwa [inserted_nil] at nested

theorem count_token_apart (count : Nat) : (apart count).count .token = count := by
  unfold apart
  split
  · next none => exact none.symm
  · simp [List.count_append]

/-! ## The log -/

/-- The log of a whole file holds what the grammar added, then words up to where the parse stopped
short, and then the rest of the words apart. -/
theorem log_conclude_grown {answer : Bool × State} {events : List Event} {wraps : List Wrap}
    (grown : Grows 1 events wraps)
    (same : answer.2.trail = State.underRoot.trail.append events wraps)
    (bounded : answer.2.position ≤ words.size) :
    let stop := min (conclude words answer).1.position words.size
    let front := inserted wraps 1 events ++ List.replicate (stop - answer.2.position) .token
    (conclude words answer).2 =
        .start .file :: ((front ++ apart (words.size - stop)) ++ [.finish]) ∧
      Nested Event.role front ∧ front.count .token = stop := by
  obtain ⟨matched, state⟩ := answer
  unfold conclude
  dsimp only at same bounded ⊢
  generalize complete_eq : (matched && state.atEnd words) = complete
  have reached := state.position_le_outcome complete
  generalize state.outcome complete = outcome at reached
  have last : (if complete then state else state.setApart words outcome.position).trail =
      state.trail.append
        (List.replicate (min outcome.position words.size - state.position) .token ++
          apart (words.size - min outcome.position words.size)) [] := by
    cases complete with
    | true =>
      have all : words.size ≤ state.position :=
        of_decide_eq_true (Bool.and_eq_true_iff.mp complete_eq).2
      have none : min outcome.position words.size - state.position = 0 ∧
          words.size - min outcome.position words.size = 0 := by omega
      rw [none.1, none.2]
      exact (Trail.append_nil _).symm
    | false => exact State.trail_setApart bounded reached
  have taken : state.position = events.count .token := by
    have moved := congrArg Trail.position same
    simpa [State.trail, Trail.append, State.underRoot, State.record, State.start] using moved
  have onward : state.position ≤ min outcome.position words.size :=
    Nat.le_min.mpr ⟨reached, bounded⟩
  generalize min outcome.position words.size = stop at last onward
  have nested : Nested Event.role (List.replicate (stop - state.position) .token) :=
    .of_forall_inside fun event member => List.eq_of_mem_replicate member ▸ rfl
  refine ⟨?_, grown.nested_inserted.append nested, ?_⟩
  · have behind : Grows (1 + events.length) (List.replicate (stop - state.position) .token ++
        apart (words.size - stop)) [] :=
      (Grows.words _ _).append (grows_apart _ _)
    rw [State.log_eq, State.trail_record, last, same, Trail.append_append]
    refine ((Grows.append grown behind).splice_node .file).trans ?_
    rw [grown.inserted_append behind, inserted_nil]
    simp only [List.append_assoc]
  · rw [List.count_append, count_token_inserted, List.count_replicate_self]
    omega

/-- Whatever a grammar came to, the log is a root node around something well nested, and takes every
word once. -/
theorem log_conclude {answer : Bool × State}
    (onward : State.underRoot.trail.GoesOnTo answer.2.trail)
    (bounded : answer.2.position ≤ words.size) :
    ∃ inner, (conclude words answer).2 = .start .file :: (inner ++ [.finish]) ∧
      Nested Event.role inner ∧ inner.count .token = words.size := by
  obtain ⟨events, wraps, grown, same⟩ := onward
  obtain ⟨log, nested, count⟩ := log_conclude_grown grown same bounded
  refine ⟨_, log, nested.append (nested_apart _), ?_⟩
  rw [List.count_append, count, count_token_apart]
  omega

end Offside.Parse
