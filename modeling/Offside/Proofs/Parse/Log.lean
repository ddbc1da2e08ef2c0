import Offside.Proofs.Nesting
import Offside.Proofs.Parse.Splice
import Offside.Proofs.Run.Trail

/-! # Logs are well nested

A run adds to the log in pieces that are well nested once the wraps are in place: nodes around
nested pieces, what is left of abandoned nodes, and pieces with a node opened after the fact around
everything since the piece began.
-/

namespace Offside.Parse

/-- What an event does to the nesting of nodes. -/
def Event.role : Event → Role
  | .start _ => .opens
  | .finish => .closes
  | _ => .inside

namespace Grows

variable {base : Nat} {events : List Event} {wraps : List Wrap}

theorem opened_of_lt (grows : Grows base events wraps) {place : Nat} (before : place < base) :
    opened wraps place = [] :=
  opened_eq_nil fun wrap member => by
    have bounds := grows.place_mem wrap member
    omega

theorem opened_of_le (grows : Grows base events wraps) {place : Nat}
    (behind : base + events.length ≤ place) : opened wraps place = [] :=
  opened_eq_nil fun wrap member => by
    have bounds := grows.place_mem wrap member
    omega

theorem inserted_append {later : List Event} {laterWraps : List Wrap}
    (first : Grows base events wraps)
    (second : Grows (base + events.length) later laterWraps) :
    inserted (wraps ++ laterWraps) base (events ++ later) =
      inserted wraps base events ++ inserted laterWraps (base + events.length) later := by
  rw [Parse.inserted_append]
  congr 1
  · refine inserted_congr fun place _ before => ?_
    rw [opened_append, second.opened_of_lt before, List.nil_append]
  · refine inserted_congr fun place behind _ => ?_
    rw [opened_append, first.opened_of_le behind, List.append_nil]

/-- Nothing is opened in front of the start of a node around a piece, or of its end. -/
theorem inserted_node (inner : Grows (base + 1) events wraps) (kind : Syntax.Kind) :
    inserted wraps base (.start kind :: (events ++ [.finish])) =
      .start kind :: (inserted wraps (base + 1) events ++ [.finish]) := by
  rw [inserted, inner.opened_of_lt (Nat.lt_succ_self base), Parse.inserted_append, inserted,
    inner.opened_of_le (Nat.le_refl _)]
  rfl

theorem inserted_abandoned (inner : Grows (base + 1) events wraps) :
    inserted wraps base (.abandoned :: events) =
      .abandoned :: inserted wraps (base + 1) events := by
  rw [inserted, inner.opened_of_lt (Nat.lt_succ_self base), List.nil_append]

/-- A node opened after the fact starts in front of everything opened at its place before. -/
theorem inserted_wrap (inner : Grows base events wraps) (kind : Syntax.Kind) :
    inserted (wraps ++ [⟨base, kind⟩]) base (events ++ [.finish]) =
      .start kind :: (inserted wraps base events ++ [.finish]) := by
  have closed : inserted wraps base (events ++ [.finish]) =
      inserted wraps base events ++ [.finish] := by
    rw [Parse.inserted_append, inserted, inner.opened_of_le (Nat.le_refl _)]
    rfl
  -- The piece may be empty; with its end, there is always an event at its place.
  rw [inserted_concat wraps base kind (by simp), closed]

/-- What a run adds is well nested once the wraps are in place. -/
theorem nested_inserted (grows : Grows base events wraps) :
    Nested Event.role (inserted wraps base events) := by
  induction grows with
  | nil => exact .nil
  | token | report => exact .singleton rfl
  | append first second left right =>
    rw [inserted_append first second]
    exact left.append right
  | node kind inner ih =>
    rw [inner.inserted_node]
    exact .enclosed rfl rfl ih
  | abandoned inner ih =>
    rw [inner.inserted_abandoned]
    exact .item rfl ih
  | wrap kind inner ih =>
    rw [inner.inserted_wrap]
    exact .enclosed rfl rfl ih

/-- The log of a node around what a run added. -/
theorem splice_node (inner : Grows 1 events wraps) (kind : Syntax.Kind) :
    splice (.start kind :: (events ++ [.finish])) wraps =
      .start kind :: (inserted wraps 1 events ++ [.finish]) := by
  rw [splice_eq_inserted, inner.inserted_node]
  intro wrap member
  have bounds := inner.place_mem wrap member
  rw [List.length_cons, List.length_append]
  omega

end Grows

end Offside.Parse
