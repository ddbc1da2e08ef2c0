import Offside.Proofs.Token.KindSet
import Offside.Parse.State

/-! # Trails

What happens next in a parse depends on how many words were taken and on what is in the log. The
furthest refusal and the number of words ever taken are kept beside the two and decide nothing. A
trail is the state without them, and every move of a parse is a move of its trail.

What a run adds to a trail has a shape of its own: `Grows` lists the pieces it is put together
from. Nothing below the point where the run began is touched, so going back to that point restores
the trail it had, whatever was opened, wrapped or abandoned in between.
-/

namespace Offside.Parse

open Token (Kind KindSet)

/-- The part of a state that decides how a parse goes on. -/
structure Trail where
  position : Nat
  events : List Event
  /-- Nodes opened in front of earlier events, in the order they were opened. -/
  wraps : List Wrap
deriving DecidableEq

namespace Trail

/-- Adds an event that takes no word. -/
def record (trail : Trail) (event : Event) : Trail :=
  { trail with events := trail.events ++ [event] }

/-- Goes back to a point. -/
def rollback (trail : Trail) (marker : Marker) : Trail :=
  ⟨marker.position, trail.events.take marker.events, trail.wraps.take marker.wraps⟩

/-- Opens a node around everything recorded since a checkpoint. -/
def wrapAt (trail : Trail) (checkpoint : Nat) (kind : Syntax.Kind) : Trail :=
  { trail with wraps := trail.wraps ++ [⟨min checkpoint trail.events.length, kind⟩] }

/-- Turns the start of a node into an event without effect. -/
def abandon (trail : Trail) (place : Nat) : Trail :=
  match trail.events[place]? with
  | some (.start _) => { trail with events := trail.events.set place .abandoned }
  | _ => trail

/-- The point reached. -/
def mark (trail : Trail) : Marker := ⟨trail.position, trail.events.length, trail.wraps.length⟩

/-- The trail with more events and wraps behind it, and the words taken that the events take. -/
def append (trail : Trail) (events : List Event) (wraps : List Wrap) : Trail :=
  ⟨trail.position + events.count .token, trail.events ++ events, trail.wraps ++ wraps⟩

end Trail

namespace State

/-- What decides how the parse goes on. -/
def trail (state : State) : Trail := ⟨state.position, state.events.toList, state.wraps.toList⟩

/-- The state with another trail, refusals and words ever taken as they were. -/
def follow (state : State) (trail : Trail) : State :=
  { state with
    position := trail.position
    events := trail.events.toArray
    wraps := trail.wraps.toArray }

@[simp] theorem trail_follow (state : State) (trail : Trail) :
    (state.follow trail).trail = trail := by
  simp [State.follow, State.trail]

/-- A state is made of its trail, its furthest refusal and its count of words. -/
theorem eq_follow {state other : State} (failure : other.failure = state.failure)
    (bumps : other.bumps = state.bumps) : other = state.follow other.trail := by
  simp [State.follow, State.trail, ← failure, ← bumps]

theorem mark_eq (state : State) : state.mark = state.trail.mark := by
  simp [State.mark, State.trail, Trail.mark]

theorem checkpoint_eq (state : State) : state.checkpoint = state.trail.events.length := by
  simp [State.checkpoint, State.trail]

theorem currentKind?_eq_of_trail {state other : State} (same : state.trail = other.trail)
    (words : Array Word) : state.currentKind? words = other.currentKind? words := by
  have position : state.position = other.position := congrArg Trail.position same
  simp only [State.currentKind?, State.current?, position]

theorem log_eq (state : State) : state.log = splice state.trail.events state.trail.wraps := rfl

theorem log_eq_of_trail {state other : State} (same : state.trail = other.trail) :
    state.log = other.log := by
  rw [log_eq, log_eq, same]

/-! ## Moves of the trail alone -/

@[simp] theorem trail_record (state : State) (event : Event) :
    (state.record event).trail = state.trail.record event := by
  simp [State.record, State.trail, Trail.record]

@[simp] theorem trail_rollback (state : State) (marker : Marker) :
    (state.rollback marker).trail = state.trail.rollback marker := by
  simp only [State.rollback, State.trail, Trail.rollback, Array.toList_shrink]

@[simp] theorem trail_wrapAt (state : State) (checkpoint : Nat) (kind : Syntax.Kind) :
    (state.wrapAt checkpoint kind).trail = state.trail.wrapAt checkpoint kind := by
  simp [State.wrapAt, State.trail, Trail.wrapAt]

@[simp] theorem trail_abandon (state : State) (place : Nat) :
    (state.abandon place).trail = state.trail.abandon place := by
  have same : state.trail.events[place]? = state.events[place]? := by simp [State.trail]
  unfold State.abandon Trail.abandon
  rw [same]
  cases state.events[place]? with
  | none => rfl
  | some event => cases event <;> simp [State.trail]

theorem record_eq (state : State) (event : Event) :
    state.record event = state.follow (state.trail.record event) := by
  rw [← trail_record]
  exact eq_follow rfl rfl

theorem rollback_eq (state : State) (marker : Marker) :
    state.rollback marker = state.follow (state.trail.rollback marker) := by
  rw [← trail_rollback]
  exact eq_follow rfl rfl

theorem wrapAt_eq (state : State) (checkpoint : Nat) (kind : Syntax.Kind) :
    state.wrapAt checkpoint kind = state.follow (state.trail.wrapAt checkpoint kind) := by
  rw [← trail_wrapAt]
  exact eq_follow rfl rfl

theorem abandon_eq (state : State) (place : Nat) :
    state.abandon place = state.follow (state.trail.abandon place) := by
  rw [← trail_abandon]
  apply eq_follow
  all_goals
    unfold State.abandon
    split <;> rfl

/-- Undoing a probe leaves the state that was there, on the trail that its end goes back to. -/
theorem forget_eq (state after : State) (marker : Marker) :
    { after.rollback marker with failure := state.failure, bumps := state.bumps } =
      state.follow (after.trail.rollback marker) := by
  rw [← trail_rollback]
  exact eq_follow rfl rfl

/-! ## Moves beside the trail -/

@[simp] theorem trail_noteFailure (state : State) : state.noteFailure.trail = state.trail := by
  unfold State.noteFailure
  split <;> rfl

@[simp] theorem trail_expect (state : State) (kinds : KindSet) :
    (state.expect kinds).trail = state.trail := by
  rw [← trail_noteFailure state]
  simp only [State.expect]
  split <;> rfl

@[simp] theorem trail_expectText (state : State) (text : String) :
    (state.expectText text).trail = state.trail := by
  rw [← trail_noteFailure state]
  simp only [State.expectText]
  split <;> rfl

theorem bumps_expect (state : State) (kinds : KindSet) :
    (state.expect kinds).bumps = state.bumps := by
  simp only [State.expect, State.noteFailure]
  split <;> split <;> rfl

theorem bumps_expectText (state : State) (text : String) :
    (state.expectText text).bumps = state.bumps := by
  simp only [State.expectText, State.noteFailure]
  split <;> split <;> rfl

/-- A word behind all that was refused is remembered alone, the furthest beside the rest, and any
other not at all. -/
theorem failure_expect (state : State) (kinds : KindSet) :
    (state.expect kinds).failure =
      if state.failure.position < state.position then ⟨state.position, kinds, []⟩
      else if state.position = state.failure.position then
        { state.failure with kinds := state.failure.kinds.union kinds }
      else state.failure := by
  simp only [State.expect, State.noteFailure]
  split
  · simp
  · split <;> rfl

theorem failure_expectText (state : State) (text : String) :
    (state.expectText text).failure =
      if state.failure.position < state.position then ⟨state.position, .empty, [text]⟩
      else if state.position = state.failure.position ∧ text ∉ state.failure.texts then
        { state.failure with texts := state.failure.texts ++ [text] }
      else state.failure := by
  simp only [State.expectText, State.noteFailure]
  split
  · simp
  · simp only [Bool.and_eq_true, decide_eq_true_eq, Bool.not_eq_true', List.contains_eq_mem,
      decide_eq_false_iff_not]
    split <;> rfl

theorem failure_bump (state : State) (words : Array Word) :
    (state.bump words).failure = state.failure := by
  unfold State.bump
  split <;> rfl

theorem failure_abandon (state : State) (place : Nat) :
    (state.abandon place).failure = state.failure := by
  unfold State.abandon
  split <;> rfl

/-- Taking a word adds one event, and nothing happens at the end of input. -/
theorem trail_bump (state : State) (words : Array Word) :
    (state.bump words).trail =
      if state.atEnd words then state.trail else state.trail.append [.token] [] := by
  unfold State.bump
  split <;> simp [State.trail, Trail.append]

theorem trail_bump_of_word {words : Array Word} {state : State} {word : Word}
    (next : state.current? words = some word) :
    (state.bump words).trail = state.trail.append [.token] [] := by
  obtain ⟨inside, -⟩ := Array.getElem?_eq_some_iff.mp next
  have ahead : state.atEnd words = false := decide_eq_false (Nat.not_le.mpr inside)
  rw [trail_bump, ahead]
  rfl

end State

/-! ## What runs add to a trail -/

/-- What a run adds to a log that has `base` events: words and reports, nodes around what runs
inside of them added, abandoned nodes in front of what is left of them, and nodes wrapped around
everything since the run began. -/
inductive Grows : Nat → List Event → List Wrap → Prop
  | nil {base : Nat} : Grows base [] []
  | token {base : Nat} : Grows base [.token] []
  | report {base : Nat} (message : String) (start stop : Nat) :
    Grows base [.diagnostic message start stop] []
  | append {base : Nat} {events later : List Event} {wraps laterWraps : List Wrap}
    (first : Grows base events wraps) (second : Grows (base + events.length) later laterWraps) :
    Grows base (events ++ later) (wraps ++ laterWraps)
  | node {base : Nat} {events : List Event} {wraps : List Wrap} (kind : Syntax.Kind)
    (inner : Grows (base + 1) events wraps) :
    Grows base (.start kind :: (events ++ [.finish])) wraps
  /-- What is left of a node that came to nothing. -/
  | abandoned {base : Nat} {events : List Event} {wraps : List Wrap}
    (inner : Grows (base + 1) events wraps) : Grows base (.abandoned :: events) wraps
  | wrap {base : Nat} {events : List Event} {wraps : List Wrap} (kind : Syntax.Kind)
    (inner : Grows base events wraps) : Grows base (events ++ [.finish]) (wraps ++ [⟨base, kind⟩])

/-- Nodes are opened in front of events that the run itself recorded. -/
theorem Grows.place_mem {base : Nat} {events : List Event} {wraps : List Wrap}
    (grows : Grows base events wraps) :
    ∀ wrap ∈ wraps, base ≤ wrap.place ∧ wrap.place < base + events.length := by
  induction grows with
  | nil | token | report => simp
  | append _ _ first second =>
    intro wrap member
    rcases List.mem_append.mp member with early | late
    · have bounds := first wrap early
      simp only [List.length_append]
      omega
    · have bounds := second wrap late
      simp only [List.length_append]
      omega
  | node _ _ inner =>
    intro wrap member
    have bounds := inner wrap member
    simp only [List.length_cons, List.length_append]
    omega
  | abandoned _ inner =>
    intro wrap member
    have bounds := inner wrap member
    simp only [List.length_cons]
    omega
  | wrap _ _ inner =>
    intro wrap member
    rcases List.mem_append.mp member with early | late
    · have bounds := inner wrap early
      simp only [List.length_append]
      omega
    · obtain rfl := List.mem_singleton.mp late
      simp

/-- Words taken in a row are a piece of a log. -/
theorem Grows.words (base count : Nat) : Grows base (List.replicate count .token) [] := by
  induction count generalizing base with
  | zero => exact .nil
  | succ count ih => exact Grows.append .token (ih _)

namespace Trail

@[simp] theorem append_nil (trail : Trail) : trail.append [] [] = trail := by
  simp [Trail.append]

theorem append_append (trail : Trail) (events later : List Event) (wraps laterWraps : List Wrap) :
    (trail.append events wraps).append later laterWraps =
      trail.append (events ++ later) (wraps ++ laterWraps) := by
  simp [Trail.append, Nat.add_assoc]

/-- Whatever was added, going back to a point restores the trail at that point. -/
@[simp] theorem rollback_append (trail : Trail) (events : List Event) (wraps : List Wrap) :
    (trail.append events wraps).rollback trail.mark = trail := by
  simp [Trail.append, Trail.rollback, Trail.mark]

/-- One trail goes on from another as runs go on. -/
def GoesOnTo (earlier later : Trail) : Prop :=
  ∃ events wraps, Grows earlier.events.length events wraps ∧ later = earlier.append events wraps

theorem GoesOnTo.refl (trail : Trail) : trail.GoesOnTo trail :=
  ⟨[], [], .nil, (append_nil trail).symm⟩

theorem GoesOnTo.trans {first second third : Trail} (left : first.GoesOnTo second)
    (right : second.GoesOnTo third) : first.GoesOnTo third := by
  obtain ⟨events, wraps, grown, rfl⟩ := left
  obtain ⟨later, laterWraps, grownLater, rfl⟩ := right
  have shifted : Grows (first.events.length + events.length) later laterWraps := by
    simpa only [Trail.append, List.length_append] using grownLater
  exact ⟨_, _, grown.append shifted, append_append ..⟩

theorem GoesOnTo.position_le {earlier later : Trail} (onward : earlier.GoesOnTo later) :
    earlier.position ≤ later.position := by
  obtain ⟨events, wraps, -, rfl⟩ := onward
  exact Nat.le_add_right ..

/-- Going back undoes everything since. -/
theorem GoesOnTo.rollback {earlier later : Trail} (onward : earlier.GoesOnTo later) :
    later.rollback earlier.mark = earlier := by
  obtain ⟨events, wraps, -, rfl⟩ := onward
  exact rollback_append ..

theorem GoesOnTo.token (trail : Trail) : trail.GoesOnTo (trail.append [.token] []) :=
  ⟨_, _, .token, rfl⟩

theorem GoesOnTo.report (trail : Trail) (message : String) (start stop : Nat) :
    trail.GoesOnTo (trail.record (.diagnostic message start stop)) :=
  ⟨_, _, .report message start stop, by simp [Trail.record, Trail.append]⟩

/-- A node around what goes on inside of it. -/
theorem GoesOnTo.node {earlier later : Trail} {kind : Syntax.Kind}
    (inner : (earlier.record (.start kind)).GoesOnTo later) :
    earlier.GoesOnTo (later.record .finish) := by
  obtain ⟨events, wraps, grown, rfl⟩ := inner
  have shifted : Grows (earlier.events.length + 1) events wraps := by
    simpa only [Trail.record, List.length_append, List.length_singleton] using grown
  exact ⟨_, _, shifted.node kind, by simp [Trail.record, Trail.append]⟩

/-- A node that comes to nothing leaves what went on inside of it. -/
theorem GoesOnTo.abandon {earlier later : Trail} {kind : Syntax.Kind}
    (inner : (earlier.record (.start kind)).GoesOnTo later) :
    earlier.GoesOnTo (later.abandon earlier.events.length) := by
  obtain ⟨events, wraps, grown, rfl⟩ := inner
  have shifted : Grows (earlier.events.length + 1) events wraps := by
    simpa only [Trail.record, List.length_append, List.length_singleton] using grown
  refine ⟨_, _, shifted.abandoned, ?_⟩
  simp [Trail.abandon, Trail.record, Trail.append]

/-- A node around everything since a point. -/
theorem GoesOnTo.wrap {earlier later : Trail} (onward : earlier.GoesOnTo later)
    (kind : Syntax.Kind) :
    earlier.GoesOnTo ((later.wrapAt earlier.events.length kind).record .finish) := by
  obtain ⟨events, wraps, grown, rfl⟩ := onward
  exact ⟨_, _, grown.wrap kind, by simp [Trail.wrapAt, Trail.record, Trail.append]⟩

end Trail

end Offside.Parse
