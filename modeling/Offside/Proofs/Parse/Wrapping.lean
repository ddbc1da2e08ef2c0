import Offside.Proofs.Parse.Splice
import Offside.Proofs.Run.Trail

/-! # Nodes opened after the fact

A node that is opened around what was recorded before is kept aside, and put into the log only when
the log is handed out. Going back to a point cuts the log and what is kept aside to the lengths they
had.

Beside this stands a ledger, in which every node is in its place from the moment it is opened, and
which goes back to a point by restoring what was saved there. Whatever is done to both, in any
order, they hand out the same log. In two ways the log is not a plain list with snapshots. A node
that comes to nothing does so in the snapshots as well. And checkpoints are told apart by what was
recorded between them, of which a node opened after the fact is no part.
-/

namespace Offside.Parse

/-- What is done to the state of a parse. Going back and committing are about the last point set
that neither was done to yet. -/
inductive Operation where
  | bump
  | start (kind : Syntax.Kind)
  | finish
  /-- Turns the start of a node that came to nothing into an event without effect. -/
  | abandon (place : Nat)
  /-- Reports something wrong with the tokens from `start` up to `stop`. -/
  | diagnose (message : String) (start stop : Nat)
  /-- Opens a node around everything recorded since a checkpoint. -/
  | wrapAt (checkpoint : Nat) (kind : Syntax.Kind)
  | mark
  | rollback
  | commit

/-- A parse under way, with the points set so far, the last one first. -/
structure Session where
  state : State
  markers : List Marker

namespace Session

/-- A session in which nothing was done yet. -/
def start : Session := ⟨.start, []⟩

/-- The session after an operation. -/
def apply (words : Array Word) (session : Session) : Operation → Session
  | .bump => { session with state := session.state.bump words }
  | .start kind => { session with state := session.state.record (.start kind) }
  | .finish => { session with state := session.state.record .finish }
  | .abandon place => { session with state := session.state.abandon place }
  | .diagnose message start stop =>
    { session with state := session.state.record (.diagnostic message start stop) }
  | .wrapAt checkpoint kind => { session with state := session.state.wrapAt checkpoint kind }
  | .mark => { session with markers := session.state.mark :: session.markers }
  | .rollback =>
    match session.markers with
    | [] => session
    | marker :: markers => ⟨session.state.rollback marker, markers⟩
  | .commit => { session with markers := session.markers.tail }

/-- The session after some operations. -/
def run (words : Array Word) (session : Session) (operations : List Operation) : Session :=
  operations.foldl (apply words) session

end Session

/-- A log with every node in its place, and the places in it at which nodes can be opened. -/
structure Ledger where
  position : Nat
  log : List Event
  /-- Number of events recorded, which is the number of the last checkpoint. -/
  recorded : Nat
  /-- Place of a checkpoint in the log. What is beyond the last checkpoint has its place. -/
  place : Nat → Nat

namespace Ledger

/-- A ledger without entries. -/
def start : Ledger := ⟨0, [], 0, fun _ => 0⟩

/-- Adds an event, and behind it a checkpoint. -/
def record (ledger : Ledger) (event : Event) : Ledger where
  position := ledger.position
  log := ledger.log ++ [event]
  recorded := ledger.recorded + 1
  place number :=
    if number ≤ ledger.recorded then ledger.place number else ledger.log.length + 1

/-- Takes the next word, if there is one. -/
def bump (words : Array Word) (ledger : Ledger) : Ledger :=
  if words.size ≤ ledger.position then ledger
  else { ledger.record .token with position := ledger.position + 1 }

/-- Puts the start of a node in front of everything since a checkpoint. Later checkpoints move. -/
def insertAt (ledger : Ledger) (checkpoint : Nat) (kind : Syntax.Kind) : Ledger :=
  { ledger with
    log := ledger.log.take (ledger.place checkpoint) ++
      .start kind :: ledger.log.drop (ledger.place checkpoint)
    place := fun number =>
      if min checkpoint ledger.recorded < min number ledger.recorded then ledger.place number + 1
      else ledger.place number }

/-- Turns the event recorded in front of a checkpoint into one without effect, if it starts a
node. -/
def abandon (number : Nat) (ledger : Ledger) : Ledger :=
  if number < ledger.recorded then
    let place := ledger.place (number + 1) - 1
    match ledger.log[place]? with
    | some (.start _) => { ledger with log := ledger.log.set place .abandoned }
    | _ => ledger
  else ledger

end Ledger

/-- A ledger with the snapshots taken so far, the last one first. -/
structure Ledgers where
  current : Ledger
  saved : List Ledger

namespace Ledgers

/-- Ledgers in which nothing was done yet. -/
def start : Ledgers := ⟨.start, []⟩

/-- The ledgers after an operation. A node that comes to nothing does so in all of them. -/
def apply (words : Array Word) (ledgers : Ledgers) : Operation → Ledgers
  | .bump => { ledgers with current := ledgers.current.bump words }
  | .start kind => { ledgers with current := ledgers.current.record (.start kind) }
  | .finish => { ledgers with current := ledgers.current.record .finish }
  | .abandon place => ⟨ledgers.current.abandon place, ledgers.saved.map (·.abandon place)⟩
  | .diagnose message start stop =>
    { ledgers with current := ledgers.current.record (.diagnostic message start stop) }
  | .wrapAt checkpoint kind => { ledgers with current := ledgers.current.insertAt checkpoint kind }
  | .mark => { ledgers with saved := ledgers.current :: ledgers.saved }
  | .rollback =>
    match ledgers.saved with
    | [] => ledgers
    | snapshot :: saved => ⟨snapshot, saved⟩
  | .commit => { ledgers with saved := ledgers.saved.tail }

/-- The ledgers after some operations. -/
def run (words : Array Word) (ledgers : Ledgers) (operations : List Operation) : Ledgers :=
  operations.foldl (apply words) ledgers

end Ledgers

/-! ## The ledger of a trail -/

/-- No node is opened behind the end of the log. -/
def Trail.IsBounded (trail : Trail) : Prop :=
  ∀ wrap ∈ trail.wraps, wrap.place ≤ trail.events.length

/-- The ledger that a trail stands for. -/
def Trail.ledger (trail : Trail) : Ledger where
  position := trail.position
  log := splice trail.events trail.wraps
  recorded := trail.events.length
  place number := (inserted trail.wraps 0 (trail.events.take number)).length

namespace Trail

variable {trail : Trail}

/-- The log in front of a checkpoint and behind it. -/
theorem IsBounded.log_eq (bounded : trail.IsBounded) {number : Nat}
    (known : number ≤ trail.events.length) :
    trail.ledger.log = inserted trail.wraps 0 (trail.events.take number) ++
      (inserted trail.wraps number (trail.events.drop number) ++
        opened trail.wraps trail.events.length) := by
  have split : inserted trail.wraps 0 trail.events =
      inserted trail.wraps 0 (trail.events.take number) ++
        inserted trail.wraps number (trail.events.drop number) := by
    conv => lhs; rw [← List.take_append_drop number trail.events]
    rw [inserted_append, List.length_take_of_le known, Nat.zero_add]
  rw [ledger, splice_eq bounded, split, List.append_assoc]

theorem IsBounded.record (bounded : trail.IsBounded) (event : Event) :
    (trail.record event).IsBounded := by
  intro wrap member
  rw [Trail.record, List.length_append]
  exact Nat.le_add_right_of_le (bounded wrap member)

theorem IsBounded.wrapAt (bounded : trail.IsBounded) (checkpoint : Nat) (kind : Syntax.Kind) :
    (trail.wrapAt checkpoint kind).IsBounded := by
  intro wrap member
  rcases List.mem_append.mp member with early | late
  · exact bounded wrap early
  · obtain rfl := List.mem_singleton.mp late
    exact Nat.min_le_right ..

/-- A new event stands behind all nodes opened so far. -/
theorem IsBounded.inserted_record (bounded : trail.IsBounded) (event : Event) :
    inserted trail.wraps 0 (trail.events ++ [event]) = trail.ledger.log ++ [event] := by
  rw [ledger, splice_eq bounded, inserted_append, inserted, inserted, Nat.zero_add,
    List.append_assoc]

theorem ledger_record (bounded : trail.IsBounded) (event : Event) :
    (trail.record event).ledger = trail.ledger.record event := by
  have log : splice (trail.events ++ [event]) trail.wraps = trail.ledger.log ++ [event] := by
    have inFront : ∀ wrap ∈ trail.wraps, wrap.place < (trail.events ++ [event]).length := by
      intro wrap member
      rw [List.length_append]
      exact Nat.lt_succ_of_le (bounded wrap member)
    rw [splice_eq_inserted inFront, bounded.inserted_record]
  have place (number : Nat) :
      (inserted trail.wraps 0 ((trail.events ++ [event]).take number)).length =
        (trail.ledger.record event).place number := by
    -- All checkpoints stay but the one behind the new event, which is at the end of the log.
    by_cases old : number ≤ trail.events.length
    · simp only [Ledger.record, ledger, old, ↓reduceIte, List.take_append_of_le_length]
    · have all : (trail.events ++ [event]).take number = trail.events ++ [event] :=
        List.take_of_length_le (by simp; omega)
      rw [all, bounded.inserted_record, List.length_append]
      simp only [Ledger.record, ledger, old, ↓reduceIte, List.length_singleton]
  rw [Trail.record, ledger, Ledger.record, List.length_append]
  dsimp only
  rw [log]
  congr 1
  exact funext place

/-- A checkpoint beyond the last stands for the last. -/
theorem ledger_place_min (trail : Trail) (number : Nat) :
    trail.ledger.place (min number trail.events.length) = trail.ledger.place number := by
  rw [ledger]
  dsimp only
  rw [← List.take_eq_take_min]

/-- With one more node opened at a checkpoint, its start comes behind all in front of the
checkpoint. -/
theorem IsBounded.log_wrapped (bounded : trail.IsBounded) {place : Nat}
    (known : place ≤ trail.events.length) (kind : Syntax.Kind) :
    splice trail.events (trail.wraps ++ [⟨place, kind⟩]) =
      inserted trail.wraps 0 (trail.events.take place) ++
        .start kind :: (inserted trail.wraps place (trail.events.drop place) ++
          opened trail.wraps trail.events.length) := by
  have wrapped : trail.wrapAt place kind =
      { trail with wraps := trail.wraps ++ [⟨place, kind⟩] } := by
    rw [Trail.wrapAt, Nat.min_eq_left known]
  refine ((wrapped ▸ bounded.wrapAt place kind).log_eq known).trans ?_
  dsimp only
  have inFront : 0 + (trail.events.take place).length ≤ place := by
    rw [Nat.zero_add]
    exact List.length_take_le ..
  rw [inserted_concat_of_le _ _ inFront]
  congr 1
  -- Behind the last event, the node has no event to stand in front of, and only `opened` tells it.
  rcases Nat.lt_or_eq_of_le known with inside | rfl
  · have some : trail.events.drop place ≠ [] := by simpa using inside
    rw [inserted_concat _ _ _ some, opened_concat_of_ne _ _ (Nat.ne_of_gt inside), List.cons_append]
  · rw [opened_concat, List.drop_length]
    rfl

/-- The checkpoints behind a node move by its start. -/
theorem length_inserted_wrapped (wraps : List Wrap) (events : List Event) (place number : Nat)
    (kind : Syntax.Kind) :
    (inserted (wraps ++ [⟨place, kind⟩]) 0 (events.take number)).length =
      if place < min number events.length then (inserted wraps 0 (events.take number)).length + 1
      else (inserted wraps 0 (events.take number)).length := by
  have reached : (events.take number).length = min number events.length := List.length_take
  split
  case isFalse before =>
    rw [inserted_concat_of_le wraps kind (by omega)]
  case isTrue behind =>
    rw [← reached] at behind
    have some : (events.take number).drop place ≠ [] := by simpa using behind
    have front : ((events.take number).take place).length = place :=
      List.length_take_of_le (Nat.le_of_lt behind)
    rw [← List.take_append_drop place (events.take number), inserted_append, inserted_append,
      inserted_concat_of_le wraps kind (by omega), front, Nat.zero_add,
      inserted_concat wraps place kind some]
    simp only [List.length_append, List.length_cons, Nat.add_assoc]

theorem ledger_wrapAt (bounded : trail.IsBounded) (checkpoint : Nat) (kind : Syntax.Kind) :
    (trail.wrapAt checkpoint kind).ledger = trail.ledger.insertAt checkpoint kind := by
  have known : min checkpoint trail.events.length ≤ trail.events.length := Nat.min_le_right ..
  have before := bounded.log_eq known
  have log : (trail.wrapAt checkpoint kind).ledger.log =
      (trail.ledger.insertAt checkpoint kind).log := by
    rw [Ledger.insertAt, ← ledger_place_min, before]
    dsimp only [ledger]
    rw [List.take_left, List.drop_left]
    exact bounded.log_wrapped known kind
  have place : (trail.wrapAt checkpoint kind).ledger.place =
      (trail.ledger.insertAt checkpoint kind).place :=
    funext fun number => length_inserted_wrapped ..
  exact congrArg₂ (Ledger.mk trail.position · trail.events.length) log place

/-- Where an event stands in the log, and in front of which checkpoint. -/
theorem IsBounded.log_around (bounded : trail.IsBounded) {front behind : List Event} {event : Event}
    (events : trail.events = front ++ event :: behind) :
    ∃ before after, trail.ledger.log = before ++ event :: after ∧
      trail.ledger.place (front.length + 1) = before.length + 1 ∧
      ∀ other, splice (front ++ other :: behind) trail.wraps = before ++ other :: after := by
  have placed (other : Event) :
      splice (front ++ other :: behind) trail.wraps =
        inserted trail.wraps 0 front ++ opened trail.wraps front.length ++
          other :: (inserted trail.wraps (front.length + 1) behind ++
            opened trail.wraps trail.events.length) := by
    have same : trail.events.length = (front ++ other :: behind).length := by simp [events]
    rw [splice_eq (same ▸ bounded), inserted_append, inserted, Nat.zero_add, same]
    simp only [List.append_assoc, List.cons_append]
  refine ⟨_, _, (congrArg (splice · trail.wraps) events).trans (placed event), ?_, placed⟩
  have upTo : trail.events.take (front.length + 1) = front ++ [event] := by
    rw [events, List.take_length_add_append, List.take_succ_cons, List.take_zero]
  rw [ledger]
  dsimp only
  rw [upTo, inserted_append, inserted, inserted, Nat.zero_add]
  simp only [List.length_append, List.length_singleton, Nat.add_assoc]

theorem ledger_abandon (bounded : trail.IsBounded) (place : Nat) :
    (trail.abandon place).ledger = trail.ledger.abandon place := by
  rw [Ledger.abandon]
  by_cases known : place < trail.ledger.recorded
  case neg =>
    have none : trail.events[place]? = none := List.getElem?_eq_none (Nat.le_of_not_lt known)
    rw [if_neg known, Trail.abandon, none]
  case pos =>
    rw [if_pos known]
    have known : place < trail.events.length := known
    have events : trail.events =
        trail.events.take place ++ trail.events[place] :: trail.events.drop (place + 1) := by
      rw [List.getElem_cons_drop, List.take_append_drop]
    obtain ⟨before, after, log, placed, others⟩ := bounded.log_around events
    rw [List.length_take_of_le known.le] at placed
    have there : trail.ledger.log[before.length]? = some trail.events[place] := by simp [log]
    simp only [placed, Nat.add_sub_cancel, there, Trail.abandon, List.getElem?_eq_getElem known]
    cases trail.events[place]
    case start kind =>
      have changed : trail.events.set place .abandoned =
          trail.events.take place ++ .abandoned :: trail.events.drop (place + 1) :=
        List.set_eq_take_append_cons_drop .. |>.trans (if_pos known)
      have changedLog : trail.ledger.log.set before.length .abandoned =
          before ++ .abandoned :: after := by simp [log]
      have places (number : Nat) :
          (inserted trail.wraps 0 ((trail.events.set place .abandoned).take number)).length =
            (inserted trail.wraps 0 (trail.events.take number)).length :=
        length_inserted_congr trail.wraps 0 (by simp)
      dsimp only
      rw [changedLog, ← others, ← changed]
      simp only [ledger, List.length_set, places]
    all_goals rfl

/-- Takes the next word, if there is one. -/
def bump (words : Array Word) (trail : Trail) : Trail :=
  if words.size ≤ trail.position then trail else trail.append [.token] []

theorem ledger_bump (bounded : trail.IsBounded) (words : Array Word) :
    (trail.bump words).ledger = trail.ledger.bump words := by
  rw [Ledger.bump, bump]
  change _ = if words.size ≤ trail.position then _ else _
  split
  · rfl
  · rw [← ledger_record bounded]
    simp [Trail.append, Trail.record, ledger]

/-! ## Going back -/

/-- A trail with more behind it. -/
structure ExtendsTo (trail later : Trail) : Prop where
  /-- No node is opened behind the end of the log. -/
  bounded : later.IsBounded
  events : trail.events <+: later.events
  /-- Nodes opened after the fact are only added. -/
  wraps : trail.wraps <+: later.wraps

theorem IsBounded.extendsTo_record (bounded : trail.IsBounded) (event : Event) :
    trail.ExtendsTo (trail.record event) :=
  ⟨bounded.record event, List.prefix_append .., List.prefix_rfl⟩

theorem IsBounded.extendsTo_wrapAt (bounded : trail.IsBounded) (checkpoint : Nat)
    (kind : Syntax.Kind) : trail.ExtendsTo (trail.wrapAt checkpoint kind) :=
  ⟨bounded.wrapAt checkpoint kind, List.prefix_rfl, List.prefix_append ..⟩

theorem IsBounded.extendsTo_bump (bounded : trail.IsBounded) (words : Array Word) :
    trail.ExtendsTo (trail.bump words) := by
  unfold Trail.bump
  split
  · exact ⟨bounded, List.prefix_rfl, List.prefix_rfl⟩
  · have longer := bounded.record .token
    exact ⟨by simpa [IsBounded, Trail.append, Trail.record] using longer,
      List.prefix_append .., List.prefix_append ..⟩

/-- A point that a trail can go back to. -/
structure Admits (trail : Trail) (marker : Marker) : Prop where
  events : marker.events ≤ trail.events.length
  /-- No more nodes were opened after the fact. -/
  wraps : marker.wraps ≤ trail.wraps.length
  /-- No node was opened behind the end of the log. -/
  bounded : (trail.rollback marker).IsBounded

/-- What is added later does not matter for going back. -/
theorem ExtendsTo.rollback {later : Trail} (onward : trail.ExtendsTo later) {marker : Marker}
    (admits : trail.Admits marker) : later.rollback marker = trail.rollback marker := by
  obtain ⟨moreEvents, events⟩ := onward.events
  obtain ⟨moreWraps, wraps⟩ := onward.wraps
  simp only [Trail.rollback, ← events, ← wraps, List.take_append_of_le_length admits.events,
    List.take_append_of_le_length admits.wraps]

theorem ExtendsTo.admits {later : Trail} (onward : trail.ExtendsTo later) {marker : Marker}
    (admits : trail.Admits marker) : later.Admits marker where
  events := admits.events.trans onward.events.length_le
  wraps := admits.wraps.trans onward.wraps.length_le
  bounded := onward.rollback admits ▸ admits.bounded

/-- A node that came to nothing still does after going back. -/
theorem rollback_abandon (trail : Trail) (place : Nat) (marker : Marker) :
    (trail.abandon place).rollback marker = (trail.rollback marker).abandon place := by
  have there : (trail.rollback marker).events[place]? =
      if place < marker.events then trail.events[place]? else none := List.getElem?_take
  by_cases inside : place < marker.events
  · rw [if_pos inside] at there
    rw [Trail.abandon, Trail.abandon, there]
    split
    · simp only [Trail.rollback, List.take_set]
    · rfl
  · rw [if_neg inside] at there
    rw [Trail.abandon, Trail.abandon, there]
    split
    · simp only [Trail.rollback, List.take_set_of_le (Nat.le_of_not_lt inside)]
    · rfl

theorem IsBounded.abandon (bounded : trail.IsBounded) (place : Nat) :
    (trail.abandon place).IsBounded := by
  unfold Trail.abandon
  split
  · simpa [IsBounded] using bounded
  · exact bounded

theorem Admits.abandon {marker : Marker} (admits : trail.Admits marker) (place : Nat) :
    (trail.abandon place).Admits marker where
  events := by
    unfold Trail.abandon
    split <;> simpa using admits.events
  wraps := by
    unfold Trail.abandon
    split <;> exact admits.wraps
  bounded := rollback_abandon trail place marker ▸ admits.bounded.abandon place

end Trail

/-- One point lies in front of another. -/
def Marker.Precedes (outer inner : Marker) : Prop :=
  outer.events ≤ inner.events ∧ outer.wraps ≤ inner.wraps

/-- Going back to a point and from there to an earlier one is going back to the earlier one. -/
theorem Trail.rollback_rollback (trail : Trail) {outer inner : Marker}
    (precedes : outer.Precedes inner) :
    (trail.rollback inner).rollback outer = trail.rollback outer := by
  simp only [Trail.rollback, List.take_take, Nat.min_eq_left precedes.1,
    Nat.min_eq_left precedes.2]

theorem Trail.Admits.rollback {trail : Trail} {outer inner : Marker}
    (ofOuter : trail.Admits outer) (ofInner : trail.Admits inner)
    (precedes : outer.Precedes inner) : (trail.rollback inner).Admits outer where
  events := by
    rw [Trail.rollback, List.length_take_of_le ofInner.events]
    exact precedes.1
  wraps := by
    rw [Trail.rollback, List.length_take_of_le ofInner.wraps]
    exact precedes.2
  bounded := Trail.rollback_rollback trail precedes ▸ ofOuter.bounded

/-! ## Sessions and ledgers side by side -/

/-- The ledgers are those of the trail and of what going back would leave of it. -/
structure Mirrors (session : Session) (ledgers : Ledgers) : Prop where
  /-- No node is opened behind the end of the log. -/
  bounded : session.state.trail.IsBounded
  /-- It is possible to go back to every point. -/
  admits : ∀ marker ∈ session.markers, session.state.trail.Admits marker
  nested : session.markers.Pairwise fun inner outer => outer.Precedes inner
  current : ledgers.current = session.state.trail.ledger
  saved : ledgers.saved = session.markers.map fun marker =>
    (session.state.trail.rollback marker).ledger

namespace Mirrors

variable {session : Session} {ledgers : Ledgers}

theorem start : Mirrors .start .start where
  bounded := by simp [Trail.IsBounded, Session.start, State.start, State.trail]
  admits := by simp [Session.start]
  nested := .nil
  current := by
    simp [Ledgers.start, Ledger.start, Session.start, State.start, State.trail, Trail.ledger,
      inserted, splice, spliceFrom]
  saved := rfl

/-- What only adds leaves the snapshots as they are. -/
theorem goOn (mirrors : Mirrors session ledgers) {later : State} {next : Ledger}
    (onward : session.state.trail.ExtendsTo later.trail) (same : later.trail.ledger = next) :
    Mirrors ⟨later, session.markers⟩ ⟨next, ledgers.saved⟩ where
  bounded := onward.bounded
  admits marker member := onward.admits (mirrors.admits marker member)
  nested := mirrors.nested
  current := same.symm
  saved := by
    rw [mirrors.saved]
    exact List.map_congr_left fun marker member => by
      rw [onward.rollback (mirrors.admits marker member)]

theorem record (mirrors : Mirrors session ledgers) (event : Event) :
    Mirrors ⟨session.state.record event, session.markers⟩
      ⟨ledgers.current.record event, ledgers.saved⟩ := by
  refine mirrors.goOn ?_ ?_
  · rw [State.trail_record]
    exact mirrors.bounded.extendsTo_record event
  · rw [State.trail_record, Trail.ledger_record mirrors.bounded, mirrors.current]

theorem bump (mirrors : Mirrors session ledgers) (words : Array Word) :
    Mirrors ⟨session.state.bump words, session.markers⟩
      ⟨ledgers.current.bump words, ledgers.saved⟩ := by
  have trail : (session.state.bump words).trail = session.state.trail.bump words := by
    simp only [State.trail_bump, State.atEnd, decide_eq_true_eq]
    rfl
  refine mirrors.goOn ?_ ?_
  · rw [trail]
    exact mirrors.bounded.extendsTo_bump words
  · rw [trail, Trail.ledger_bump mirrors.bounded, mirrors.current]

theorem wrapAt (mirrors : Mirrors session ledgers) (checkpoint : Nat) (kind : Syntax.Kind) :
    Mirrors ⟨session.state.wrapAt checkpoint kind, session.markers⟩
      ⟨ledgers.current.insertAt checkpoint kind, ledgers.saved⟩ := by
  refine mirrors.goOn ?_ ?_
  · rw [State.trail_wrapAt]
    exact mirrors.bounded.extendsTo_wrapAt checkpoint kind
  · rw [State.trail_wrapAt, Trail.ledger_wrapAt mirrors.bounded, mirrors.current]

/-- What happens to the log happens to the snapshots. -/
theorem abandon (mirrors : Mirrors session ledgers) (place : Nat) :
    Mirrors ⟨session.state.abandon place, session.markers⟩
      ⟨ledgers.current.abandon place, ledgers.saved.map (·.abandon place)⟩ where
  bounded := by
    rw [State.trail_abandon]
    exact mirrors.bounded.abandon place
  admits marker member := by
    rw [State.trail_abandon]
    exact (mirrors.admits marker member).abandon place
  nested := mirrors.nested
  current := by
    dsimp only
    rw [State.trail_abandon, Trail.ledger_abandon mirrors.bounded, mirrors.current]
  saved := by
    dsimp only
    rw [mirrors.saved, List.map_map, State.trail_abandon]
    refine List.map_congr_left fun marker member => ?_
    rw [Trail.rollback_abandon, Trail.ledger_abandon (mirrors.admits marker member).bounded]
    rfl

theorem mark (mirrors : Mirrors session ledgers) :
    Mirrors ⟨session.state, session.state.mark :: session.markers⟩
      ⟨ledgers.current, ledgers.current :: ledgers.saved⟩ := by
  have same : session.state.trail.rollback session.state.mark = session.state.trail := by
    simp [State.mark_eq, Trail.rollback, Trail.mark]
  have here : session.state.trail.Admits session.state.mark := by
    refine ⟨Nat.le_of_eq ?_, Nat.le_of_eq ?_, ?_⟩
    · rw [State.mark_eq, Trail.mark]
    · rw [State.mark_eq, Trail.mark]
    · rw [same]
      exact mirrors.bounded
  refine ⟨mirrors.bounded, List.forall_mem_cons.mpr ⟨here, mirrors.admits⟩, ?_,
    mirrors.current, ?_⟩
  · refine .cons (fun marker member => ?_) mirrors.nested
    have admits := mirrors.admits marker member
    rw [State.mark_eq]
    exact ⟨admits.events, admits.wraps⟩
  · dsimp only
    rw [mirrors.saved, mirrors.current, List.map_cons, same]

theorem rollback {marker : Marker} {markers : List Marker} {state : State}
    (mirrors : Mirrors ⟨state, marker :: markers⟩ ledgers) :
    ∃ snapshot saved, ledgers.saved = snapshot :: saved ∧
      Mirrors ⟨state.rollback marker, markers⟩ ⟨snapshot, saved⟩ := by
  obtain ⟨admits, others⟩ := List.forall_mem_cons.mp mirrors.admits
  obtain ⟨precedes, nested⟩ := List.pairwise_cons.mp mirrors.nested
  refine ⟨_, _, mirrors.saved, ?_, ?_, nested, ?_, ?_⟩
  · rw [State.trail_rollback]
    exact admits.bounded
  · intro other member
    rw [State.trail_rollback]
    exact (others other member).rollback admits (precedes other member)
  · rw [State.trail_rollback]
  · refine List.map_congr_left fun other member => ?_
    rw [State.trail_rollback, Trail.rollback_rollback _ (precedes other member)]

theorem commit (mirrors : Mirrors session ledgers) :
    Mirrors ⟨session.state, session.markers.tail⟩ ⟨ledgers.current, ledgers.saved.tail⟩ where
  bounded := mirrors.bounded
  admits marker member := mirrors.admits marker (List.mem_of_mem_tail member)
  nested := mirrors.nested.tail
  current := mirrors.current
  saved := by rw [mirrors.saved, List.map_tail]

/-- Every operation does the same to both. -/
theorem apply (mirrors : Mirrors session ledgers) (words : Array Word) (operation : Operation) :
    Mirrors (session.apply words operation) (ledgers.apply words operation) := by
  cases operation with
  | bump => exact mirrors.bump words
  | start kind => exact mirrors.record (.start kind)
  | finish => exact mirrors.record .finish
  | diagnose message start stop => exact mirrors.record (.diagnostic message start stop)
  | abandon place => exact mirrors.abandon place
  | wrapAt checkpoint kind => exact mirrors.wrapAt checkpoint kind
  | mark => exact mirrors.mark
  | commit => exact mirrors.commit
  | rollback =>
    obtain ⟨state, markers⟩ := session
    cases markers with
    | nil =>
      have none : ledgers.saved = [] := mirrors.saved
      rw [Session.apply, Ledgers.apply, none]
      exact mirrors
    | cons marker markers =>
      obtain ⟨snapshot, saved, some, back⟩ := mirrors.rollback
      rw [Session.apply, Ledgers.apply, some]
      exact back

theorem run (mirrors : Mirrors session ledgers) (words : Array Word)
    (operations : List Operation) :
    Mirrors (session.run words operations) (ledgers.run words operations) := by
  induction operations generalizing session ledgers with
  | nil => exact mirrors
  | cons operation rest ih => exact ih (mirrors.apply words operation)

theorem log_eq (mirrors : Mirrors session ledgers) :
    session.state.log = ledgers.current.log := by
  rw [mirrors.current]
  rfl

end Mirrors

/-- Whatever is done to a parse, in whatever order, it hands out the log that it would have if every
node had been put in its place at once. It counts the same words taken and the same events
recorded, and has as many points left to go back to. -/
theorem log_eq_ledger (words : Array Word) (operations : List Operation) :
    let session := Session.start.run words operations
    let ledgers := Ledgers.start.run words operations
    session.state.log = ledgers.current.log ∧
      session.state.position = ledgers.current.position ∧
      session.state.checkpoint = ledgers.current.recorded ∧
      session.markers.length = ledgers.saved.length := by
  intro session ledgers
  have mirrors : Mirrors session ledgers := Mirrors.start.run words operations
  refine ⟨mirrors.log_eq, ?_⟩
  rw [mirrors.current, mirrors.saved, List.length_map]
  exact ⟨rfl, State.checkpoint_eq _, rfl⟩

/-- Going back does not bring back a node that came to nothing since, and a node opened after the
fact does not tell a checkpoint behind it from one in front of it. -/
theorem log_is_no_list_with_snapshots :
    let log := fun operations => (Session.start.run #[] operations).state.log
    (log [.start .exprApp, .mark] = [.start .exprApp] ∧
        log [.start .exprApp, .mark, .abandon 0, .rollback] = [.abandoned]) ∧
      (Session.start.run #[] [.wrapAt 0 .exprApp]).state.checkpoint = 0 ∧
      log [.wrapAt 0 .exprApp, .wrapAt 0 .exprInfix] = [.start .exprInfix, .start .exprApp] := by
  intro log
  have inOrder (operations : List Operation) :
      log operations = (Ledgers.start.run #[] operations).current.log :=
    (Mirrors.start.run #[] operations).log_eq
  simp only [inOrder]
  decide

end Offside.Parse
