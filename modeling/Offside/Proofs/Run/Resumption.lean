import Mathlib.Data.Set.Basic
import Mathlib.Order.Bounds.Defs
import Offside.Proofs.Parse.Whole
import Offside.Proofs.Run.Construction
import Offside.Proofs.Run.LeftLeaning

/-! # Where a parse resumes

A node that resynchronises takes the words that its child could not, up to where its recovery would
match, and sets them apart in an error node. Blocks that open on the way are taken whole: recovery
is looked for outside of them only.

How many blocks are open in front of a word is told by the words alone, without the loop that counts
them while it looks for recovery. The loop stops at the first word in front of which none is open
and recovery would match, or else at the end of input.
-/

namespace Offside.Parse

variable {words : Array Word} {state : State}

/-- There are as many words left as are to be taken, if any are. -/
def State.CanTake (words : Array Word) (count : Nat) (state : State) : Prop :=
  count = 0 ∨ state.position + count ≤ words.size

theorem State.CanTake.trail_bumpTimes {count : Nat} (enough : state.CanTake words count) :
    (state.bumpTimes words count).trail = state.trail.append (List.replicate count .token) [] := by
  rcases enough with rfl | enough
  · exact (Trail.append_nil _).symm
  · exact State.trail_bumpTimes count enough

theorem State.failure_bumpTimes (words : Array Word) (count : Nat) (state : State) :
    (state.bumpTimes words count).failure = state.failure := by
  induction count generalizing state with
  | zero => rfl
  | succ count ih => exact (ih _).trans (state.failure_bump words)

theorem State.CanTake.bumps_bumpTimes {count : Nat} (enough : state.CanTake words count) :
    (state.bumpTimes words count).bumps = state.bumps + count := by
  induction count generalizing state with
  | zero => rfl
  | succ count ih =>
    have inside : state.position + (count + 1) ≤ words.size := enough.resolve_left (by omega)
    have ahead : ¬ words.size ≤ state.position := by omega
    have taken : state.bump words = ⟨state.position + 1, state.events.push .token, state.wraps,
        state.failure, state.bumps + 1⟩ := by
      simp [State.bump, State.atEnd, ahead]
    have left : (state.bump words).CanTake words count := by
      refine .inr ?_
      rw [taken]
      dsimp only
      omega
    rw [State.bumpTimes, ih left, taken]
    exact Nat.add_right_comm ..

end Offside.Parse

namespace Offside.Grammar

open Parse
open Token (Kind)

/-- How many blocks are open in front of the word at `index`, if `depth` are open in front of the
one at `first`. -/
def openBlocks (words : Array Word) (depth first index : Nat) : Nat :=
  ((words.toList.drop first).take (index - first)).foldl
    (fun depth word => depthBehind depth word.kind) depth

/-- Words in front of which no block is open and recovery would match, once those from the cursor up
to them are skipped. Of the blocks, `depth` are open at the cursor. -/
def resumptions (grammar : Grammar) (words : Array Word) (naive : Bool) (recovery : Node)
    (depth : Nat) (state : State) : Set Nat :=
  {index | state.position ≤ index ∧ index < words.size ∧
    openBlocks words depth state.position index = 0 ∧
    ∃ after, grammar.EndsIn words naive recovery
      (state.bumpTimes words (index - state.position)) true after}

/-- Looking for recovery comes to an end at every word up to the first in front of which it would
match. -/
def ProbesEnd (grammar : Grammar) (words : Array Word) (naive : Bool) (recovery : Node)
    (depth : Nat) (state : State) : Prop :=
  ∀ index, state.position ≤ index → index < words.size →
    openBlocks words depth state.position index = 0 →
    (∀ point ∈ grammar.resumptions words naive recovery depth state, index ≤ point) →
    ∃ matched after, grammar.EndsIn words naive recovery
      (state.bumpTimes words (index - state.position)) matched after

section

variable {grammar : Grammar} {words : Array Word} {naive : Bool} {recovery : Node} {depth : Nat}
  {state : State} {kind : Kind}

theorem openBlocks_self (words : Array Word) (depth first : Nat) :
    openBlocks words depth first first = depth := by
  simp [openBlocks]

theorem openBlocks_of_lt {index : Nat} (next : state.currentKind? words = some kind)
    (later : state.position < index) :
    openBlocks words depth state.position index =
      openBlocks words (depthBehind depth kind) (state.position + 1) index := by
  obtain ⟨word, there, rfl⟩ := Option.map_eq_some_iff.mp next
  obtain ⟨inside, rfl⟩ := Array.getElem?_eq_some_iff.mp there
  have count : index - state.position = index - (state.position + 1) + 1 := by omega
  rw [openBlocks, openBlocks, List.drop_eq_getElem_cons inside, count, List.take_succ_cons]
  rfl

/-- A run ends in one way. -/
theorem EndsIn.eq {node : Node} {matched other : Bool} {after last : State}
    (ends : grammar.EndsIn words naive node state matched after)
    (again : grammar.EndsIn words naive node state other last) :
    other = matched ∧ last = after := by
  have first := meaning_eq_some_iff.mpr ends
  have second := meaning_eq_some_iff.mpr again
  exact Prod.mk.inj (Option.some.inj (second.symm.trans first))

theorem position_bump_of_word (next : state.currentKind? words = some kind) :
    (state.bump words).position = state.position + 1 := by
  obtain ⟨word, there, -⟩ := Option.map_eq_some_iff.mp next
  exact congrArg Trail.position (State.trail_bump_of_word there)

/-- Behind a word that is no place to resume, the places to resume are those there were. -/
theorem mem_resumptions_bump_iff {index : Nat} (next : state.currentKind? words = some kind)
    (later : state.position < index) :
    index ∈ grammar.resumptions words naive recovery (depthBehind depth kind) (state.bump words) ↔
      index ∈ grammar.resumptions words naive recovery depth state := by
  have count : index - state.position = index - (state.position + 1) + 1 := by omega
  simp only [resumptions, Set.mem_ofPred_eq, position_bump_of_word next,
    openBlocks_of_lt next later, count, State.bumpTimes]
  refine and_congr_left fun _ => ?_
  omega

/-- A place to resume that is not behind the word at the cursor is in front of it. -/
theorem position_mem_resumptions_iff :
    state.position ∈ grammar.resumptions words naive recovery depth state ↔
      state.position < words.size ∧ depth = 0 ∧
        ∃ after, grammar.EndsIn words naive recovery state true after := by
  simp only [resumptions, Set.mem_ofPred_eq, openBlocks_self, Nat.sub_self, Nat.le_refl, true_and]
  rfl

/-- If a parse does not resume here, it looks for recovery behind the next word. -/
theorem ProbesEnd.bump (probes : grammar.ProbesEnd words naive recovery depth state)
    (next : state.currentKind? words = some kind)
    (goesOn : state.position ∉ grammar.resumptions words naive recovery depth state) :
    grammar.ProbesEnd words naive recovery (depthBehind depth kind) (state.bump words) := by
  intro index reached inside outside first
  have position := position_bump_of_word next
  rw [position] at reached
  have count : index - state.position = index - (state.position + 1) + 1 := by omega
  have ends := probes index (Nat.le_of_lt reached) inside
    ((openBlocks_of_lt next reached).trans (position ▸ outside)) fun point member => by
      have further : state.position < point :=
        Nat.lt_of_le_of_ne member.1 fun here => goesOn (here ▸ member)
      exact first point ((mem_resumptions_bump_iff next further).mpr member)
  rw [count] at ends
  rwa [position]

/-- Where skipping words ends: at the first place to resume, or at the end of input. -/
def StopsAt (grammar : Grammar) (words : Array Word) (naive : Bool) (recovery : Node) (depth : Nat)
    (state : State) (stop : Nat) : Prop :=
  IsLeast (grammar.resumptions words naive recovery depth state) stop ∨
    grammar.resumptions words naive recovery depth state = ∅ ∧ stop = max state.position words.size

theorem StopsAt.reached {stop : Nat}
    (stops : grammar.StopsAt words naive recovery depth state stop) : state.position ≤ stop := by
  rcases stops with ⟨point, -⟩ | ⟨-, rfl⟩
  · exact point.1
  · exact Nat.le_max_left ..

theorem StopsAt.within {stop : Nat}
    (stops : grammar.StopsAt words naive recovery depth state stop) :
    state.CanTake words (stop - state.position) := by
  unfold State.CanTake
  rcases stops with ⟨point, -⟩ | ⟨-, rfl⟩
  · have bounds := And.intro point.1 point.2.1
    omega
  · omega

/-- Behind a word that is no place to resume, skipping ends where it would have. -/
theorem StopsAt.of_bump {stop : Nat} (next : state.currentKind? words = some kind)
    (goesOn : state.position ∉ grammar.resumptions words naive recovery depth state)
    (stops : grammar.StopsAt words naive recovery (depthBehind depth kind) (state.bump words)
      stop) : grammar.StopsAt words naive recovery depth state stop := by
  have position := position_bump_of_word next
  have further : ∀ point ∈ grammar.resumptions words naive recovery depth state,
      state.position < point := fun point member =>
    Nat.lt_of_le_of_ne member.1 fun here => goesOn (here ▸ member)
  rcases stops with ⟨point, least⟩ | ⟨none, rfl⟩
  · have later : state.position + 1 ≤ stop := position ▸ point.1
    refine .inl ⟨(mem_resumptions_bump_iff next later).mp point, fun other member => ?_⟩
    exact least ((mem_resumptions_bump_iff next (further other member)).mpr member)
  · refine .inr ⟨Set.eq_empty_of_forall_notMem fun other member => ?_, ?_⟩
    · exact none.le ((mem_resumptions_bump_iff next (further other member)).mpr member)
    · obtain ⟨word, there, -⟩ := Option.map_eq_some_iff.mp next
      obtain ⟨inside, -⟩ := Array.getElem?_eq_some_iff.mp there
      omega

/-- The loop that skips words takes those up to where it has to stop, and leaves nothing else. -/
theorem skipTo_stops {limit : Nat} (probes : grammar.ProbesEnd words naive recovery depth state)
    (enough : words.size - state.position < limit) :
    ∃ stop, grammar.StopsAt words naive recovery depth state stop ∧
      skipTo words (grammar.meaning words naive) recovery depth limit state =
        some (state.bumpTimes words (stop - state.position)) := by
  have onward : Keeps (fun state after => state.trail.GoesOnTo after.trail)
      (grammar.meaning words naive) := (goesOnTo_moves words).meaning
  induction limit generalizing depth state with
  | zero => omega
  | succ limit ih =>
    -- Stopping here leaves the state as it is.
    have here : state.bumpTimes words (state.position - state.position) = state := by
      rw [Nat.sub_self]
      rfl
    rw [skipTo_succ]
    cases next : state.currentKind? words with
    | none =>
      have atEnd : words.size ≤ state.position := by
        simpa [State.currentKind?, State.current?] using next
      refine ⟨state.position, .inr ⟨?_, by omega⟩, congrArg some here.symm⟩
      refine Set.eq_empty_of_forall_notMem fun index member => ?_
      have bounds := And.intro member.1 member.2.1
      omega
    | some kind =>
      have position := position_bump_of_word next
      obtain ⟨word, there, -⟩ := Option.map_eq_some_iff.mp next
      obtain ⟨inside, -⟩ := Array.getElem?_eq_some_iff.mp there
      -- What is left to do if this is no place to resume.
      have later (goesOn : state.position ∉
          grammar.resumptions words naive recovery depth state) :
          ∃ stop, grammar.StopsAt words naive recovery depth state stop ∧
            skipTo words (grammar.meaning words naive) recovery (depthBehind depth kind) limit
              (state.bump words) = some (state.bumpTimes words (stop - state.position)) := by
        obtain ⟨stop, stops, ended⟩ := ih (probes.bump next goesOn) (by omega)
        have reached := stops.reached
        rw [position] at reached ended
        have count : stop - state.position = stop - (state.position + 1) + 1 := by omega
        exact ⟨stop, stops.of_bump next goesOn, count ▸ ended⟩
      by_cases outside : depth = 0
      · subst outside
        obtain ⟨matched, after, ends⟩ := probes state.position (Nat.le_refl _) inside
          (openBlocks_self ..) fun point member => member.1
        rw [here] at ends
        have ran := meaning_eq_some_iff.mpr ends
        simp only [↓reduceIte, ran, Option.bind_some, probed_run onward ran]
        cases matched with
        | true =>
          have point := position_mem_resumptions_iff.mpr ⟨inside, rfl, after, ends⟩
          exact ⟨state.position, .inl ⟨point, fun other member => member.1⟩,
            congrArg some here.symm⟩
        | false =>
          refine later fun point => ?_
          obtain ⟨-, -, other, again⟩ := position_mem_resumptions_iff.mp point
          cases (ends.eq again).1
      · simp only [outside, ↓reduceIte]
        exact later fun point => outside (position_mem_resumptions_iff.mp point).2.1

/-- What is recorded for words that are skipped. -/
def skippedLog (message : String) (first stop : Nat) : List Event :=
  .start .error :: (List.replicate (stop - first) .token ++
    [.finish, .diagnostic message first stop])

/-- The state behind an error node that holds some words and a report on them. -/
def resumed (words : Array Word) (message : String) (stop : Nat) (state : State) : State :=
  (((state.record (.start .error)).bumpTimes words (stop - state.position)).record .finish).record
    (.diagnostic message state.position stop)

theorem trail_resumed (message : String) {stop : Nat}
    (within : state.CanTake words (stop - state.position)) :
    (resumed words message stop state).trail =
      state.trail.append (skippedLog message state.position stop) [] := by
  have taken : ((state.record (.start .error)).bumpTimes words (stop - state.position)).trail = _ :=
    State.CanTake.trail_bumpTimes within
  rw [resumed, State.trail_record, State.trail_record, taken, State.trail_record]
  simp [Trail.append, Trail.record, skippedLog]

theorem bumps_resumed (message : String) {stop : Nat}
    (within : state.CanTake words (stop - state.position)) :
    (resumed words message stop state).bumps = state.bumps + (stop - state.position) := by
  let opened := state.record (.start .error)
  have taken : (opened.bumpTimes words (stop - state.position)).bumps =
      opened.bumps + (stop - state.position) := State.CanTake.bumps_bumpTimes within
  exact taken

theorem position_resumed (message : String) {stop : Nat} (reached : state.position ≤ stop)
    (within : state.CanTake words (stop - state.position)) :
    (resumed words message stop state).position = stop := by
  have moved := congrArg Trail.position (trail_resumed message within)
  have count : (skippedLog message state.position stop).count .token = stop - state.position := by
    simp [skippedLog]
  rw [Trail.append, count] at moved
  exact moved.trans (Nat.add_sub_of_le reached)

theorem failure_resumed (message : String) (stop : Nat) :
    (resumed words message stop state).failure = state.failure :=
  State.failure_bumpTimes words _ (state.record (.start .error))

theorem grows_skippedLog (base : Nat) (message : String) (first stop : Nat) :
    Grows base (skippedLog message first stop) [] := by
  have node := (Grows.words (base + 1) (stop - first)).node .error
  simpa [skippedLog] using node.append (.report message first stop)

end

/-- A node that resynchronises matches if looking for recovery comes to an end. If its child
matches, nothing else is done. If not, the words up to the first in front of which recovery would
match, outside of every block opened on the way, or else all that are left, are put into an error
node with a report behind it. The log, the nodes opened after the fact, the cursor and the count of
words ever taken show nothing of the attempts to recover, and neither does the furthest refusal. -/
theorem relaxTo_resumes_at_first_recovery {grammar : Grammar} {words : Array Word} {naive : Bool}
    {fuel : Nat} (stamp : Stamp) {child recovery : Node} (message : String)
    {state behind : State} {matched : Bool}
    (attempted : grammar.runHealed words (grammar.runNode words naive fuel) child state =
      some (matched, behind))
    (probes : matched = false →
      grammar.ProbesEnd words naive recovery 0 (behind.record (.start .error))) :
    ∃ after, grammar.EndsIn words naive (.relaxTo stamp child recovery message) state true after ∧
      (∀ answer other,
        grammar.EndsIn words naive (.relaxTo stamp child recovery message) state answer other →
          answer = true ∧ other = after) ∧
      (matched = true → after = behind) ∧
      (matched = false → ∃ stop,
        let first := state.position
        let opened := behind.record (.start .error)
        let points := grammar.resumptions words naive recovery 0 opened
        let added := .start .error :: (List.replicate (stop - first) .token ++
          [.finish, .diagnostic message first stop])
        opened.position = first ∧
          (IsLeast points stop ∨ points = ∅ ∧ stop = max first words.size) ∧
          after.events.toList = state.events.toList ++ added ∧ after.wraps = state.wraps ∧
          (state.trail.IsSettled → after.log = state.log ++ added) ∧
          after.position = stop ∧ after.bumps = behind.bumps + (stop - first) ∧
          after.failure = behind.failure) := by
  have onward : Keeps (fun state after => state.trail.GoesOnTo after.trail)
      (grammar.meaning words naive) := (goesOnTo_moves words).meaning
  have tried : grammar.runHealed words (grammar.meaning words naive) child state =
      some (matched, behind) :=
    (Finitary.runHealed grammar words child state).of_below (runNode_below_meaning fuel) attempted
  have step : grammar.step words (grammar.meaning words naive) naive
      (.relaxTo stamp child recovery message) state =
      grammar.meaning words naive (.relaxTo stamp child recovery message) state := step_meaning ..
  rw [step_relaxTo, tried] at step
  cases matched with
  | true =>
    have ends : grammar.EndsIn words naive (.relaxTo stamp child recovery message) state true
        behind := meaning_eq_some_iff.mp step.symm
    exact ⟨behind, ends, fun _ _ => ends.eq, fun _ => rfl, nofun⟩
  | false =>
    have same : behind.trail = state.trail := trail_of_runHealed onward tried
    have position : behind.position = state.position := congrArg Trail.position same
    obtain ⟨stop, stops, skipped⟩ := skipTo_stops (probes rfl) (Nat.lt_succ_of_le (Nat.sub_le ..))
    have within : behind.CanTake words (stop - behind.position) := stops.within
    have reached : (resumed words message stop behind).position = stop :=
      position_resumed message stops.reached within
    have trail := trail_resumed message within
    have bumps := bumps_resumed message within
    rw [same, position] at trail
    rw [position] at bumps
    have ends : grammar.EndsIn words naive (.relaxTo stamp child recovery message) state true
        (resumed words message stop behind) := by
      refine meaning_eq_some_iff.mp (step.symm.trans ?_)
      have there : ((behind.record (.start .error)).bumpTimes words
        (stop - (behind.record (.start .error)).position)).position = stop := reached
      simp only [Option.bind_some, Bool.false_eq_true, ↓reduceIte, skipped, Option.map_some, there]
      rfl
    have adds : Adds state (resumed words message stop behind)
        (skippedLog message state.position stop) :=
      ⟨_, [], grows_skippedLog .., trail, inserted_nil ..⟩
    refine ⟨_, ends, fun _ _ => ends.eq, nofun, fun _ => ⟨stop, position, position ▸ stops, ?_⟩⟩
    refine ⟨congrArg Trail.events trail, ?_, adds.log_eq, reached, bumps,
      failure_resumed message stop⟩
    have wraps := congrArg Trail.wraps trail
    exact Array.toList_inj.mp (wraps.trans (List.append_nil _))

/-- A separator inside of a block that opens on the way is no place to resume, the one behind the
block is. -/
theorem relaxTo_resumes_behind_block :
    let grammar := ofRules .empty
    let word (kind : Kind) : Word := ⟨kind, ""⟩
    let words : Array Word := #[word .properName, word .layoutStart, word .properName,
      word .layoutSep, word .properName, word .layoutEnd, word .layoutSep, word .lowerName]
    let name : Node := .token (.made 0) .lowerName
    let separator : Node := .token (.made 1) .layoutSep
    let behind := State.start.expect (.single .lowerName)
    let opened := behind.record (.start .error)
    let after : State := ⟨6, #[.start .error, .token, .token, .token, .token, .token, .token,
      .finish, .diagnostic "expected a name" 0 6], #[], behind.failure, 6⟩
    grammar.runHealed words (grammar.runNode words false 1) name .start = some (false, behind) ∧
      grammar.ProbesEnd words false separator 0 opened ∧
      grammar.EndsIn words false (.relaxTo (.made 2) name separator "expected a name") .start true
        after ∧
      IsLeast (grammar.resumptions words false separator 0 opened) 6 := by
  intro grammar word words name separator behind opened after
  have attempted : grammar.runHealed words (grammar.runNode words false 1) name .start =
      some (false, behind) := by decide
  have probes : grammar.ProbesEnd words false separator 0 opened := by
    intro index _ inside _ _
    have ends : ∀ index < 8, (grammar.runNode words false 1 separator
        (opened.bumpTimes words index)).isSome := by decide
    obtain ⟨⟨matched, behind⟩, ran⟩ := Option.isSome_iff_exists.mp (ends index inside)
    exact ⟨matched, behind, 1, ran⟩
  have ran : grammar.runNode words false 2
      (.relaxTo (.made 2) name separator "expected a name") .start = some (true, after) := by decide
  obtain ⟨last, -, unique, -, failed⟩ := relaxTo_resumes_at_first_recovery (.made 2)
    "expected a name" attempted fun _ => probes
  obtain ⟨-, rfl⟩ := unique true after ⟨2, ran⟩
  obtain ⟨stop, -, stops, -, -, -, position, -⟩ := failed rfl
  have behindBlock : stop = 6 := position.symm
  subst behindBlock
  refine ⟨attempted, probes, ⟨2, ran⟩, stops.resolve_right ?_⟩
  rintro ⟨-, atEnd⟩
  cases atEnd

end Offside.Grammar
