import Offside.Proofs.Grammar.Language
import Offside.Proofs.Run.Dispatch

/-! # What a node takes is in its language

A run that matches without a report takes words that its node derives. Wherever a failure is made
into a match, the words of the failed attempt have to be given back first: choices, chains and
tolerant nodes see to that by going back. A repetition does not. It ends in a match when its child
fails, so the child has to give back by itself what it took, and this is asked of every repeated
node.

Reports are in the log and stay there as long as nothing goes back behind them, so a log without
any at the end had none on the way.
-/

namespace Offside.Parse

/-- Nothing was reported. -/
def Trail.IsClean (trail : Trail) : Prop :=
  ∀ message start stop, Event.diagnostic message start stop ∉ trail.events

namespace Trail

variable {earlier later trail : Trail}

theorem IsClean.of_goesOnTo (clean : later.IsClean) (onward : earlier.GoesOnTo later) :
    earlier.IsClean := by
  obtain ⟨events, wraps, -, rfl⟩ := onward
  intro message start stop member
  exact clean message start stop (List.mem_append_left _ member)

theorem IsClean.of_record {event : Event} (clean : (trail.record event).IsClean) :
    trail.IsClean :=
  fun message start stop member => clean message start stop (List.mem_append_left _ member)

theorem not_isClean_report (trail : Trail) (message : String) (start stop : Nat) :
    ¬(trail.record (.diagnostic message start stop)).IsClean :=
  fun clean => clean message start stop (List.mem_append_right _ (List.mem_singleton_self _))

end Trail

end Offside.Parse

namespace Offside.Grammar

open Parse
open Token (Kind KindSet)

/-- The words that are left. -/
def remaining (words : Array Word) (state : State) : List Word :=
  words.toList.drop state.position

/-- From one state to another, words were taken that a node derives. -/
def Reads (rules : Rules) (words : Array Word) (node : Node) (state after : State) : Prop :=
  ∃ taken, remaining words state = taken ++ remaining words after ∧ Derives rules node taken

/-- Whatever a run of the node takes when it matches without a report, the node derives. -/
def Sound (rules : Rules) (words : Array Word) (run : Runner) (node : Node) : Prop :=
  ∀ state after, run node state = some (true, after) → after.trail.IsClean →
    Reads rules words node state after

/-- A node that takes nothing unless it matches. -/
def GivesBack (grammar : Grammar) (node : Node) : Prop :=
  ∀ words naive fuel state after,
    grammar.runNode words naive fuel node state = some (false, after) →
      after.position = state.position

/-- Every repeated node that takes part in a node gives back what it took when it fails. -/
def RepeatsWhole (grammar : Grammar) (root : Node) : Prop :=
  ∀ stamp child, Reaches grammar.rules root (.oneOrMore stamp child) → grammar.GivesBack child

theorem RepeatsWhole.of_reaches {grammar : Grammar} {root node : Node}
    (whole : grammar.RepeatsWhole root) (reached : Reaches grammar.rules root node) :
    grammar.RepeatsWhole node :=
  fun stamp child below => whole stamp child (reached.trans below)

/-- What undoes its failures may be repeated. -/
theorem givesBack_of_undoesFailure (grammar : Grammar) {node : Node}
    (undoes : node.undoesFailure = true) : grammar.GivesBack node := by
  intro words naive fuel state after ended
  have lawful := lawful_effect grammar words naive
  have attempts : (grammar.effect words naive node).attempt state.trail =
      grammar.effect words naive node state.trail :=
    congrFun (lawful.attempt_of_undoesFailure trivial undoes) state.trail
  have failed : grammar.effect words naive node state.trail = some (false, after.trail) := by
    rw [← map_seen_meaning, runNode_below_meaning fuel node state _ ended]
    rfl
  rw [Effect.attempt, failed] at attempts
  have back : state.trail = after.trail := congrArg Prod.snd (Option.some.inj attempts)
  exact congrArg Trail.position back.symm

theorem remaining_eq_of_trail {words : Array Word} {state other : State}
    (same : state.trail = other.trail) : remaining words state = remaining words other :=
  congrArg (fun trail : Trail => words.toList.drop trail.position) same

/-- Taking a word leaves one less. -/
theorem remaining_bump {words : Array Word} {state : State} {word : Word}
    (next : state.current? words = some word) :
    remaining words state = word :: remaining words (state.bump words) := by
  obtain ⟨ahead, same⟩ := Array.getElem?_eq_some_iff.mp next
  have notAtEnd : state.atEnd words = false := by
    unfold State.atEnd
    exact decide_eq_false (Nat.not_le.mpr ahead)
  have taken : (state.bump words).position = state.position + 1 := by
    simp only [State.bump, notAtEnd, Bool.false_eq_true, ↓reduceIte]
  have inside : state.position < words.toList.length := by
    rw [Array.length_toList]
    exact ahead
  unfold remaining
  rw [taken, List.drop_eq_getElem_cons inside, Array.getElem_toList, same]

namespace Reads

variable {rules : Rules} {words : Array Word} {node : Node} {state other after last : State}

theorem of_trail_eq (reads : Reads rules words node state after)
    (same : state.trail = other.trail) : Reads rules words node other after := by
  obtain ⟨taken, split, derives⟩ := reads
  exact ⟨taken, (remaining_eq_of_trail same).symm.trans split, derives⟩

/-- What is recorded besides words takes none. -/
theorem to_position_eq (reads : Reads rules words node state after)
    (same : last.position = after.position) : Reads rules words node state last := by
  obtain ⟨taken, split, derives⟩ := reads
  have left : remaining words last = remaining words after :=
    congrArg (words.toList.drop ·) same
  exact ⟨taken, split.trans (congrArg (taken ++ ·) left.symm), derives⟩

/-- One node after another, as parts of a third. -/
theorem behind {first second whole : Node} (reads : Reads rules words first state after)
    (more : Reads rules words second after last)
    (joins : ∀ {taken later}, Derives rules first taken → Derives rules second later →
      Derives rules whole (taken ++ later)) : Reads rules words whole state last := by
  obtain ⟨taken, split, derives⟩ := reads
  obtain ⟨later, splitLater, derivesLater⟩ := more
  refine ⟨taken ++ later, ?_, joins derives derivesLater⟩
  rw [split, splitLater, List.append_assoc]

/-- A node that derives what another derives. -/
theorem within {whole : Node} (reads : Reads rules words node state after)
    (derives : ∀ {taken}, Derives rules node taken → Derives rules whole taken) :
    Reads rules words whole state after := by
  obtain ⟨taken, split, derivesPart⟩ := reads
  exact ⟨taken, split, derives derivesPart⟩

theorem nothing (derives : Derives rules node []) (same : after.position = state.position) :
    Reads rules words node state after :=
  ⟨[], congrArg (words.toList.drop ·) same.symm, derives⟩

/-- A word that is taken. -/
theorem word {word : Word} (next : state.current? words = some word)
    (derives : Derives rules node [word]) : Reads rules words node state (state.bump words) :=
  ⟨[word], remaining_bump next, derives⟩

end Reads

theorem isClean_of_wrapped {checkpoint : Nat} {kind : Syntax.Kind} {state : State}
    (clean : (wrapped checkpoint kind state).trail.IsClean) : state.trail.IsClean := by
  unfold wrapped at clean
  rw [State.trail_record, State.trail_wrapAt] at clean
  exact clean.of_record

section

variable {grammar : Grammar} {words : Array Word} {run : Runner}

/-! ## The parts of a run -/

theorem reads_of_runHealed {node : Node} {state after : State}
    (sound : Sound grammar.rules words run node)
    (ended : grammar.runHealed words run node state = some (true, after))
    (clean : after.trail.IsClean) : Reads grammar.rules words node state after :=
  sound state after (matched_of_runHealed ended) clean

variable (onward : Keeps (fun state after => state.trail.GoesOnTo after.trail) run)

include onward

theorem reads_of_runAll {stamp : Stamp} {items : List Node} {state after : State}
    (sound : ∀ item ∈ items, Sound grammar.rules words run item)
    (ended : runAll run items state = some (true, after)) (clean : after.trail.IsClean) :
    Reads grammar.rules words (.seq stamp items) state after := by
  induction items generalizing state with
  | nil =>
    cases ended
    exact .nothing .none rfl
  | cons item rest ih =>
    obtain ⟨first, others⟩ := List.forall_mem_cons.mp sound
    rw [runAll_cons] at ended
    obtain ⟨⟨matched, middle⟩, ran, ended⟩ := Option.bind_eq_some_iff.mp ended
    cases matched with
    | false => cases ended
    | true =>
      have further : middle.trail.GoesOnTo after.trail :=
        (goesOnTo_moves words).within.runAll (fun node _ => onward node) ended
      have begun := first state middle ran (clean.of_goesOnTo further)
      exact begun.behind (ih others ended) .item

/-- Attempts that failed leave nothing, so what is taken was taken by the one that matched. -/
theorem reads_of_runAny {nodes : List Node} {state after : State}
    (sound : ∀ node ∈ nodes, Sound grammar.rules words run node)
    (ended : grammar.runAny words run nodes state = some (true, after))
    (clean : after.trail.IsClean) :
    ∃ node ∈ nodes, Reads grammar.rules words node state after := by
  induction nodes generalizing state with
  | nil => cases ended
  | cons node rest ih =>
    obtain ⟨first, others⟩ := List.forall_mem_cons.mp sound
    rw [runAny_cons] at ended
    obtain ⟨⟨matched, middle⟩, ran, ended⟩ := Option.bind_eq_some_iff.mp ended
    cases matched with
    | true =>
      cases ended
      exact ⟨node, List.mem_cons_self .., reads_of_runHealed first ran clean⟩
    | false =>
      have back := trail_of_runHealed onward ran
      obtain ⟨other, member, reads⟩ := ih others ended
      exact ⟨other, List.mem_cons_of_mem _ member, reads.of_trail_eq back⟩

theorem reads_of_runChoice {stamp : Stamp} {alternatives : List Node} {isOptional : Bool}
    {state after : State}
    (sound : ∀ node ∈ alternatives, Sound grammar.rules words run node)
    (ended : grammar.runChoice words run true stamp alternatives isOptional state =
      some (true, after)) (clean : after.trail.IsClean) :
    Reads grammar.rules words (.choice stamp alternatives isOptional) state after := by
  rw [runChoice_eq] at ended
  obtain ⟨⟨matched, middle⟩, ran, same⟩ := Option.map_eq_some_iff.mp ended
  cases matched with
  | true =>
    obtain rfl : middle = after := congrArg Prod.snd same
    obtain ⟨node, member, reads⟩ := reads_of_runAny onward sound ran clean
    exact reads.within (.alternative member)
  | false =>
    obtain rfl : isOptional = true := congrArg Prod.fst same
    have back := trail_of_runAny onward ran
    have last : (grammar.chosen alternatives true (false, middle)).2 = after :=
      congrArg Prod.snd same
    have kept : after.trail = middle.trail := by
      rw [← last]
      simp only [chosen, Bool.false_eq_true, ↓reduceIte]
      split
      · rfl
      · exact State.trail_expect ..
    exact .nothing .omitted (congrArg Trail.position (kept.trans back))

/-- A repetition goes on deriving as long as its child gives back what it takes in failing. -/
theorem reads_of_runMore {stamp : Stamp} {child : Node} {limit : Nat} {base state : State}
    {answer : Bool × State} (sound : Sound grammar.rules words run child)
    (givesBack : ∀ state after, run child state = some (false, after) →
      after.position = state.position)
    (sofar : Reads grammar.rules words (.oneOrMore stamp child) base state)
    (ended : grammar.runMore words run child limit state = some answer)
    (clean : answer.2.trail.IsClean) :
    Reads grammar.rules words (.oneOrMore stamp child) base answer.2 := by
  induction limit generalizing state with
  | zero => cases ended
  | succ limit ih =>
    rw [runMore_succ] at ended
    split at ended
    · obtain ⟨⟨matched, middle⟩, ran, ended⟩ := Option.bind_eq_some_iff.mp ended
      cases matched with
      | false =>
        cases ended
        exact sofar.to_position_eq (givesBack state middle ran)
      | true =>
        split at ended
        · have further : middle.trail.GoesOnTo answer.2.trail :=
            (goesOnTo_moves words).within.runMore (onward _) ended
          have next := sound state middle ran (clean.of_goesOnTo further)
          exact ih (sofar.behind next .again) ended
        · cases ended
          exact sofar.behind (sound state middle ran clean) .again
    · cases ended
      exact sofar.to_position_eq (congrArg Trail.position (State.trail_expect ..))

/-- Nodes wrapped around what was recorded hide no report. -/
theorem isClean_of_runFold {kind : Syntax.Kind} {next : Node} {checkpoint limit : Nat}
    {state : State} {answer : Bool × State}
    (ended : grammar.runFold words run kind next checkpoint limit state = some answer)
    (clean : answer.2.trail.IsClean) : state.trail.IsClean := by
  induction limit generalizing state with
  | zero => cases ended
  | succ limit ih =>
    rw [runFold_succ] at ended
    obtain ⟨⟨matched, middle⟩, ran, ended⟩ := Option.bind_eq_some_iff.mp ended
    have further : state.trail.GoesOnTo middle.trail :=
      (goesOnTo_moves words).within.runHealed (onward _) _ _ ran
    suffices middle.trail.IsClean from this.of_goesOnTo further
    split at ended
    · split at ended
      · cases ended
        exact isClean_of_wrapped clean
      · exact isClean_of_wrapped (ih ended)
    · cases ended
      exact clean

theorem reads_of_runFold {stamp : Stamp} {kind : Syntax.Kind} {start next : Node}
    {checkpoint limit : Nat} {base state : State} {answer : Bool × State}
    (sound : Sound grammar.rules words run next)
    (sofar : Reads grammar.rules words (.fold stamp kind start next) base state)
    (ended : grammar.runFold words run kind next checkpoint limit state = some answer)
    (clean : answer.2.trail.IsClean) :
    Reads grammar.rules words (.fold stamp kind start next) base answer.2 := by
  induction limit generalizing state with
  | zero => cases ended
  | succ limit ih =>
    rw [runFold_succ] at ended
    obtain ⟨⟨matched, middle⟩, ran, ended⟩ := Option.bind_eq_some_iff.mp ended
    cases matched with
    | false =>
      cases ended
      have back := trail_of_runHealed onward ran
      exact sofar.to_position_eq (congrArg Trail.position back)
    | true =>
      split at ended
      · split at ended
        · cases ended
          have link := reads_of_runHealed sound ran (isClean_of_wrapped clean)
          exact (sofar.behind link .link).to_position_eq rfl
        · have cleanBehind := isClean_of_runFold onward ended clean
          have link := reads_of_runHealed sound ran (isClean_of_wrapped cleanBehind)
          have sofar : Reads grammar.rules words _ base (wrapped checkpoint kind middle) :=
            (sofar.behind link .link).to_position_eq rfl
          exact ih sofar ended
      · next unmatched => exact absurd rfl unmatched

/-! ## One step -/

section

omit onward

private theorem sound_token (stamp : Stamp) (kind : Kind) :
    Sound grammar.rules words (grammar.step words run true) (.token stamp kind) := by
  intro state after ended _
  change some (state.eat words kind) = _ at ended
  unfold State.eat at ended
  split at ended
  · next at_ =>
    cases ended
    obtain ⟨word, next, rfl⟩ := Option.map_eq_some_iff.mp (beq_iff_eq.mp at_)
    exact .word next (.token word.text)
  · cases ended

private theorem sound_text (stamp : Stamp) (kind : Kind) (spelling : String) :
    Sound grammar.rules words (grammar.step words run true) (.text stamp kind spelling) := by
  intro state after ended _
  change some (state.eatText words kind spelling) = _ at ended
  unfold State.eatText at ended
  split at ended
  · next next =>
    cases ended
    exact .word next .text
  · cases ended

private theorem sound_ahead (stamp : Stamp) (child : Node) :
    Sound grammar.rules words (grammar.step words run true) (.ahead stamp child) := by
  intro state after ended _
  obtain ⟨answer, -, same⟩ := Option.map_eq_some_iff.mp ended
  have last : answer.2.rollback state.mark = after := congrArg Prod.snd same
  refine .nothing .ahead ?_
  rw [← last]
  rfl

private theorem sound_symbolic (stamp : Stamp) (kind : Syntax.Kind) {child : Node}
    (sound : Sound grammar.rules words run child) :
    Sound grammar.rules words (grammar.step words run true) (.symbolic stamp kind child) := by
  intro state after ended clean
  rw [step_symbolic] at ended
  split at ended
  · obtain ⟨⟨matched, middle⟩, ran, same⟩ := Option.map_eq_some_iff.mp ended
    obtain rfl : matched = true := congrArg Prod.fst same
    obtain rfl : middle.record .finish = after := congrArg Prod.snd same
    rw [State.trail_record] at clean
    have inner := sound _ middle ran clean.of_record
    exact inner.within .symbolic
  · cases ended

private theorem sound_ref (stamp : Stamp) {rule : String}
    (sound : ∀ body, grammar.rules.body? rule = some body → Sound grammar.rules words run body) :
    Sound grammar.rules words (grammar.step words run true) (.ref stamp rule) := by
  intro state after ended clean
  rw [step_ref] at ended
  split at ended
  · next body lookup => exact (sound body lookup state after ended clean).within (.ref lookup)
  · cases ended

/-- A tolerant node that did not match has reported it. -/
private theorem sound_relax (stamp : Stamp) {child : Node} (message : String)
    (sound : Sound grammar.rules words run child) :
    Sound grammar.rules words (grammar.step words run true) (.relax stamp child message) := by
  intro state after ended clean
  obtain ⟨⟨matched, middle⟩, ran, same⟩ := Option.map_eq_some_iff.mp ended
  cases matched with
  | true =>
    obtain rfl : middle = after := congrArg Prod.snd same
    exact (reads_of_runHealed sound ran clean).within .relax
  | false =>
    have last := congrArg Prod.snd same
    simp only [Bool.false_eq_true, ↓reduceIte] at last
    rw [← last, State.trail_record] at clean
    exact absurd clean (Trail.not_isClean_report _ _ _ _)

private theorem sound_relaxTo (stamp : Stamp) {child : Node} (recovery : Node) (message : String)
    (sound : Sound grammar.rules words run child) :
    Sound grammar.rules words (grammar.step words run true)
      (.relaxTo stamp child recovery message) := by
  intro state after ended clean
  rw [step_relaxTo] at ended
  obtain ⟨⟨matched, middle⟩, ran, ended⟩ := Option.bind_eq_some_iff.mp ended
  cases matched with
  | true =>
    cases ended
    exact (reads_of_runHealed sound ran clean).within .relaxTo
  | false =>
    simp only [Bool.false_eq_true, ↓reduceIte] at ended
    obtain ⟨skipped, -, same⟩ := Option.map_eq_some_iff.mp ended
    have last := congrArg Prod.snd same
    dsimp only at last
    rw [← last, State.trail_record] at clean
    exact absurd clean (Trail.not_isClean_report _ _ _ _)

end

private theorem sound_oneOrMore (stamp : Stamp) {child : Node}
    (sound : Sound grammar.rules words run child)
    (givesBack : ∀ state after, run child state = some (false, after) →
      after.position = state.position) :
    Sound grammar.rules words (grammar.step words run true) (.oneOrMore stamp child) := by
  intro state after ended clean
  rw [step_oneOrMore] at ended
  obtain ⟨⟨matched, middle⟩, ran, ended⟩ := Option.bind_eq_some_iff.mp ended
  cases matched with
  | false => cases ended
  | true =>
    have further : middle.trail.GoesOnTo after.trail :=
      (goesOnTo_moves words).within.runMore (onward _) ended
    have first := sound state middle ran (clean.of_goesOnTo further)
    exact reads_of_runMore onward sound givesBack (first.within .once) ended clean

private theorem sound_fold (stamp : Stamp) (kind : Syntax.Kind) {start next : Node}
    (soundStart : Sound grammar.rules words run start)
    (soundNext : Sound grammar.rules words run next) :
    Sound grammar.rules words (grammar.step words run true) (.fold stamp kind start next) := by
  intro state after ended clean
  rw [step_fold] at ended
  split at ended
  · obtain ⟨⟨matched, middle⟩, ran, ended⟩ := Option.bind_eq_some_iff.mp ended
    cases matched with
    | false => cases ended
    | true =>
      have first := soundStart state middle ran (isClean_of_runFold onward ended clean)
      exact reads_of_runFold onward soundNext (first.within .chain) ended clean
  · cases ended

private theorem sound_cont (stamp : Stamp) (kind : Syntax.Kind) {start rest : Node}
    (soundStart : Sound grammar.rules words run start)
    (soundRest : Sound grammar.rules words run rest) :
    Sound grammar.rules words (grammar.step words run true) (.cont stamp kind start rest) := by
  intro state after ended clean
  rw [step_cont] at ended
  obtain ⟨⟨matched, middle⟩, ran, ended⟩ := Option.bind_eq_some_iff.mp ended
  cases matched with
  | false => cases ended
  | true =>
    obtain ⟨⟨follows, behind⟩, ranRest, same⟩ := Option.map_eq_some_iff.mp ended
    cases follows with
    | true =>
      obtain rfl : wrapped state.checkpoint kind behind = after := congrArg Prod.snd same
      have cleanBehind := isClean_of_wrapped clean
      have further : middle.trail.GoesOnTo behind.trail :=
        (goesOnTo_moves words).within.runHealed (onward _) _ _ ranRest
      have first := soundStart state middle ran (cleanBehind.of_goesOnTo further)
      have second := reads_of_runHealed soundRest ranRest cleanBehind
      exact (first.behind second .followed).to_position_eq rfl
    | false =>
      obtain rfl : behind = after := congrArg Prod.snd same
      have back := trail_of_runHealed onward ranRest
      have first := soundStart state middle ran (back ▸ clean)
      exact (first.within .alone).to_position_eq (congrArg Trail.position back)

/-- What runs of the nodes that take part derive, one step derives. -/
theorem sound_step {node : Node}
    (parts : ∀ child ∈ node.children, Sound grammar.rules words run child)
    (bodies : ∀ stamp rule body, node = .ref stamp rule → grammar.rules.body? rule = some body →
      Sound grammar.rules words run body)
    (repeated : ∀ stamp child, node = .oneOrMore stamp child → ∀ state after,
      run child state = some (false, after) → after.position = state.position) :
    Sound grammar.rules words (grammar.step words run true) node := by
  cases node with
  | token stamp kind => exact sound_token stamp kind
  | text stamp kind spelling => exact sound_text stamp kind spelling
  | empty =>
    rintro state after ⟨⟩ -
    exact .nothing .empty rfl
  | seq _ items => exact fun state after => reads_of_runAll onward parts
  | choice _ alternatives isOptional => exact fun state after => reads_of_runChoice onward parts
  | oneOrMore stamp child =>
    exact sound_oneOrMore onward stamp (parts child (List.mem_singleton_self _))
      (repeated stamp child rfl)
  | heal _ child =>
    intro state after ended clean
    have sound := parts child (List.mem_singleton_self _)
    exact (reads_of_runHealed sound ended clean).within .heal
  | ahead stamp child => exact sound_ahead stamp child
  | symbolic stamp kind child =>
    exact sound_symbolic stamp kind (parts child (List.mem_singleton_self _))
  | fold stamp kind start next =>
    have soundNext := parts next (List.mem_cons_of_mem _ (List.mem_singleton_self _))
    exact sound_fold onward stamp kind (parts start (List.mem_cons_self ..)) soundNext
  | cont stamp kind start rest =>
    have soundRest := parts rest (List.mem_cons_of_mem _ (List.mem_singleton_self _))
    exact sound_cont onward stamp kind (parts start (List.mem_cons_self ..)) soundRest
  | ref stamp rule => exact sound_ref stamp fun body => bodies stamp rule body rfl
  | relax stamp child message =>
    exact sound_relax stamp message (parts child (List.mem_singleton_self _))
  | relaxTo stamp child recovery message =>
    exact sound_relaxTo stamp recovery message (parts child (List.mem_cons_self ..))

omit onward

/-! ## Whole runs -/

/-- Attempts in order are sound, however much fuel they are given. -/
theorem sound_runNode (fuel : Nat) {node : Node} (whole : grammar.RepeatsWhole node) :
    Sound grammar.rules words (grammar.runNode words true fuel) node := by
  induction fuel generalizing node with
  | zero => intro state after ended; cases ended
  | succ fuel ih =>
    refine sound_step ((goesOnTo_moves words).runNode true fuel) ?_ ?_ ?_
    · intro child member
      exact ih (whole.of_reaches (.part .root member))
    · rintro stamp rule body rfl lookup
      exact ih (whole.of_reaches (.body .root lookup))
    · rintro stamp child rfl
      exact whole stamp child .root words true fuel

/-- However choices are made, what a node takes without a report is in its language. -/
theorem reads_of_runNode {naive : Bool} {fuel : Nat} {node : Node} {state after : State}
    (whole : grammar.RepeatsWhole node)
    (ended : grammar.runNode words naive fuel node state = some (true, after))
    (clean : after.trail.IsClean) : Reads grammar.rules words node state after := by
  obtain ⟨⟨matched, behind⟩, inOrder, same⟩ :=
    runNode_simulates_meaning naive true fuel node state state rfl _ ended
  obtain ⟨rfl, sameTrail⟩ := Prod.mk.inj (seen_eq_of_same same)
  obtain ⟨enough, ran⟩ := meaning_eq_some_iff.mp inOrder
  have reads := sound_runNode enough whole state behind ran (sameTrail ▸ clean)
  exact reads.to_position_eq (congrArg Trail.position sameTrail)

end

end Offside.Grammar
