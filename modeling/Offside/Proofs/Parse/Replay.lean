import Offside.Parse.Replay
import Offside.Proofs.Parse.Log
import Offside.Proofs.Syntax.Builder

/-! # Replay keeps every token

Replaying goes through the tokens from front to back: what an event passes over, it hands on. A
well nested part of the log inside of the outermost node becomes a well nested sequence of calls,
and the end of the outermost node hands on whatever is left.
-/

namespace Offside.Parse

open Source Token Syntax

/-- Well nested calls that add the pending tokens up to those left for later. -/
structure HandsOn (calls : List Call) (pending later : List Placed) : Prop where
  nested : Nested Call.role calls
  /-- No token is lost, added twice or moved. -/
  kept : calls.filterMap Call.token? ++ later = pending

theorem HandsOn.tokens (passed later : List Placed) :
    HandsOn (passed.map .token) (passed ++ later) later where
  nested := .of_forall_inside fun call member => by
    obtain ⟨token, -, rfl⟩ := List.mem_map.mp member
    rfl
  kept := by rw [Call.filterMap_token?_tokens]

theorem HandsOn.append {calls more : List Call} {pending middle later : List Placed}
    (first : HandsOn calls pending middle) (second : HandsOn more middle later) :
    HandsOn (calls ++ more) pending later where
  nested := first.nested.append second.nested
  kept := by rw [List.filterMap_append, List.append_assoc, second.kept, first.kept]

/-! ## Reports -/

/-- The error that an event reports. -/
def Event.error? (words : Array Placed) : Event → Option Error
  | .diagnostic message first last => some (.recovered message (coveredSpan words first last))
  | _ => none

/-- Replaying reports what the log reports, in order. -/
theorem errors_replayFrom (words : Array Placed) (pending : List Placed) (depth : Nat)
    (events : List Event) :
    (replayFrom words pending depth events).filterMap Call.error? =
      events.filterMap (Event.error? words) := by
  fun_induction replayFrom words pending depth events with
  | case1 => rfl
  | _ =>
    simp_all only [List.filterMap_append, List.filterMap_cons, Call.filterMap_error?_tokens,
      Call.error?, Event.error?, List.nil_append]

/-! ## Words among the tokens -/

theorem significant_append (tokens more : List Placed) :
    significant (tokens ++ more) = significant tokens ++ significant more :=
  List.filter_append ..

theorem significant_takeTrivia (pending : List Placed) :
    significant (pending.takeWhile fun token => token.kind.isTrivia) = [] :=
  List.filter_eq_nil_iff.mpr fun token member => by simpa using List.mem_takeWhile_imp member

theorem significant_dropTrivia (pending : List Placed) :
    significant (pending.dropWhile fun token => token.kind.isTrivia) = significant pending := by
  conv =>
    rhs
    rw [← List.takeWhile_append_dropWhile (p := fun token : Placed => token.kind.isTrivia)
      (l := pending), significant_append, significant_takeTrivia, List.nil_append]

theorem isWord_of_dropTrivia {pending : List Placed} {word : Placed}
    (next : (pending.dropWhile fun token => token.kind.isTrivia).head? = some word) :
    word.kind.isTrivia = false := by
  have first := List.head?_dropWhile_not (fun token : Placed => token.kind.isTrivia) pending
  rwa [next] at first

/-- The first token behind trivia is the next word. -/
theorem significant_of_dropTrivia {pending later : List Placed} {word : Placed}
    (next : pending.dropWhile (fun token => token.kind.isTrivia) = word :: later) :
    significant pending = word :: significant later := by
  have isWord := isWord_of_dropTrivia (congrArg List.head? next)
  rw [← significant_dropTrivia, next]
  exact List.filter_cons_of_pos (by simp [isWord])

/-! ## Inside of nodes -/

/-- Calls that lead from one depth to another, add the pending tokens up to those left for later,
and place trivia in front of what comes behind it: no node begins with trivia, and behind trivia
comes a token or the start of a node. -/
structure PutsBack (depth reached : Nat) (calls : List Call) (pending later : List Placed) :
    Prop where
  leads : depthAfter Call.role depth calls = some reached
  /-- No token is lost, added twice or moved. -/
  kept : calls.filterMap Call.token? ++ later = pending
  /-- The first token behind the start of a node is no trivia. -/
  start : ∀ kind after, .start kind :: after <:+ calls →
    ∀ token, (after.filterMap Call.token? ++ later).head? = some token →
      token.kind.isTrivia = false
  trivia : ∀ token after, .token token :: after <:+ calls → token.kind.isTrivia = true →
    (after.head?.bind Call.content?).isSome

namespace PutsBack

variable {depth middle reached : Nat} {calls : List Call} {pending later : List Placed}

theorem nil (depth : Nat) (pending : List Placed) : PutsBack depth depth [] pending pending where
  leads := rfl
  kept := rfl
  start _ _ none := by cases List.suffix_nil.mp none
  trivia _ _ none := by cases List.suffix_nil.mp none

/-- One more call in front. -/
theorem cons (call : Call) (steps : call.role.step depth = some middle)
    (behind : PutsBack middle reached calls pending later)
    (start : ∀ kind, call = .start kind →
      ∀ token, pending.head? = some token → token.kind.isTrivia = false)
    (trivia : ∀ token, call = .token token → token.kind.isTrivia = true →
      (calls.head?.bind Call.content?).isSome) :
    PutsBack depth reached (call :: calls) (call.token?.toList ++ pending) later where
  leads := by rw [depthAfter, steps, Option.bind_some, behind.leads]
  kept := by
    rw [← behind.kept, ← List.append_assoc]
    cases call <;> rfl
  start kind after isSuffix := by
    rcases List.suffix_cons_iff.mp isSuffix with same | isLater
    · obtain ⟨rfl, rfl⟩ := List.cons.inj same
      rw [behind.kept]
      exact start kind rfl
    · exact behind.start kind after isLater
  trivia token after isSuffix := by
    rcases List.suffix_cons_iff.mp isSuffix with same | isLater
    · obtain ⟨rfl, rfl⟩ := List.cons.inj same
      exact trivia token rfl
    · exact behind.trivia token after isLater

/-- A call that adds nothing. -/
theorem addsNothing {call : Call} (adds : call.content? = none)
    (steps : call.role.step depth = some middle)
    (behind : PutsBack middle reached calls pending later) :
    PutsBack depth reached (call :: calls) pending later := by
  cases call with
  | start | token => cases adds
  | finish | report => exact behind.cons _ steps nofun nofun

/-- Trivia in front of a call that adds an entry. -/
theorem behindTrivia (passed : List Placed) (adds : (calls.head?.bind Call.content?).isSome)
    (behind : PutsBack depth reached calls pending later) :
    PutsBack depth reached (passed.map .token ++ calls) (passed ++ pending) later := by
  induction passed with
  | nil => exact behind
  | cons token rest ih =>
    refine ih.cons (.token token) rfl nofun fun _ _ _ => ?_
    cases rest with
    | nil => exact adds
    | cons => rfl

/-- A word, with trivia in front of it. -/
theorem word (passed : List Placed) {word : Placed} (isWord : word.kind.isTrivia = false)
    (behind : PutsBack depth reached calls pending later) :
    PutsBack depth reached (passed.map .token ++ .token word :: calls) (passed ++ word :: pending)
      later := by
  refine behindTrivia passed rfl (behind.cons (.token word) rfl nofun ?_)
  intro token same isTrivia
  cases same
  cases isWord.symm.trans isTrivia

/-- The start of a node, with trivia in front of it. -/
theorem node (passed : List Placed) (kind : Syntax.Kind)
    (begins : ∀ token, pending.head? = some token → token.kind.isTrivia = false)
    (behind : PutsBack (depth + 1) reached calls pending later) :
    PutsBack depth reached (passed.map .token ++ .start kind :: calls) (passed ++ pending) later :=
  behindTrivia passed rfl (behind.cons (.start kind) rfl (fun _ _ => begins) nofun)

end PutsBack

/-- The tokens that are left behind an event inside of a node. -/
def Event.pass (pending : List Placed) : Event → List Placed
  | .start _ => pending.dropWhile fun token => token.kind.isTrivia
  | .token => match pending.dropWhile fun token => token.kind.isTrivia with
    | [] => pending
    | _ :: later => later
  | _ => pending

/-- The words among the tokens passed over are the words taken. -/
theorem significant_pass (pending : List Placed) (events : List Event) :
    significant (events.foldl Event.pass pending) =
      (significant pending).drop (events.count .token) := by
  induction events generalizing pending with
  | nil => rfl
  | cons event events ih =>
    rw [List.foldl_cons, ih]
    cases event with
    | start kind =>
      rw [Event.pass, significant_dropTrivia]
      rfl
    | token =>
      rw [List.count_cons_self, Event.pass]
      cases ahead : pending.dropWhile fun token => token.kind.isTrivia with
      | nil =>
        have none : significant pending = [] := by
          rw [← significant_dropTrivia, ahead]
          rfl
        rw [none, List.drop_nil, List.drop_nil]
      | cons word behind => rw [significant_of_dropTrivia ahead, List.drop_succ_cons]
    | finish | abandoned | diagnostic => rfl

/-- Inside of a node, a part of the log becomes calls that lead as deep and add the tokens passed
over. -/
theorem replayFrom_within (words : Array Placed) {events : List Event} {depth reached : Nat}
    (leads : depthAfter Event.role depth events = some reached) (pending : List Placed) :
    ∃ calls, PutsBack depth reached calls pending (events.foldl Event.pass pending) ∧
      ∀ base rest, replayFrom words pending (base + depth + 1) (events ++ rest) =
        calls ++ replayFrom words (events.foldl Event.pass pending) (base + reached + 1) rest := by
  induction events generalizing pending depth with
  | nil =>
    cases leads
    exact ⟨[], .nil _ pending, fun _ _ => rfl⟩
  | cons event events ih =>
    obtain ⟨next, steps, leads⟩ := Option.bind_eq_some_iff.mp leads
    obtain ⟨calls, putsBack, onward⟩ := ih leads (event.pass pending)
    rw [← List.foldl_cons] at putsBack
    have split := List.takeWhile_append_dropWhile
      (p := fun token : Placed => token.kind.isTrivia) (l := pending)
    cases event with
    | start kind =>
      cases steps
      refine ⟨_, split ▸ putsBack.node _ kind fun _ => isWord_of_dropTrivia, fun base rest => ?_⟩
      have same := onward base rest
      rw [← Nat.add_assoc] at same
      rw [List.cons_append, replayFrom, if_neg (Nat.succ_ne_zero _), List.append_assoc,
        List.cons_append, List.foldl_cons, ← same]
      rfl
    | finish =>
      cases depth with
      | zero => cases steps
      | succ outer =>
        cases steps
        refine ⟨.finish :: calls, putsBack.addsNothing rfl rfl, fun base rest => ?_⟩
        rw [List.cons_append, replayFrom, if_neg (by omega), Nat.add_sub_cancel, ← Nat.add_assoc,
          List.cons_append]
        exact congrArg _ (onward base rest)
    | token =>
      cases steps
      cases ahead : pending.dropWhile fun token => token.kind.isTrivia with
      | nil =>
        have stays : Event.token.pass pending = pending := by rw [Event.pass, ahead]
        rw [stays] at putsBack onward
        refine ⟨calls, putsBack, fun base rest => ?_⟩
        rw [List.cons_append, replayFrom, ahead, List.foldl_cons, stays]
        exact onward base rest
      | cons word behind =>
        have isWord := isWord_of_dropTrivia (congrArg List.head? ahead)
        have passed : Event.token.pass pending = behind := by rw [Event.pass, ahead]
        rw [passed] at putsBack onward
        rw [ahead] at split
        refine ⟨_, split ▸ putsBack.word _ isWord, fun base rest => ?_⟩
        rw [List.cons_append, replayFrom, ahead, List.append_assoc, List.cons_append,
          List.foldl_cons, passed, ← onward]
    | abandoned =>
      cases steps
      exact ⟨calls, putsBack, fun base rest => onward base rest⟩
    | diagnostic message start stop =>
      cases steps
      let error := Error.recovered message (coveredSpan words start stop)
      exact ⟨.report error :: calls, putsBack.addsNothing rfl rfl, fun base rest =>
        congrArg _ (onward base rest)⟩

/-- Inside of a node, a well nested part of the log becomes well nested calls, which add the tokens
passed over. The words among these are the words taken. -/
theorem replayFrom_nested (words : Array Placed) {events : List Event}
    (nested : Nested Event.role events) (pending : List Placed) (depth : Nat) :
    ∃ calls later, HandsOn calls pending later ∧
      significant later = (significant pending).drop (events.count .token) ∧
      ∀ rest, replayFrom words pending (depth + 1) (events ++ rest) =
        calls ++ replayFrom words later (depth + 1) rest := by
  obtain ⟨calls, putsBack, onward⟩ := replayFrom_within words (nested.depthAfter 0) pending
  exact ⟨calls, _, ⟨nested_of_depthAfter putsBack.leads, putsBack.kept⟩,
    significant_pass pending events, onward depth⟩

/-- An item of two lists in a row is one of the first or one of the second. -/
theorem split_append {α : Type} {front back before after : List α} {item : α}
    (same : front ++ back = before ++ item :: after) :
    (∃ own, front = before ++ item :: own ∧ after = own ++ back) ∨
      ∃ passed, before = front ++ passed ∧ back = passed ++ item :: after := by
  rcases List.append_eq_append_iff.mp same with ⟨passed, rfl, rfl⟩ | ⟨own, rfl, behind⟩
  · exact .inr ⟨passed, rfl, rfl⟩
  cases own with
  | nil => exact .inr ⟨[], by simp, behind.symm⟩
  | cons first own =>
    obtain ⟨rfl, rfl⟩ := List.cons.inj behind
    exact .inl ⟨own, rfl, rfl⟩

/-- The calls for a root node around calls and the tokens left behind them, and reports. -/
def rootCalls (kind : Syntax.Kind) (calls : List Call) (later : List Placed)
    (errors : List Error) : List Call :=
  .start kind :: (calls ++ (later.map .token ++ .finish :: errors.map .report))

theorem filterMap_token?_behind (calls : List Call) (later : List Placed) (errors : List Error) :
    (calls ++ (later.map Call.token ++ Call.finish :: errors.map .report)).filterMap Call.token? =
      calls.filterMap Call.token? ++ later := by
  rw [List.filterMap_append, List.filterMap_append, Call.filterMap_token?_tokens,
    List.filterMap_cons_none rfl, Call.filterMap_token?_reports, List.append_nil]

/-- Entries come from the start of the root, from the calls inside of it, and from the tokens left
behind these. -/
theorem rootCalls_cases {calls before after : List Call} {later : List Placed}
    {errors : List Error} {kind : Syntax.Kind} {call : Call}
    (split : rootCalls kind calls later errors = before ++ call :: after)
    (adds : call.content?.isSome) :
    before = [] ∧ call = .start kind ∨
      (∃ inner own, before = .start kind :: inner ∧ calls = inner ++ call :: own ∧
        after = own ++ (later.map .token ++ .finish :: errors.map .report)) ∨
      ∃ (passed : List Placed) (token : Placed),
        before = .start kind :: (calls ++ passed.map .token) ∧ call = .token token := by
  cases before with
  | nil => exact .inl ⟨rfl, (List.cons.inj split).1.symm⟩
  | cons root inner =>
    obtain ⟨rfl, inRoot⟩ := List.cons.inj split
    refine .inr ?_
    rcases split_append inRoot with ⟨own, rfl, rfl⟩ | ⟨passed, rfl, left⟩
    · exact .inl ⟨inner, own, rfl, rfl, rfl⟩
    refine .inr ?_
    rcases split_append left with ⟨own, mapped, -⟩ | ⟨reports, -, ended⟩
    · obtain ⟨passed, behind, -, rfl, others⟩ := List.map_eq_append_iff.mp mapped
      obtain ⟨token, coming, -, rfl, -⟩ := List.map_eq_cons_iff.mp others
      exact ⟨passed, token, rfl, rfl⟩
    · have member : call ∈ Call.finish :: errors.map .report := by simp [ended]
      rcases List.mem_cons.mp member with rfl | isReport
      · cases adds
      · obtain ⟨error, -, rfl⟩ := List.mem_map.mp isReport
        cases adds

theorem replay_start (tokens : List Placed) (kind : Syntax.Kind) (events : List Event) :
    replay tokens (.start kind :: events) =
      .start kind :: replayFrom (significant tokens).toArray tokens 1 events := by
  rw [replay, replayFrom, if_pos rfl]

theorem replayFrom_finish (words : Array Placed) (pending : List Placed) :
    replayFrom words pending 1 [.finish] = pending.map .token ++ [.finish] := by
  rw [replayFrom, if_pos (Nat.le_refl 1), replayFrom]

/-- The log of a root node becomes the calls for a root node: those that add the tokens passed over
inside of it, and those that add what is left. -/
theorem replay_root {events : List Event} (nested : Nested Event.role events)
    (kind : Syntax.Kind) (tokens : List Placed) :
    ∃ calls, PutsBack 0 0 calls tokens (events.foldl Event.pass tokens) ∧
      ∀ errors, replay tokens (.start kind :: (events ++ [.finish])) ++ errors.map .report =
        rootCalls kind calls (events.foldl Event.pass tokens) errors := by
  obtain ⟨calls, putsBack, onward⟩ :=
    replayFrom_within (significant tokens).toArray (nested.depthAfter 0) tokens
  refine ⟨calls, putsBack, fun errors => ?_⟩
  rw [replay_start, onward 0, replayFrom_finish, rootCalls]
  simp

/-- Replaying the log of a root node adds all tokens, in order. -/
theorem filterMap_token?_replay {events : List Event} (nested : Nested Event.role events)
    (kind : Syntax.Kind) (tokens : List Placed) (errors : List Error) :
    (replay tokens (.start kind :: (events ++ [Event.finish])) ++
      errors.map Call.report).filterMap Call.token? = tokens := by
  obtain ⟨calls, putsBack, replayed⟩ := replay_root nested kind tokens
  rw [replayed, rootCalls, List.filterMap_cons_none rfl, filterMap_token?_behind, putsBack.kept]

end Offside.Parse
