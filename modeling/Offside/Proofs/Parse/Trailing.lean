import Mathlib.Data.List.DropRight
import Offside.Lex
import Offside.Proofs.Parse.Lossless

/-! # Trivia behind the last word

What is left when the outermost node finishes goes to that node. But a node that starts behind the
last word passes all that is left, and this goes to the node around it. So trivia behind the last
word goes to the root exactly if the log closes whatever is open there before it starts anything
else.
-/

namespace Offside.Parse

open Source Token Syntax

/-- The trivia behind the last word. -/
def trailing (tokens : List Placed) : List Placed :=
  tokens.rtakeWhile fun token => token.kind.isTrivia

theorem trailing_concat (tokens : List Placed) (last : Placed) :
    trailing (tokens ++ [last]) =
      if last.kind.isTrivia then trailing tokens ++ [last] else [] :=
  List.rtakeWhile_concat ..

theorem isTrivia_of_mem_trailing {tokens : List Placed} {token : Placed}
    (member : token ∈ trailing tokens) : token.kind.isTrivia = true :=
  List.mem_rtakeWhile_imp (p := fun token : Placed => token.kind.isTrivia) member

theorem trailing_append (front : List Placed) {back : List Placed}
    (trivia : ∀ token ∈ back, token.kind.isTrivia = true) :
    trailing (front ++ back) = trailing front ++ back := by
  induction back using List.reverseRecOn with
  | nil => simp
  | append_singleton back last ih =>
    obtain ⟨others, isTrivia⟩ := List.forall_mem_append.mp trivia
    rw [← List.append_assoc, trailing_concat, if_pos (isTrivia last (List.mem_singleton_self last)),
      ih others, List.append_assoc]

theorem trailing_behind_word (front : List Placed) {word : Placed}
    (isWord : word.kind.isTrivia = false) (behind : List Placed) :
    trailing (front ++ word :: behind) = trailing behind := by
  induction behind using List.reverseRecOn with
  | nil =>
    rw [trailing_concat, isWord]
    rfl
  | append_singleton behind last ih =>
    rw [← List.cons_append, ← List.append_assoc, trailing_concat, trailing_concat, ih]

/-- As long as there is a word ahead, the trivia behind the last one is still to come. -/
theorem trailing_pass {pending : List Placed} (some : significant pending ≠ []) (event : Event) :
    trailing (event.pass pending) = trailing pending := by
  cases ahead : pending.dropWhile fun token => token.kind.isTrivia with
  | nil =>
    rw [← significant_dropTrivia, ahead] at some
    exact absurd rfl some
  | cons word behind =>
    have isWord := isWord_of_dropTrivia (congrArg List.head? ahead)
    have whole : trailing pending = trailing behind := by
      rw [← List.takeWhile_append_dropWhile (p := fun token : Placed => token.kind.isTrivia)
        (l := pending), ahead, trailing_behind_word _ isWord]
    cases event with
    | start kind =>
      rw [Event.pass, ahead, whole]
      exact trailing_behind_word [] isWord behind
    | token => rw [Event.pass, ahead, whole]
    | finish | abandoned | diagnostic => rfl

/-- Every node that is started has one of some words still ahead. -/
def StartsEarly (words : Nat) (events : List Event) : Prop :=
  ∀ before kind after, events = before ++ .start kind :: after → before.count .token < words

theorem StartsEarly.tail {words : Nat} {event : Event} {events : List Event}
    (early : StartsEarly words (event :: events)) :
    StartsEarly (words - [event].count .token) events := by
  rintro before kind after rfl
  have ahead := early (event :: before) kind after rfl
  rw [← List.singleton_append, List.count_append] at ahead
  omega

/-- Events that take all words, and start nothing behind the last of them, leave the trivia behind
it. -/
theorem foldl_pass_eq_trailing {events : List Event} {pending : List Placed}
    (early : StartsEarly (significant pending).length events)
    (all : events.count .token = (significant pending).length) :
    events.foldl Event.pass pending = trailing pending := by
  induction events generalizing pending with
  | nil =>
    have none := List.length_eq_zero_iff.mp all.symm
    refine (List.rtakeWhile_eq_self_iff.mpr fun token member => ?_).symm
    simpa using List.filter_eq_nil_iff.mp none token member
  | cons event events ih =>
    have left : (significant (event.pass pending)).length =
        (significant pending).length - [event].count .token := by
      rw [← List.length_drop, ← significant_pass pending [event]]
      rfl
    rw [← List.singleton_append, List.count_append] at all
    have onward := @ih (event.pass pending) (left ▸ early.tail) (by omega)
    rw [List.foldl_cons, onward]
    by_cases none : significant pending = []
    · rw [none, List.length_nil] at early all
      cases event with
      | start kind => cases early [] kind events rfl
      | token => simp at all
      | finish | abandoned | diagnostic => rfl
    · exact trailing_pass none event

/-- Up to the first node that is started behind all words, every node is started before that. -/
theorem exists_startsEarly (words : Nat) (events : List Event) :
    ∃ before after, events = before ++ after ∧ StartsEarly words before ∧
      (after = [] ∨
        ∃ kind rest, after = .start kind :: rest ∧ words ≤ before.count .token) := by
  induction events using List.reverseRecOn with
  | nil => exact ⟨[], [], rfl, fun _ _ _ none => by simp at none, .inl rfl⟩
  | append_singleton events last ih =>
    obtain ⟨before, after, rfl, early, rfl | ⟨kind, rest, rfl, all⟩⟩ := ih
    · by_cases late : (∃ kind, last = .start kind) ∧ words ≤ before.count .token
      · obtain ⟨⟨kind, rfl⟩, all⟩ := late
        exact ⟨before, [.start kind], by simp, early, .inr ⟨kind, [], rfl, all⟩⟩
      · refine ⟨before ++ [last], [], by simp, fun earlier kind between split => ?_, .inl rfl⟩
        rcases split_append split with ⟨own, same, -⟩ | ⟨passed, rfl, only⟩
        · exact early earlier kind own same
        · obtain ⟨rfl, same⟩ : passed = [] ∧ last = .start kind := by
            cases passed with
            | nil => exact ⟨rfl, (List.cons.inj only).1⟩
            | cons => simp at only
          rw [List.append_nil]
          exact Nat.lt_of_not_le fun all => late ⟨⟨kind, same⟩, all⟩
    · exact ⟨before, .start kind :: (rest ++ [last]), by simp, early, .inr ⟨kind, _, rfl, all⟩⟩

/-! ## Leaves behind the last word -/

/-- A leaf that holds trivia and has only trivia behind it. -/
def IsTrailing (tree : Tree) (id : Nat) : Prop :=
  (tree.token? id).isSome ∧
    ∀ token ∈ (List.range' id (tree.size - id)).filterMap tree.token?, token.kind.isTrivia = true

instance (tree : Tree) (id : Nat) : Decidable (IsTrailing tree id) :=
  inferInstanceAs (Decidable (_ ∧ _))

theorem isTrailing_iff (before after : List Call) (token : Placed) :
    IsTrailing (Tree.ofCalls (before ++ .token token :: after)).1
        (before.foldl Builder.call .empty).tree.size ↔
      ∀ other ∈ (Call.token token :: after).filterMap Call.token?,
        other.kind.isTrivia = true := by
  have adds : (Call.token token).content? = some (.token token) := rfl
  obtain ⟨-, -, isToken, -⟩ := Tree.ofCalls_call adds before after
  rw [IsTrailing, isToken, Tree.tokens_from before]
  exact and_iff_right rfl

theorem IsTrailing.exists_call {calls : List Call} {id : Nat}
    (isTrailing : IsTrailing (Tree.ofCalls calls).1 id) :
    ∃ before token after, calls = before ++ .token token :: after ∧
      id = (before.foldl Builder.call .empty).tree.size ∧
      ∀ other ∈ (Call.token token :: after).filterMap Call.token?,
        other.kind.isTrivia = true := by
  obtain ⟨token, isToken⟩ := Option.isSome_iff_exists.mp isTrailing.1
  obtain ⟨before, call, after, content, rfl, adds, rfl⟩ :=
    Tree.exists_call_of_lt_size (Tree.lt_size_of_token? isToken)
  rw [(Tree.ofCalls_call adds before after).2.2.1] at isToken
  cases call with
  | start kind =>
    cases adds
    cases isToken
  | token other =>
    exact ⟨before, other, after, rfl, rfl, (isTrailing_iff before after other).mp isTrailing⟩
  | finish | report => cases adds

/-! ## Where they go -/

/-- Calls with the trivia behind the last word still to come add a word last. -/
theorem exists_word_behind {tokens : List Placed} {calls front after : List Call} {token : Placed}
    (kept : calls.filterMap Call.token? ++ trailing tokens = tokens)
    (split : calls = front ++ .token token :: after) :
    ∃ word ∈ (Call.token token :: after).filterMap Call.token?, word.kind.isTrivia = false := by
  by_contra none
  have trivia : ∀ other ∈ (Call.token token :: after).filterMap Call.token? ++ trailing tokens,
      other.kind.isTrivia = true := fun other member => by
    rcases List.mem_append.mp member with inside | behind
    · by_contra isWord
      exact none ⟨other, inside, Bool.eq_false_iff.mpr isWord⟩
    · exact isTrivia_of_mem_trailing behind
  have same := trailing_append (front.filterMap Call.token?) trivia
  rw [← List.append_assoc, ← List.filterMap_append, ← split, kept] at same
  have lengths := congrArg List.length same
  rw [List.length_append, List.length_append,
    List.filterMap_cons_some (f := Call.token?) (b := token) rfl, List.length_cons] at lengths
  omega

/-- With only trivia to come, calls inside of the root add it in front of any node. -/
theorem PutsBack.nested_of_trivia {calls front after : List Call} {token : Placed}
    {pending later : List Placed} (putsBack : PutsBack 0 0 calls pending later)
    (trivia : ∀ other ∈ pending, other.kind.isTrivia = true)
    (split : calls = front ++ .token token :: after) : Nested Call.role front := by
  subst split
  have noStart : ∀ call ∈ front, call.role ≠ .opens := by
    rintro call member opens
    obtain ⟨kind, rfl⟩ := Call.eq_start_of_role opens
    obtain ⟨outer, inner, rfl⟩ := List.append_of_mem member
    let behind := inner ++ .token token :: after
    have whole : outer ++ .start kind :: inner ++ .token token :: after =
        outer ++ .start kind :: behind := by simp [behind]
    rw [whole] at putsBack
    have some : token ∈ behind.filterMap Call.token? ++ later := by simp [behind, Call.token?]
    obtain ⟨first, rest, next⟩ := List.exists_cons_of_ne_nil (List.ne_nil_of_mem some)
    have isWord := putsBack.start kind behind (List.suffix_append ..) first (by rw [next]; rfl)
    have inside : first ∈ pending := by
      rw [← putsBack.kept, List.filterMap_append, List.filterMap_cons_none rfl, List.append_assoc,
        next]
      exact List.mem_append_right _ (List.mem_cons_self ..)
    rw [trivia first inside] at isWord
    cases isWord
  have leads := putsBack.leads
  rw [depthAfter_append] at leads
  obtain ⟨depth, leads, -⟩ := Option.bind_eq_some_iff.mp leads
  have counted := playing_of_depthAfter leads
  have none : playing Call.role .opens front = 0 :=
    List.countP_eq_zero.mpr fun call member => by simpa using noStart call member
  obtain rfl : depth = 0 := by omega
  exact nested_of_depthAfter leads

section

variable {tokens : List Placed} {before after : List Event} {depth : Nat}

/-- If everything is closed behind the last word before anything else is started, the trivia behind
it goes to the root. -/
theorem parent?_of_isTrailing (nestedBefore : Nested Event.role before)
    (nestedAfter : Nested Event.role after)
    (early : StartsEarly (significant tokens).length before)
    (all : before.count .token = (significant tokens).length) (errors : List Error) {id : Nat} :
    let tree := (Tree.ofCalls (replay tokens (.start .file :: (before ++ after ++ [.finish])) ++
      errors.map .report)).1
    IsTrailing tree id → tree.parent? id = some 0 := by
  intro tree isTrailing
  let words := (significant tokens).toArray
  obtain ⟨calls, putsBack, onward⟩ := replayFrom_within words (nestedBefore.depthAfter 0) tokens
  rw [foldl_pass_eq_trailing early all] at putsBack onward
  obtain ⟨more, putsBackMore, onwardMore⟩ :=
    replayFrom_within words (nestedAfter.depthAfter 0) (trailing tokens)
  generalize after.foldl Event.pass (trailing tokens) = later at putsBackMore onwardMore
  have replayed : replay tokens (.start .file :: (before ++ after ++ [.finish])) ++
      errors.map .report = rootCalls .file (calls ++ more) later errors := by
    rw [replay_start, List.append_assoc, onward 0, onwardMore 0, replayFrom_finish, rootCalls]
    simp
  have nested : Nested Call.role calls := nested_of_depthAfter putsBack.leads
  simp only [tree, replayed] at isTrailing ⊢
  obtain ⟨front, token, behind, split, rfl, trivia⟩ := isTrailing.exists_call
  rcases rootCalls_cases split rfl with
    ⟨-, none⟩ | ⟨inner, own, rfl, inside, rfl⟩ | ⟨passed, other, rfl, same⟩
  · cases none
  · rw [split]
    refine (Tree.parent?_eq_root_iff rfl .file inner _).mpr ?_
    rcases split_append inside with ⟨rest, inCalls, rfl⟩ | ⟨passed, rfl, inMore⟩
    · obtain ⟨word, member, isWord⟩ := exists_word_behind putsBack.kept inCalls
      rw [List.append_assoc, ← List.cons_append, List.filterMap_append] at trivia
      rw [trivia word (List.mem_append_left _ member)] at isWord
      cases isWord
    · exact nested.append
        (putsBackMore.nested_of_trivia (fun _ => isTrivia_of_mem_trailing) inMore)
  · rw [split]
    refine (Tree.parent?_eq_root_iff rfl .file _ _).mpr ?_
    have nestedMore : Nested Call.role more := nested_of_depthAfter putsBackMore.leads
    exact (nested.append nestedMore).append (HandsOn.tokens passed []).nested

/-- If a node is started behind the last word, the trivia in between goes to the node around it. -/
theorem nested_of_parent? {kind : Syntax.Kind}
    (leads : depthAfter Event.role 0 before = some depth)
    (early : StartsEarly (significant tokens).length before)
    (all : before.count .token = (significant tokens).length) (remains : trailing tokens ≠ [])
    (errors : List Error) :
    let calls := replay tokens (.start .file :: (before ++ .start kind :: after ++ [.finish])) ++
      errors.map .report
    calls.filterMap Call.token? = tokens →
      (∀ id, IsTrailing (Tree.ofCalls calls).1 id → (Tree.ofCalls calls).1.parent? id = some 0) →
      Nested Event.role before := by
  intro calls keeps below
  obtain ⟨front, putsBack, onward⟩ :=
    replayFrom_within (significant tokens).toArray leads tokens
  rw [foldl_pass_eq_trailing early all] at putsBack onward
  obtain ⟨token, more, left⟩ := List.exists_cons_of_ne_nil remains
  have isTrivia : token.kind.isTrivia = true :=
    isTrivia_of_mem_trailing (left ▸ List.mem_cons_self ..)
  have passed : (token :: more).takeWhile (fun token => token.kind.isTrivia) = token :: _ :=
    List.takeWhile_cons_of_pos isTrivia
  have inside := onward 0 (.start kind :: (after ++ [.finish]))
  rw [left, replayFrom, if_neg (Nat.succ_ne_zero _)] at inside
  simp only [passed, List.map_cons, List.cons_append] at inside
  obtain ⟨behind, whole⟩ : ∃ behind, calls = .start .file :: (front ++ .token token :: behind) := by
    simp only [calls]
    rw [replay_start, show before ++ .start kind :: after ++ [.finish] =
      before ++ .start kind :: (after ++ [.finish]) by simp, inside, List.cons_append,
      List.append_assoc, List.cons_append]
    exact ⟨_, rfl⟩
  have added : (Call.token token :: behind).filterMap Call.token? = trailing tokens := by
    have kept := putsBack.kept
    rw [whole, List.filterMap_cons_none rfl, List.filterMap_append] at keeps
    exact List.append_cancel_left (keeps.trans kept.symm)
  rw [whole] at below
  have isTrailing := (isTrailing_iff (.start .file :: front) behind token).mpr fun other member =>
    isTrivia_of_mem_trailing (added ▸ member)
  have nested := (Tree.parent?_eq_root_iff rfl .file front behind).mp (below _ isTrailing)
  obtain rfl : depth = 0 :=
    Option.some.inj (putsBack.leads.symm.trans (nested.depthAfter 0))
  exact nested_of_depthAfter leads

end

/-- Trivia that a tree holds behind the last word stands there among the tokens. -/
theorem trailing_ne_nil_of_isTrailing {calls : List Call} {id : Nat}
    (isTrailing : IsTrailing (Tree.ofCalls calls).1 id) :
    trailing (calls.filterMap Call.token?) ≠ [] := by
  obtain ⟨front, token, behind, rfl, -, trivia⟩ := isTrailing.exists_call
  rw [List.filterMap_append, trailing_append _ trivia]
  simp [Call.token?]

/-- Whatever a grammar makes of some tokens: the trivia behind the last word is below the root and
below no other node exactly if there is none, or if behind the last word the log closes all that is
open inside of the root before it starts anything else. -/
theorem trailing_trivia_below_root_iff (compiled : Grammar.Compiled) (naive : Bool)
    (source : String) (tokens : List Placed) (fuel : Nat) :
    let answer := compiled.grammar.parseWithin (wordsOf source tokens) naive fuel compiled.root
      .underRoot
    let tree := (Result.ofAnswer source tokens answer).tree
    let words := (significant tokens).length
    ∃ inner, (conclude (wordsOf source tokens) answer).2 = .start .file :: (inner ++ [.finish]) ∧
      ((∀ id, IsTrailing tree id → tree.parent? id = some 0) ↔
        trailing tokens = [] ∨ ∃ before after, inner = before ++ after ∧
          Nested Event.role before ∧ before.count .token = words ∧ StartsEarly words before) := by
  intro answer tree words
  obtain ⟨inner, errors, log, nested, count, built⟩ :=
    exists_log compiled naive source tokens fuel
  have keeps := filterMap_token?_replay nested .file tokens errors
  have leads := nested.depthAfter 0
  refine ⟨inner, log, ?_⟩
  rw [show tree = _ from built]
  constructor
  · intro below
    by_cases remains : trailing tokens = []
    · exact .inl remains
    obtain ⟨before, after, rfl, early, rfl | ⟨kind, rest, rfl, all⟩⟩ :=
      exists_startsEarly words inner
    · rw [List.append_nil] at nested count
      exact .inr ⟨before, [], rfl, nested, count, early⟩
    · rw [depthAfter_append] at leads
      obtain ⟨depth, leads, -⟩ := Option.bind_eq_some_iff.mp leads
      have all : before.count .token = words := by
        rw [List.count_append] at count
        omega
      exact .inr ⟨before, _, rfl, nested_of_parent? leads early all remains errors keeps below,
        all, early⟩
  · rintro (none | ⟨before, after, rfl, nestedBefore, all, early⟩) id isTrailing
    · have remains := trailing_ne_nil_of_isTrailing isTrailing
      rw [keeps] at remains
      exact absurd none remains
    · rw [depthAfter_append, nestedBefore.depthAfter] at leads
      exact parent?_of_isTrailing nestedBefore (nested_of_depthAfter leads) early all errors
        isTrailing

/-- A node without tokens behind the only word: the space between them goes to the node around
both. -/
theorem space_in_front_of_empty_node :
    let nothing : Grammar.Node := .symbolic (.made 2) .exprInfix (.empty (.made 1))
    let root : Grammar.Node :=
      .symbolic (.made 4) .exprApp (.seq (.made 3) [.token (.made 0) .lowerName, nothing])
    let compiled : Grammar.Compiled := ⟨.ofRules .empty, root, ⟨5, 0, 0, 0⟩⟩
    let result := parseTokens compiled false "x " (lex .default "x ")
    result.outcome.success = true ∧ result.errors = [] ∧ IsTrailing result.tree 3 ∧
      result.tree.kind? 1 = some .exprApp ∧ result.tree.parent? 3 = some 1 := by
  decide +kernel

end Offside.Parse
