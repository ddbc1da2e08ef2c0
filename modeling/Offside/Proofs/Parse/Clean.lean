import Offside.Lex
import Offside.Proofs.Parse.Lossless
import Offside.Proofs.Run.Soundness

/-! # A clean parse is a derivation

A file that is parsed with success and without errors is in the language of the grammar, provided
that what the grammar repeats gives back what it took when it fails. Without that, a repetition may
end behind half of an item, and nothing is said about it.

Errors are what was recorded as reports, so a result without errors comes from a log without
reports.
-/

namespace Offside.Parse

open Source Token Syntax Grammar

/-! ## Reports become errors -/

theorem mem_spliceFrom {event : Event} {events : List Event} (member : event ∈ events)
    (index : Nat) (pending : List Wrap) : event ∈ spliceFrom index pending events := by
  induction events generalizing index pending with
  | nil => cases member
  | cons first rest ih =>
    rw [spliceFrom]
    refine List.mem_append_right _ ?_
    rcases List.mem_cons.mp member with rfl | later
    · exact List.mem_cons_self ..
    · exact List.mem_cons_of_mem _ (ih later ..)

/-- A result without errors comes from a log without reports. -/
theorem isClean_of_errors_eq_nil {source : String} {tokens : List Placed} {answer : Bool × State}
    (none : (Result.ofAnswer source tokens answer).errors = [])
    (complete : (conclude (wordsOf source tokens) answer).2 = (answer.2.record .finish).log) :
    answer.2.trail.IsClean := by
  intro message start stop member
  have recorded : Event.diagnostic message start stop ∈ (answer.2.record .finish).log := by
    rw [State.log_eq, State.trail_record]
    exact mem_spliceFrom (List.mem_append_left _ member) ..
  have reported : Error.recovered message (coveredSpan (significant tokens).toArray start stop) ∈
      (Result.ofAnswer source tokens answer).errors := by
    unfold Result.ofAnswer
    rw [← complete] at recorded
    refine (Tree.errors_ofCalls_perm _).mem_iff.mpr ?_
    rw [List.filterMap_append, replay, errors_replayFrom]
    exact List.mem_append_left _ (List.mem_filterMap.mpr ⟨_, recorded, rfl⟩)
  rw [none] at reported
  cases reported

/-! ## Whole files -/

theorem success_outcome (state : State) (success : Bool) :
    (state.outcome success).success = success := by
  unfold State.outcome
  split <;> rfl

/-- A grammar that succeeded over a whole file matched and took all words. -/
theorem success_ofAnswer {source : String} {tokens : List Placed} {answer : Bool × State}
    (success : (Result.ofAnswer source tokens answer).outcome.success = true) :
    answer.1 = true ∧ answer.2.atEnd (wordsOf source tokens) = true ∧
      (conclude (wordsOf source tokens) answer).2 = (answer.2.record .finish).log := by
  have complete : (answer.1 && answer.2.atEnd (wordsOf source tokens)) = true := by
    have same : (Result.ofAnswer source tokens answer).outcome.success =
        (answer.1 && answer.2.atEnd (wordsOf source tokens)) := success_outcome ..
    rwa [same] at success
  obtain ⟨matched, atEnd⟩ := Bool.and_eq_true_iff.mp complete
  refine ⟨matched, atEnd, ?_⟩
  unfold conclude
  simp only [complete, ↓reduceIte]

/-- If every node that the grammar repeats gives back what it took when it fails, then a file that
is parsed with success and without errors is in the language of the grammar: the root derives its
words, and no word was taken by an attempt that failed. -/
theorem derives_of_clean_parse (compiled : Compiled) (naive : Bool) (source : String)
    (tokens : List Placed) (fuel : Nat) (whole : compiled.grammar.RepeatsWhole compiled.root) :
    let words := wordsOf source tokens
    let answer := compiled.grammar.parseWithin words naive fuel compiled.root .underRoot
    let result := Result.ofAnswer source tokens answer
    result.outcome.success = true → result.errors = [] →
      Derives compiled.grammar.rules compiled.root words.toList := by
  intro words answer result success none
  obtain ⟨matched, atEnd, complete⟩ := success_ofAnswer success
  have clean := isClean_of_errors_eq_nil none complete
  have ended : compiled.grammar.runNode words naive fuel compiled.root .underRoot =
      some (true, answer.2) := by
    cases ran : compiled.grammar.runNode words naive fuel compiled.root .underRoot with
    | none =>
      have same : answer = (false, State.underRoot) := by
        simp only [answer, parseWithin, ran, Option.getD_none]
      rw [same] at matched
      cases matched
    | some other =>
      have same : answer = other := by
        simp only [answer, parseWithin, ran, Option.getD_some]
      rw [← same, ← matched]
  obtain ⟨taken, split, derives⟩ := reads_of_runNode whole ended clean
  have nothingLeft : remaining words answer.2 = [] := by
    have reached : words.size ≤ answer.2.position := of_decide_eq_true atEnd
    exact List.drop_eq_nil_of_le (by rwa [Array.length_toList])
  rw [nothingLeft, List.append_nil] at split
  change words.toList.drop 0 = taken at split
  rw [List.drop_zero] at split
  rwa [split]

/-- Pairs that are undone when they fail may be repeated. -/
theorem derives_of_clean_parse_of_healed_pairs :
    let pair : Node := .seq (.made 2) [.token (.made 0) .lowerName, .token (.made 1) .properName]
    let compiled : Compiled :=
      ⟨ofRules .empty, .oneOrMore (.made 4) (.heal (.made 3) pair), ⟨5, 0, 0, 0⟩⟩
    let tokens := lex .default "a B c D"
    let words := wordsOf "a B c D" tokens
    let answer := compiled.grammar.parseWithin words false 6 compiled.root .underRoot
    let result := Result.ofAnswer "a B c D" tokens answer
    compiled.grammar.RepeatsWhole compiled.root ∧ result.outcome.success = true ∧
      result.errors = [] ∧ Derives compiled.grammar.rules compiled.root words.toList := by
  intro pair compiled tokens words answer result
  have whole : compiled.grammar.RepeatsWhole compiled.root := by
    intro stamp child reached
    have inside : .oneOrMore stamp child ∈ [compiled.root, .heal (.made 3) pair, pair,
        .token (.made 0) .lowerName, .token (.made 1) .properName] :=
      reached.mem_of_closed (by simp) (by simp [compiled, pair, Node.children])
    obtain ⟨rfl, rfl⟩ : stamp = .made 4 ∧ child = .heal (.made 3) pair := by
      simpa [compiled, pair] using inside
    exact givesBack_of_undoesFailure compiled.grammar rfl
  have success : result.outcome.success = true := by decide +kernel
  have clean : result.errors = [] := by decide +kernel
  have derives := derives_of_clean_parse compiled false "a B c D" tokens 6 whole success clean
  exact ⟨whole, success, clean, derives⟩

/-! ## Half an item -/

private theorem length_of_pair {rules : Rules} {whole first second : Stamp} {words : List Word}
    {kind other : Token.Kind}
    (derives : Derives rules (.seq whole [.token first kind, .token second other]) words) :
    words.length = 2 := by
  cases derives with
  | item one behind =>
    cases one
    cases behind with
    | item two none =>
      cases two
      cases none
      rfl

private theorem two_dvd_of_pairs {rules : Rules} {many whole first second : Stamp}
    {words : List Word} {kind other : Token.Kind}
    (derives : Derives rules
      (.oneOrMore many (.seq whole [.token first kind, .token second other])) words) :
    2 ∣ words.length := by
  generalize root_eq : Node.oneOrMore many _ = root at derives
  induction derives with
  | once first _ =>
    cases root_eq
    exact (length_of_pair first).symm ▸ Nat.dvd_refl 2
  | again before next ih _ =>
    cases root_eq
    rw [List.length_append, length_of_pair next]
    exact Nat.dvd_add (ih rfl) (Nat.dvd_refl 2)
  | _ => cases root_eq

/-- Pairs that are not undone when they fail: behind a whole pair, the first half of another is
taken, and the parse succeeds without an error over words that no number of pairs make up. -/
theorem clean_parse_behind_half_a_pair :
    let pair : Node := .seq (.made 2) [.token (.made 0) .lowerName, .token (.made 1) .properName]
    let compiled : Compiled := ⟨ofRules .empty, .oneOrMore (.made 3) pair, ⟨4, 0, 0, 0⟩⟩
    let tokens := lex .default "a B a"
    let result := parseTokens compiled false "a B a" tokens
    result.outcome.success = true ∧ result.errors = [] ∧
      ¬Derives compiled.grammar.rules compiled.root (wordsOf "a B a" tokens).toList := by
  intro pair compiled tokens result
  have success : result.outcome.success = true := by decide +kernel
  have clean : result.errors = [] := by decide +kernel
  have three : (wordsOf "a B a" tokens).toList.length = 3 := by decide +kernel
  refine ⟨success, clean, fun derives => ?_⟩
  have paired := two_dvd_of_pairs derives
  rw [three] at paired
  exact absurd paired (by decide)

end Offside.Parse
