import Offside.Proofs.Parse.Modes
import Offside.PureScript.Module

/-! # Parsing PureScript

In the grammar of PureScript no rule may match nothing, and every rule starts with a token or with a
rule in front of it in a fixed order, so there is no left recursion. A parse of a module therefore
never runs out of fuel, and what it gives is what the grammar came to. All its rules are defined,
and its only lookahead looks at one word, so it gives the same in whatever way choices are made.
-/

namespace Offside.PureScript

open Grammar Parse

/-- What can be read off the rules, all at once: the rules are known only once they are computed. -/
theorem rules_checked :
    rules.isInOrder [] ["type atom", "type", "binder atom", "binder", "expression", "binding",
        "module"] = true ∧
      rules.areDefined root = true ∧ (ofRules rules).rules.stayInView root = true := by
  decide +kernel

/-- No rule of PureScript is left-recursive. -/
theorem leftRecursionFree_rules : rules.LeftRecursionFree :=
  Rules.leftRecursionFree_of_isInOrder rules_checked.1

/-- The rules that take part in a module are all defined. -/
theorem isSome_body_of_reaches {stamp : Stamp} {rule : String}
    (reached : Reaches rules root (.ref stamp rule)) : (rules.body? rule).isSome :=
  Rules.isSome_body_of_areDefined rules_checked.2.1 reached

theorem leftRecursionFree_grammar : (ofRules rules).rules.LeftRecursionFree :=
  leftRecursionFree_ofRules leftRecursionFree_rules

theorem defined_root : (ofRules rules).Defined root :=
  defined_ofRules rules_checked.2.1

/-- So there is nothing wrong with the grammar. -/
theorem exists_compiled : ∃ compiled, compiled? = .ok compiled := by
  obtain ⟨stats, accepted⟩ := exists_compile defined_root
  exact ⟨_, accepted⟩

/-- The one lookahead of the grammar looks at one word, and no choice is left without
alternatives. -/
theorem steady_root (words : Array Word) : (ofRules rules).Steady words root :=
  steady_of_stayInView defined_root rules_checked.2.2

theorem parseModule_of_compiled {compiled : Compiled} (accepted : compiled? = .ok compiled)
    (options : Options) (source : String) :
    let result := parseTokens compiled options.naive source (lex options.layout source)
    parseModule options source = .ok ⟨result.outcome, result.tree, result.errors⟩ := by
  unfold parseModule
  rw [accepted]
  rfl

/-- A module is what the run of the grammar over the words of its source comes to. -/
theorem parseModule_eq (options : Options) (source : String) :
    let tokens := lex options.layout source
    parseModule options source = compiled?.map fun _ =>
      let result := Result.ofAnswer source tokens
        ((ofRules rules).parse (wordsOf source tokens) options.naive root .underRoot)
      ⟨result.outcome, result.tree, result.errors⟩ := by
  intro tokens
  obtain ⟨compiled, accepted⟩ := exists_compiled
  obtain ⟨itsGrammar, itsRoot, -⟩ := of_compile accepted
  rw [parseModule_of_compiled accepted, accepted, ← itsGrammar, ← itsRoot]
  rfl

/-- Every source is parsed, and whether choices are dispatched or tried in order, the same is made
of it: the same tree, and the same errors at the same places. -/
theorem modules_report_as_in_order (layout : Layout.Config) (source : String) :
    ∃ dispatched inOrder : Result,
      parseModule ⟨layout, false⟩ source =
          .ok ⟨dispatched.outcome, dispatched.tree, dispatched.errors⟩ ∧
        parseModule ⟨layout, true⟩ source =
          .ok ⟨inOrder.outcome, inOrder.tree, inOrder.errors⟩ ∧
        dispatched.ReportsAs inOrder := by
  obtain ⟨compiled, accepted⟩ := exists_compiled
  obtain ⟨itsGrammar, itsRoot, -⟩ := of_compile accepted
  have free : compiled.grammar.rules.LeftRecursionFree := by
    rw [itsGrammar]
    exact leftRecursionFree_grammar
  have steady : compiled.grammar.Steady (wordsOf source (lex layout source)) compiled.root := by
    rw [itsGrammar, itsRoot]
    exact steady_root _
  exact ⟨_, _, parseModule_of_compiled accepted ⟨layout, false⟩ source,
    parseModule_of_compiled accepted ⟨layout, true⟩ source,
    reportsAs_of_steady free source (lex layout source) steady⟩

/-- In a grammar without left recursion every node comes to an end, over any words, from any state,
whether choices are dispatched or not: what a parse answers is what the run of the node comes to,
with the fuel it is given as with any more. The grammar of PureScript is such a grammar, and its
rules are all defined, so every parse of a module is made of a run that ended. -/
theorem parse_ends_without_left_recursion :
    (∀ grammar : Grammar, grammar.rules.LeftRecursionFree →
      ∀ (words : Array Word) (naive : Bool) (node : Node) (state : State) (fuel : Nat),
        grammar.fuel words node ≤ fuel →
          grammar.runNode words naive fuel node state =
            some (grammar.parse words naive node state)) ∧
      rules.LeftRecursionFree ∧
      (∀ stamp rule, Reaches rules root (.ref stamp rule) → (rules.body? rule).isSome) ∧
      ∀ (options : Options) (source : String),
        let grammar := ofRules rules
        let tokens := lex options.layout source
        let words := wordsOf source tokens
        let answer := grammar.parse words options.naive root .underRoot
        (∀ fuel, grammar.fuel words root ≤ fuel →
            grammar.runNode words options.naive fuel root .underRoot = some answer) ∧
          parseModule options source = compiled?.map fun _ =>
            let result := Result.ofAnswer source tokens answer
            ⟨result.outcome, result.tree, result.errors⟩ := by
  refine ⟨?_, leftRecursionFree_rules, ?_, ?_⟩
  · intro grammar free words naive node state fuel enough
    exact runNode_eq_parse free words naive node state enough
  · intro stamp rule reached
    exact isSome_body_of_reaches reached
  · intro options source grammar tokens words answer
    have free : grammar.rules.LeftRecursionFree := leftRecursionFree_grammar
    refine ⟨?_, parseModule_eq options source⟩
    intro fuel enough
    exact runNode_eq_parse free words options.naive root .underRoot enough

/-- A repetition whose child may match nothing, in a rule that starts with it and then names
itself. -/
theorem parse_ends_without_left_recursion_of_names :
    let name : Node := .token (.made 0) .lowerName
    let names : Node := .oneOrMore (.made 2) (.choice (.made 1) [name] true)
    let body : Node := .seq (.made 5) [names, .token (.made 3) .comma, .ref (.made 4) "names"]
    let grammar := ofRules ⟨[("names", body)]⟩
    let words : Array Word := #[⟨.comma, ","⟩, ⟨.lowerName, "a"⟩]
    grammar.rules.LeftRecursionFree ∧ grammar.fuel words body ≤ 100 ∧
      grammar.runNode words false 100 body .start = some (grammar.parse words false body .start) ∧
      (grammar.parse words false body .start).1 = false := by
  intro name names body grammar words
  have free : grammar.rules.LeftRecursionFree :=
    Rules.leftRecursionFree_of_isInOrder
      (show grammar.rules.isInOrder [] ["names"] = true by decide)
  have enough : grammar.fuel words body ≤ 100 := by decide
  obtain ⟨ends, -⟩ := parse_ends_without_left_recursion
  exact ⟨free, enough, ends grammar free words false body .start 100 enough, by decide +kernel⟩

end Offside.PureScript
