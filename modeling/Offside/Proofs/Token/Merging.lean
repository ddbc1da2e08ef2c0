import Mathlib.Algebra.Group.Nat.Even
import Offside.Proofs.Token.Grouping

/-! # Qualifiers are merged as far as they go

There is one way to group lexemes into units such that nothing more could be merged, and merging
finds it. A unit takes in names and dots as long as they come in pairs; it ends at a lexeme that is
no name or has no dot right behind it, or at the end of input.
-/

namespace Offside.Token

/-- Pairs of a proper name and a dot, all without trivia. -/
inductive IsQualifier : List Lexeme → Prop
  | nil : IsQualifier []
  | pair {name dot : Lexeme} {rest : List Lexeme} (first : qualifies name dot = true)
    (behind : IsQualifier rest) : IsQualifier (name :: dot :: rest)

theorem qualifies_iff {name dot : Lexeme} :
    qualifies name dot = true ↔ name.kind = .properName ∧ name.trailing = [] ∧
      dot.kind = .dot ∧ dot.trailing = [] := by
  simp [qualifies, and_assoc]

namespace IsQualifier

variable {qualifier more : List Lexeme}

theorem append (left : IsQualifier qualifier) (right : IsQualifier more) :
    IsQualifier (qualifier ++ more) := by
  induction left with
  | nil => exact right
  | pair first _ ih => exact .pair first ih

theorem even_length (isQualifier : IsQualifier qualifier) : Even qualifier.length := by
  induction isQualifier with
  | nil => exact Even.zero
  | pair _ _ ih => exact ih.add ⟨1, rfl⟩

/-- Names stand at even places and dots at odd ones. -/
theorem kind_of_getElem? (isQualifier : IsQualifier qualifier) {index : Nat} {lexeme : Lexeme}
    (found : qualifier[index]? = some lexeme) :
    lexeme.kind = (if Even index then .properName else .dot) ∧ lexeme.trailing = [] := by
  induction isQualifier generalizing index with
  | nil => cases found
  | pair first _ ih =>
    obtain ⟨isName, bareName, isDot, bareDot⟩ := qualifies_iff.mp first
    match index with
    | 0 =>
      cases found
      exact ⟨isName, bareName⟩
    | 1 =>
      cases found
      exact ⟨isDot, bareDot⟩
    | index + 2 =>
      have same : Even (index + 2) ↔ Even index := by simp [Nat.even_add_one]
      simpa only [same] using ih found

/-- A qualifier in front is read in whole. -/
theorem mergeFrom_append (isQualifier : IsQualifier qualifier) (front lexemes : List Lexeme) :
    mergeFrom front (qualifier ++ lexemes) = mergeFrom (front ++ qualifier) lexemes := by
  induction isQualifier generalizing front with
  | nil => rw [List.nil_append, List.append_nil]
  | pair first _ ih =>
    rw [List.cons_append, List.cons_append, mergeFrom, if_pos first, ih, List.append_assoc]
    rfl

end IsQualifier

/-- Units in which nothing is left to merge. -/
inductive IsMerged : List Qualified → Prop
  | nil : IsMerged []
  /-- At the end, a qualifier with nothing to qualify. -/
  | dangling {qualifier : List Lexeme} (isQualifier : IsQualifier qualifier)
    (some : qualifier ≠ []) : IsMerged [⟨qualifier, none⟩]
  /-- A lexeme with its qualifier, which is no name in front of a dot, and more. -/
  | unit {qualifier : List Lexeme} {core : Lexeme} {rest : List Qualified}
    (isQualifier : IsQualifier qualifier)
    (ends : ∀ dot, (rest.flatMap Qualified.lexemes).head? = some dot → qualifies core dot = false)
    (behind : IsMerged rest) : IsMerged (⟨qualifier, some core⟩ :: rest)

theorem isMerged_mergeFrom {qualifier : List Lexeme} (isQualifier : IsQualifier qualifier)
    (lexemes : List Lexeme) : IsMerged (mergeFrom qualifier lexemes) := by
  fun_induction mergeFrom qualifier lexemes with
  | case1 => exact .nil
  | case2 qualifier some => exact .dangling isQualifier (by simpa using some)
  | case3 qualifier last => exact .unit isQualifier (by simp) .nil
  | case4 qualifier name dot rest pair ih => exact ih (isQualifier.append (.pair pair .nil))
  | case5 qualifier name dot rest noPair ih =>
    refine .unit isQualifier (fun next leads => ?_) (ih .nil)
    rw [mergeFrom_lexemes] at leads
    cases leads
    exact Bool.eq_false_iff.mpr noPair

namespace IsMerged

variable {units : List Qualified}

/-- Units in which nothing is left to merge are what their lexemes are merged into. -/
theorem mergeQualifiers_flatMap (merged : IsMerged units) :
    mergeQualifiers (units.flatMap Qualified.lexemes) = units := by
  unfold mergeQualifiers
  induction merged with
  | nil => rfl
  | @dangling qualifier isQualifier some =>
    have lexemes : [Qualified.mk qualifier none].flatMap Qualified.lexemes = qualifier ++ [] :=
      List.append_nil _
    rw [lexemes, isQualifier.mergeFrom_append, List.nil_append, mergeFrom,
      if_neg (by simpa using some)]
  | @unit qualifier core rest isQualifier ends _ ih =>
    have lexemes : (⟨qualifier, some core⟩ :: rest : List Qualified).flatMap Qualified.lexemes =
        qualifier ++ core :: rest.flatMap Qualified.lexemes := by
      simp [Qualified.lexemes]
    rw [lexemes, isQualifier.mergeFrom_append, List.nil_append]
    cases behind : rest.flatMap Qualified.lexemes with
    | nil =>
      obtain rfl : [] = rest := by rwa [behind] at ih
      rfl
    | cons dot more =>
      rw [behind] at ih ends
      rw [mergeFrom, ends dot rfl, if_neg Bool.false_ne_true, ih]

theorem isQualifier (merged : IsMerged units) : ∀ unit ∈ units, IsQualifier unit.qualifier := by
  induction merged with
  | nil => simp
  | dangling isQualifier _ => simpa using isQualifier
  | unit isQualifier _ _ ih => exact List.forall_mem_cons.mpr ⟨isQualifier, ih⟩

theorem of_cons {unit : Qualified} (merged : IsMerged (unit :: units)) : IsMerged units := by
  cases merged with
  | dangling _ _ => exact .nil
  | unit _ _ behind => exact behind

theorem of_append {front : List Qualified} (merged : IsMerged (front ++ units)) :
    IsMerged units := by
  induction front with
  | nil => exact merged
  | cons unit front ih => exact ih merged.of_cons

end IsMerged

/-- Merging is the one way to group lexemes into units in which nothing is left to merge. -/
theorem mergeQualifiers_eq_iff {lexemes : List Lexeme} {units : List Qualified} :
    mergeQualifiers lexemes = units ↔
      units.flatMap Qualified.lexemes = lexemes ∧ IsMerged units := by
  constructor
  · rintro rfl
    exact ⟨mergeFrom_lexemes [] lexemes, isMerged_mergeFrom .nil lexemes⟩
  · rintro ⟨rfl, merged⟩
    exact merged.mergeQualifiers_flatMap

/-- Merging qualifiers loses nothing, has nothing left to do when it is done, and merges all there
is. The lexemes of the units are those that were merged, and merging them again makes the same
units. Qualifiers are proper names and dots in turn, as many names as dots, none with trivia. Only
the last unit can have nothing to qualify, and then it has a qualifier. And no unit is a proper name
with a dot right behind it. -/
theorem merging_is_lossless_and_maximal (lexemes : List Lexeme) :
    let units := mergeQualifiers lexemes
    units.flatMap Qualified.lexemes = lexemes ∧
      mergeQualifiers (units.flatMap Qualified.lexemes) = units ∧
      (∀ unit ∈ units, Even unit.qualifier.length ∧
        ∀ (index : Nat) (lexeme : Lexeme), unit.qualifier[index]? = some lexeme →
          lexeme.kind = (if Even index then .properName else .dot) ∧ lexeme.trailing = []) ∧
      (∀ before unit after, units = before ++ unit :: after → unit.core = none →
        after = [] ∧ unit.qualifier ≠ []) ∧
      ∀ before unit next after, units = before ++ unit :: next :: after →
        ∀ name dot, unit.core = some name → next.lexemes.head? = some dot →
          ¬(name.kind = .properName ∧ name.trailing = [] ∧ dot.kind = .dot ∧
            dot.trailing = []) := by
  intro units
  obtain ⟨kept, merged⟩ : units.flatMap Qualified.lexemes = lexemes ∧ IsMerged units :=
    mergeQualifiers_eq_iff.mp rfl
  refine ⟨kept, merged.mergeQualifiers_flatMap, fun unit member => ?_,
    fun before unit after split dangling => ?_,
    fun before unit next after split name dot isCore leads => ?_⟩
  · have isQualifier := merged.isQualifier unit member
    exact ⟨isQualifier.even_length, fun index lexeme => isQualifier.kind_of_getElem?⟩
  · rw [split] at merged
    cases merged.of_append with
    | dangling _ some => exact ⟨rfl, some⟩
    | unit _ _ _ => cases dangling
  · rw [split] at merged
    cases merged.of_append with
    | @unit qualifier core rest _ ends _ =>
      cases isCore
      have first : ((next :: after).flatMap Qualified.lexemes).head? = some dot := by
        rw [List.flatMap_cons, List.head?_append, leads]
        rfl
      rw [← qualifies_iff, ends dot first]
      exact Bool.false_ne_true

/-- Behind a dot that is qualified itself, a new qualifier begins, which may be left over. -/
example :
    let name : Lexeme := .bare (.point .properName .zero)
    let dot : Lexeme := .bare (.point .dot .zero)
    mergeQualifiers [name, dot, dot, name, dot] =
      [⟨[name, dot], some dot⟩, ⟨[name, dot], none⟩] := by
  decide

end Offside.Token
