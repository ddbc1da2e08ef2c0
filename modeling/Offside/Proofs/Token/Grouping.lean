import Mathlib.Data.List.Basic
import Offside.Token.Placement
import Offside.Token.Qualified

/-! # Grouping loses nothing

Trivia is hung on lexemes and qualifiers are merged with what they qualify, but the tokens stay the
same and stay in order: every way to group them gives them back.
-/

namespace Offside.Token

open Source

/-- Leading trivia and the tokens of the lexemes are all tokens. -/
theorem groupTrivia_tokens (tokens : List Placed) :
    (groupTrivia tokens).1 ++ (groupTrivia tokens).2.flatMap Lexeme.tokens = tokens := by
  induction tokens with
  | nil => rfl
  | cons token rest ih =>
    simp only [groupTrivia]
    split
    · exact congrArg (token :: ·) ih
    · rw [List.nil_append, List.flatMap_cons, Lexeme.tokens, List.cons_append]
      exact congrArg (token :: ·) ih

theorem mergeFrom_lexemes (qualifier lexemes : List Lexeme) :
    (mergeFrom qualifier lexemes).flatMap Qualified.lexemes = qualifier ++ lexemes := by
  fun_induction mergeFrom qualifier lexemes with
  | case1 qualifier none => simpa using none
  | case2 qualifier some => simp [Qualified.lexemes]
  | case3 qualifier last => simp [Qualified.lexemes]
  | case4 qualifier name dot rest qualifies ih =>
    rw [ih, List.append_assoc]
    rfl
  | case5 qualifier name dot rest other ih =>
    rw [List.flatMap_cons, ih]
    simp [Qualified.lexemes]

/-- Merging qualifiers keeps the tokens. -/
theorem mergeQualifiers_tokens (lexemes : List Lexeme) :
    (mergeQualifiers lexemes).flatMap Qualified.tokens = lexemes.flatMap Lexeme.tokens := by
  have merged := congrArg (List.flatMap Lexeme.tokens) (mergeFrom_lexemes [] lexemes)
  rwa [List.flatMap_assoc] at merged

/-- Every unit has a lexeme. -/
theorem lexemes_ne_nil {qualifier lexemes : List Lexeme} {unit : Qualified}
    (member : unit ∈ mergeFrom qualifier lexemes) : unit.lexemes ≠ [] := by
  fun_induction mergeFrom qualifier lexemes with
  | case1 => cases member
  | case2 qualifier some =>
    obtain rfl := List.mem_singleton.mp member
    simpa [Qualified.lexemes] using some
  | case3 qualifier last =>
    obtain rfl := List.mem_singleton.mp member
    simp [Qualified.lexemes]
  | case4 qualifier name dot rest qualifies ih => exact ih member
  | case5 qualifier name dot rest other ih =>
    rcases List.mem_cons.mp member with rfl | later
    · simp [Qualified.lexemes]
    · exact ih later

/-- The tokens of the units are those behind the leading trivia. -/
theorem units_tokens (tokens : List Placed) :
    (groupTrivia tokens).1 ++
      (mergeQualifiers (groupTrivia tokens).2).flatMap Qualified.tokens = tokens := by
  rw [mergeQualifiers_tokens, groupTrivia_tokens]

theorem map_kind_placeFrom (source : String) (start : Position) (tokens : List Raw) :
    (placeFrom source start tokens).map Placed.kind = tokens.map Raw.kind := by
  induction tokens generalizing start with
  | nil => rfl
  | cons token rest ih => exact congrArg (token.kind :: ·) (ih _)

end Offside.Token
