import Offside.Token.Scan

/-! # What the scanner finds

Layout tokens are only ever made by the layout rule: no text is scanned as one.
-/

namespace Offside.Token

open Text

theorem Kind.isLayout_ofWord? {word : String} {kind : Kind}
    (found : Kind.ofWord? word = some kind) : kind.isLayout = false := by
  unfold Kind.ofWord? at found
  split at found <;> cases found <;> rfl

theorem Kind.isLayout_ofOperator? {word : String} {kind : Kind}
    (found : Kind.ofOperator? word = some kind) : kind.isLayout = false := by
  unfold Kind.ofOperator? at found
  split at found <;> cases found <;> rfl

theorem isLayout_bracket? {char : Char} {kind : Kind} (found : bracket? char = some kind) :
    kind.isLayout = false := by
  unfold bracket? at found
  split at found <;> cases found <;> rfl

theorem isLayout_nameKind (name : List Char) : (nameKind name).isLayout = false := by
  unfold nameKind
  split
  · next kind found => exact Kind.isLayout_ofWord? found
  · split
    · split <;> rfl
    · rfl

theorem isLayout_operatorFrom (first : Char) (rest : List Char) :
    (operatorFrom first rest).1.isLayout = false := by
  simp only [operatorFrom]
  cases found : Kind.ofOperator? _ with
  | none => rfl
  | some kind => exact Kind.isLayout_ofOperator? found

theorem isLayout_numberFrom (first : Char) (rest : List Char) :
    (numberFrom first rest).1.isLayout = false := by
  unfold numberFrom
  split
  · rfl
  · dsimp only
    split <;> rfl

theorem isLayout_stringLiteral (rest : List Char) :
    (stringLiteral rest).1.isLayout = false := by
  unfold stringLiteral
  split
  · split <;> rfl
  · dsimp only
    split <;> rfl

theorem isLayout_charLiteral (rest : List Char) : (charLiteral rest).1.isLayout = false := by
  simp only [charLiteral]
  split <;> rfl

theorem isLayout_lineComment (rest : List Char) : (lineComment rest).1.isLayout = false := by
  simp only [lineComment]
  split <;> rfl

theorem isLayout_scanToken (afterProper : Bool) (first : Char) (rest : List Char) :
    (scanToken afterProper first rest).1.isLayout = false := by
  unfold scanToken
  split; · rfl
  split; · exact isLayout_lineComment rest
  split; · rfl
  split; · exact isLayout_nameKind _
  split; · exact isLayout_numberFrom first rest
  split; · exact isLayout_stringLiteral rest
  split; · exact isLayout_charLiteral rest
  split
  · next kind found => exact isLayout_bracket? found
  · split; · rfl
    split; · exact isLayout_operatorFrom first rest
    rfl

theorem isLayout_of_mem_piecesFrom {afterProper : Bool} {chars : List Char} {piece : Piece}
    (member : piece ∈ piecesFrom afterProper chars) : piece.kind.isLayout = false := by
  fun_induction piecesFrom afterProper chars with
  | case1 => cases member
  | case2 afterProper first rest kind length scanned ih =>
    rcases List.mem_cons.mp member with rfl | later
    · have found := isLayout_scanToken afterProper first rest
      rwa [scanned] at found
    · exact ih later

/-- No token of a text is a layout token. -/
theorem isLayout_of_mem_scan {source : String} {token : Raw} (member : token ∈ scan source) :
    token.kind.isLayout = false := by
  have kinds : ∀ offset pieces, (rawFrom offset pieces).map Raw.kind = pieces.map Piece.kind := by
    intro offset pieces
    induction pieces generalizing offset with
    | nil => rfl
    | cons piece rest ih => exact congrArg (piece.kind :: ·) (ih _)
  have inside : token.kind ∈ (piecesFrom false source.toList).map Piece.kind := by
    rw [← kinds 0]
    exact List.mem_map_of_mem member
  obtain ⟨piece, pieceMember, same⟩ := List.mem_map.mp inside
  rw [← same]
  exact isLayout_of_mem_piecesFrom pieceMember

end Offside.Token
