import Mathlib.Data.List.Chain
import Offside.Proofs.Text.Slice
import Offside.Proofs.Token.Extent

/-! # Tokens cut a source into pieces

Every rule of the scanner takes the first character of what is left, so no piece is empty, and the
pieces one behind the other are the source. Their byte ranges start and end where the pieces do,
which is between characters.
-/

namespace Offside.Token

open Text

/-! ## Pieces -/

/-- The pieces one behind the other are what was cut. -/
theorem flatMap_text_piecesFrom (afterProper : Bool) (chars : List Char) :
    (piecesFrom afterProper chars).flatMap Piece.text = chars := by
  fun_induction piecesFrom afterProper chars with
  | case1 => rfl
  | case2 afterProper first rest kind length scanned ih =>
    rw [List.flatMap_cons, ih]
    exact congrArg (first :: ·) (List.take_append_drop length rest)

/-- A source is nothing but its pieces. -/
theorem toList_eq_flatMap_text (source : String) :
    source.toList = [] ++ (piecesFrom false source.toList).flatMap Piece.text := by
  rw [List.nil_append, flatMap_text_piecesFrom]

theorem text_ne_nil_of_mem_piecesFrom {afterProper : Bool} {chars : List Char} {piece : Piece}
    (member : piece ∈ piecesFrom afterProper chars) : piece.text ≠ [] := by
  fun_induction piecesFrom afterProper chars with
  | case1 => cases member
  | case2 afterProper first rest kind length scanned ih =>
    rcases List.mem_cons.mp member with rfl | later
    · exact List.cons_ne_nil _ _
    · exact ih later

/-! ## Byte ranges -/

theorem start_of_head?_rawFrom {offset : Nat} {pieces : List Piece} {token : Raw}
    (leads : (rawFrom offset pieces).head? = some token) : token.start = offset := by
  cases pieces with
  | nil => cases leads
  | cons piece rest =>
    cases leads
    rfl

theorem isChain_rawFrom (offset : Nat) (pieces : List Piece) :
    (rawFrom offset pieces).IsChain fun token next => next.start = token.stop := by
  induction pieces generalizing offset with
  | nil => exact .nil
  | cons piece rest ih =>
    exact List.isChain_cons.mpr ⟨fun next leads => start_of_head?_rawFrom leads, ih _⟩

/-- The last token ends behind all pieces; without any that is where they start. -/
theorem stop_of_getLast?_rawFrom (offset : Nat) (pieces : List Piece) :
    ((rawFrom offset pieces).getLast?.map Raw.stop).getD offset =
      offset + byteLength (pieces.flatMap Piece.text) := by
  induction pieces generalizing offset with
  | nil => rfl
  | cons piece rest ih =>
    rw [rawFrom, List.flatMap_cons, byteLength_append, ← Nat.add_assoc, ← ih, List.getLast?_cons]
    cases (rawFrom (offset + byteLength piece.text) rest).getLast? <;> rfl

/-- The byte range of a token is that of its piece. -/
theorem exists_piece_of_mem_rawFrom {source : String} {before : List Char} {pieces : List Piece}
    (cut : source.toList = before ++ pieces.flatMap Piece.text) {token : Raw}
    (member : token ∈ rawFrom (byteLength before) pieces) :
    ∃ piece ∈ pieces, token.kind = piece.kind ∧
      token.stop = token.start + byteLength piece.text ∧
      slice? source token.start token.stop = some (String.ofList piece.text) := by
  induction pieces generalizing before with
  | nil => cases member
  | cons piece rest ih =>
    rw [List.flatMap_cons] at cut
    rcases List.mem_cons.mp member with rfl | later
    · refine ⟨piece, List.mem_cons_self, rfl, rfl, ?_⟩
      rw [← byteLength_append]
      exact slice?_of_cut cut
    · rw [← byteLength_append] at later
      obtain ⟨own, inside, found⟩ := ih (by rw [cut, List.append_assoc]) later
      exact ⟨own, List.mem_cons_of_mem _ inside, found⟩

/-! ## Scanned sources -/

variable {source : String} {token : Raw}

theorem exists_piece_of_mem_scan (member : token ∈ scan source) :
    ∃ piece ∈ piecesFrom false source.toList, token.kind = piece.kind ∧
      token.stop = token.start + byteLength piece.text ∧
      slice? source token.start token.stop = some (String.ofList piece.text) :=
  exists_piece_of_mem_rawFrom (toList_eq_flatMap_text source) member

end Offside.Token
