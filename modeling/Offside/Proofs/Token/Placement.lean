import Offside.Proofs.Source.Lines
import Offside.Token.Placement
import Offside.Token.Scan

/-! # Positions are those of the source

Placing a token looks only at the text of the token, and adds its lines and columns to the position
where the token starts. For tokens that follow each other through the source this comes to the same
as counting them from the start of the source on.
-/

namespace Offside

open Source Text

namespace Token

theorem positionAfter_behind (before text : List Char) :
    positionAfter (.behind before) text (byteLength (before ++ text)) =
      .behind (before ++ text) := by
  simp only [positionAfter, Position.behind, List.count_append]
  split
  · next none =>
    rw [none, lastLine_append_of_notMem (List.count_eq_zero.mp none), List.length_append]
    rfl
  · next some =>
    have breaks : '\n' ∈ text := List.count_pos_iff.mp (Nat.pos_of_ne_zero some)
    rw [lastLine_append_of_mem breaks, lastLine, List.rtakeWhile, List.length_reverse]

theorem advance_behind {source : String} {before text after : List Char}
    (cut : source.toList = before ++ (text ++ after)) :
    advance source (.behind before) (byteLength (before ++ text)) = .behind (before ++ text) := by
  have size : source.utf8ByteSize = byteLength before + (byteLength text + byteLength after) := by
    rw [utf8ByteSize_eq_byteLength, cut, byteLength_append, byteLength_append]
  have stop : max (byteLength before) (min (byteLength (before ++ text)) source.utf8ByteSize) =
      byteLength (before ++ text) := by
    rw [byteLength_append]
    omega
  have start : (Position.behind before).offset = byteLength before := rfl
  rw [advance, start, stop, sliceOrEmpty_of_cut cut, String.toList_ofList, positionAfter_behind]

/-- Pieces that a source goes on with start and end at positions of the source. -/
theorem isIn_placeFrom {source : String} {before : List Char} {pieces : List Piece}
    (cut : source.toList = before ++ pieces.flatMap Piece.text) :
    ∀ token ∈ placeFrom source (.behind before) (rawFrom (byteLength before) pieces),
      token.start.IsIn source ∧ token.stop.IsIn source := by
  induction pieces generalizing before with
  | nil => simp [rawFrom, placeFrom]
  | cons piece rest ih =>
    rw [List.flatMap_cons] at cut
    have further : source.toList = (before ++ piece.text) ++ rest.flatMap Piece.text := by
      rw [cut, List.append_assoc]
    rw [rawFrom, ← byteLength_append, placeFrom, advance_behind cut]
    exact List.forall_mem_cons.mpr ⟨⟨⟨before, _, cut, rfl⟩, ⟨_, _, further, rfl⟩⟩, ih further⟩

/-- Placed, they have the texts that they were cut from. -/
theorem map_text_placeFrom {source : String} {before : List Char} {pieces : List Piece}
    (cut : source.toList = before ++ pieces.flatMap Piece.text) :
    (placeFrom source (.behind before) (rawFrom (byteLength before) pieces)).map
        (Placed.text · source) = pieces.map fun piece => String.ofList piece.text := by
  induction pieces generalizing before with
  | nil => rfl
  | cons piece rest ih =>
    rw [List.flatMap_cons] at cut
    have further : source.toList = (before ++ piece.text) ++ rest.flatMap Piece.text := by
      rw [cut, List.append_assoc]
    rw [rawFrom, ← byteLength_append, placeFrom, advance_behind cut, List.map_cons, List.map_cons,
      ih further]
    exact congrArg (· :: _) (sliceOrEmpty_of_cut cut)

end Token

end Offside
