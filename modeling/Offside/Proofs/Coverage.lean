import Offside.Proofs.Lex
import Offside.Proofs.Source.Lookup
import Offside.Proofs.Token.Pieces
import Offside.Proofs.Token.Placement

/-! # Lexing covers the source

What the scanner cuts off is placed where it stands in the source, and the layout rule adds tokens
without text. So the tokens hold the whole source, each at positions that the source has.
-/

namespace Offside

open Source Text Token

variable {source : String}

/-! ## Texts -/

/-- Tokens without width add nothing to the text. -/
theorem join_text_filter {tokens : List Placed}
    (noWidth : ∀ token ∈ tokens, token.kind.isLayout = true → token.start = token.stop) :
    String.join ((tokens.filter fun token => !token.kind.isLayout).map (Placed.text · source)) =
      String.join (tokens.map (Placed.text · source)) := by
  induction tokens with
  | nil => rfl
  | cons token rest ih =>
    obtain ⟨first, others⟩ := List.forall_mem_cons.mp noWidth
    rw [List.map_cons, String.join_cons, ← ih others]
    cases isLayout : token.kind.isLayout with
    | true =>
      have nothing : token.text source = "" := by
        rw [Placed.text, first isLayout, sliceOrEmpty_self]
      rw [List.filter_cons_of_neg (by simp [isLayout]), nothing, String.empty_append]
    | false =>
      rw [List.filter_cons_of_pos (by simp [isLayout]), List.map_cons, String.join_cons]

theorem join_text_place (source : String) :
    String.join ((place source (scan source)).map (Placed.text · source)) = source := by
  have texts : (place source (scan source)).map (Placed.text · source) =
      (piecesFrom false source.toList).map fun piece => String.ofList piece.text :=
    map_text_placeFrom (toList_eq_flatMap_text source)
  rw [texts, ← String.toList_inj, String.toList_join, List.flatMap_map]
  simp only [String.toList_ofList]
  exact flatMap_text_piecesFrom false source.toList

/-- No rule of the scanner takes more than is there. It cuts every source into tokens that have some
text and are no layout tokens, from the first byte to the last, each behind the one before it and
between characters. Lexing keeps all of that text: the texts of the tokens one behind the other are
the source. -/
theorem scan_tiles_and_lex_covers (source : String) :
    let tokens := scan source
    (∀ afterProper first rest, (scanToken afterProper first rest).2 ≤ rest.length) ∧
      (∀ token ∈ tokens, token.start < token.stop ∧ token.kind.isLayout = false ∧
        ∃ text, slice? source token.start token.stop = some text) ∧
      (∀ token, tokens.head? = some token → token.start = 0) ∧
      tokens.IsChain (fun token next => next.start = token.stop) ∧
      (tokens.getLast?.map Raw.stop).getD 0 = source.utf8ByteSize ∧
      ∀ config, String.join ((lex config source).map (Placed.text · source)) = source := by
  intro tokens
  refine ⟨scanToken_le, fun token member => ?_, fun _ => start_of_head?_rawFrom,
    isChain_rawFrom 0 _, ?_, fun config => ?_⟩
  · obtain ⟨piece, inside, -, stop, found⟩ := exists_piece_of_mem_scan member
    have wide := byteLength_pos (text_ne_nil_of_mem_piecesFrom inside)
    exact ⟨by omega, isLayout_of_mem_scan member, _, found⟩
  · have last := stop_of_getLast?_rawFrom 0 (piecesFrom false source.toList)
    rwa [flatMap_text_piecesFrom, Nat.zero_add, ← utf8ByteSize_eq_byteLength] at last
  · have noWidth : ∀ token ∈ lex config source,
        token.kind.isLayout = true → token.start = token.stop := fun _ =>
      start_eq_stop_of_lexRaw config fun _ => isLayout_of_mem_scan
    rw [← join_text_filter noWidth, lex, filter_lexRaw config fun _ => isLayout_of_mem_scan,
      join_text_place]

/-! ## Positions -/

theorem isIn_place (source : String) : ∀ token ∈ place source (scan source),
    token.start.IsIn source ∧ token.stop.IsIn source :=
  isIn_placeFrom (toList_eq_flatMap_text source)

/-- All tokens start and end at positions of the source, layout tokens included. -/
theorem isIn_lex (config : Layout.Config) (source : String) : ∀ token ∈ lex config source,
    token.start.IsIn source ∧ token.stop.IsIn source := by
  have plain : ∀ token ∈ scan source, token.kind.isLayout = false := fun _ => isLayout_of_mem_scan
  obtain ⟨last, tiles⟩ := exists_tiles_lexRaw config source (scan source)
  refine tiles.forall_ends (Position.IsIn source) ⟨[], source.toList, rfl, rfl⟩
    fun token member isIn => ?_
  cases isLayout : token.kind.isLayout with
  | true => rwa [← start_eq_stop_of_lexRaw config plain member isLayout]
  | false =>
    refine (isIn_place source token ?_).2
    rw [← filter_lexRaw config plain]
    exact List.mem_filter.mpr ⟨member, by simp [isLayout]⟩

/-- The two ways to tell a position agree. Where a token starts or ends, the line counts the line
feeds of the source in front of it, the column counts the characters behind the last of them, and
looking up the offset gives the same line and column, counted from one, each in a machine word. This
is what is shown for the position. -/
theorem lex_positions_agree (config : Layout.Config) (source : String) :
    ∀ token ∈ lex config source, ∀ position ∈ [token.start, token.stop],
      ∃ before after, source.toList = before ++ after ∧ byteLength before = position.offset ∧
        position.line = before.count '\n' ∧
        position.column = (before.rtakeWhile (· != '\n')).length ∧
        ∀ name, let found := (File.mk name source).lineColumn position.offset
          found = ⟨Position.shown position.line, Position.shown position.column⟩ ∧
          (position.offset + 1 < wordSize → found = ⟨position.line + 1, position.column + 1⟩) ∧
          position.display = s!"{found.line}:{found.column}" := by
  intro token member position ends
  have isIn : position.IsIn source := by
    have both := isIn_lex config source token member
    rcases List.mem_pair.mp ends with rfl | rfl
    · exact both.1
    · exact both.2
  obtain ⟨before, after, cut, rfl⟩ := isIn
  refine ⟨before, after, cut, rfl, rfl, rfl, fun name => ?_⟩
  have found : (File.mk name source).lineColumn (Position.behind before).offset = _ :=
    File.lineColumn_of_cut cut
  refine ⟨found, fun small => ?_, by rw [found]; rfl⟩
  have fits : (File.mk name source).FitsAt (byteLength before) :=
    File.fitsAt_of_lt (isBoundary_iff.mpr ⟨before, after, cut, rfl⟩) small
  have looked := File.lineColumn_of_fitsAt fits
  rwa [File.lineAt_of_cut cut, File.columnAt_of_cut cut] at looked

theorem lex_positions_agree_behind_comment :
    let source := "\x7b- é\n -\x7d x"
    let token : Placed := ⟨.lowerName, ⟨1, 4, 10⟩, ⟨1, 5, 11⟩⟩
    token ∈ lex .default source ∧ ∃ before after, source.toList = before ++ after ∧
      byteLength before = 11 ∧ 1 = before.count '\n' ∧
      5 = (before.rtakeWhile (· != '\n')).length ∧
      ∀ name, (File.mk name source).lineColumn 11 = ⟨2, 6⟩ := by
  intro source token
  have member : token ∈ lex .default source := by decide +kernel
  obtain ⟨before, after, cut, offset, line, column, found⟩ :=
    lex_positions_agree .default source token member token.stop (by simp)
  exact ⟨member, before, after, cut, offset, line, column, fun name => (found name).2.1 (by decide)⟩

end Offside
