import Mathlib.Data.Prod.Lex
import Mathlib.Data.Set.Function
import Mathlib.Order.Monotone.Defs
import Offside.Proofs.Source.Lines

/-! # Looking offsets up

Looking an offset up gives a line and a column, and asking for a line gives its content. The two go
together: between any two characters, lines and columns grow with the offset, and the character
behind an offset stands in the content of its line, in its column. Only the characters that end a
line are not in its content.

Lines and columns are counted from one in machine words, as offsets are from zero. So there is one
place where a count may wrap around to zero although the offset fits: the end of a source that could
not be longer.
-/

namespace Offside

open Source Text

/-- An offset between two characters of a source, or at one of its ends. -/
def Text.IsBoundary (source : String) (offset : Nat) : Prop :=
  String.Pos.Raw.IsValid source ⟨offset⟩

/-- The characters up to the first line feed. -/
def Text.restOfLine (chars : List Char) : List Char := chars.takeWhile (· != '\n')

/-- Line and column in lexicographic order. -/
def Source.LineColumn.key (place : LineColumn) : Nat ×ₗ Nat := toLex (place.line, place.column)

namespace Text

theorem isBoundary_iff {source : String} {offset : Nat} :
    IsBoundary source offset ↔
      ∃ before after, source.toList = before ++ after ∧ byteLength before = offset := by
  rw [IsBoundary, String.Pos.Raw.isValid_iff_exists_append]
  constructor
  · rintro ⟨before, after, cut, place⟩
    refine ⟨before.toList, after.toList, by rw [cut, String.toList_append], ?_⟩
    rw [← utf8ByteSize_eq_byteLength]
    exact (congrArg String.Pos.Raw.byteIdx place).symm
  · rintro ⟨before, after, cut, rfl⟩
    refine ⟨String.ofList before, String.ofList after, ?_, ?_⟩
    · rw [← String.toList_inj, cut, String.toList_append, String.toList_ofList,
        String.toList_ofList]
    · rw [← utf8ByteSize_ofList]
      rfl

/-- A line feed ends the rest of a line, unless the end of the source does. -/
theorem exists_append_restOfLine (chars : List Char) :
    ∃ behind, chars = restOfLine chars ++ behind ∧ (behind = [] ∨ behind.head? = some '\n') := by
  refine ⟨chars.dropWhile (· != '\n'), (List.takeWhile_append_dropWhile ..).symm, ?_⟩
  cases behind : chars.dropWhile (· != '\n') with
  | nil => exact .inl rfl
  | cons next rest =>
    have stops := List.head?_dropWhile_not (· != '\n') chars
    rw [behind] at stops
    exact .inr (by simpa using stops)

theorem restOfLine_cons {char : Char} (other : char ≠ '\n') (chars : List Char) :
    restOfLine (char :: chars) = char :: restOfLine chars :=
  List.takeWhile_cons_of_pos (bne_iff_ne.mpr other)

theorem restOfLine_eq_nil_iff {chars : List Char} :
    restOfLine chars = [] ↔ chars = [] ∨ chars.head? = some '\n' := by
  cases chars with
  | nil => simp [restOfLine]
  | cons char rest =>
    by_cases isFeed : char = '\n'
    · simp [restOfLine, isFeed]
    · simp [restOfLine_cons isFeed, isFeed]

theorem restOfLine_append_of_mem {text : List Char} (breaks : '\n' ∈ text) (after : List Char) :
    restOfLine (text ++ after) = restOfLine text := by
  have stops : (text.takeWhile (· != '\n')).length ≠ text.length := by
    intro all
    have whole := (List.takeWhile_prefix (· != '\n')).eq_of_length all
    exact bne_iff_ne.mp (List.takeWhile_eq_self_iff.mp whole '\n' breaks) rfl
  rw [restOfLine, List.takeWhile_append, if_neg stops, restOfLine]

theorem restOfLine_append_of_notMem {text : List Char} (oneLine : '\n' ∉ text)
    (after : List Char) : restOfLine (text ++ after) = text ++ restOfLine after :=
  List.takeWhile_append_of_pos fun _ member =>
    bne_iff_ne.mpr fun isFeed => oneLine (isFeed ▸ member)

theorem restOfLine_of_notMem {text : List Char} (oneLine : '\n' ∉ text) :
    restOfLine text = text := by
  have alone := restOfLine_append_of_notMem oneLine []
  rwa [List.append_nil, restOfLine_eq_nil_iff.mpr (.inl rfl), List.append_nil] at alone

end Text

namespace Source

/-- The line behind the first line feed starts right behind it. -/
theorem head?_startsAfterLineFeeds (offset : Nat) (chars : List Char) :
    (startsAfterLineFeeds offset chars).head? =
      if '\n' ∈ chars then some (offset + byteLength (restOfLine chars) + 1) else none := by
  induction chars generalizing offset with
  | nil => rfl
  | cons char rest ih =>
    rw [startsAfterLineFeeds]
    split
    · next isFeed =>
      rw [isFeed, if_pos List.mem_cons_self]
      rfl
    · next other =>
      rw [ih, restOfLine_cons other, byteLength_cons, Nat.add_assoc offset]
      simp only [List.mem_cons, Ne.symm other, false_or]

namespace File

/-- A carriage return at the end of a line is left out, and nothing else. -/
theorem withoutReturn_concat (line : List Char) (last : Char) :
    withoutReturn (line ++ [last]) = if last = '\r' then line else line ++ [last] := by
  simp [withoutReturn]

/-- Every character of a line is in its content, but for a carriage return at its end. -/
theorem getElem?_withoutReturn {front rest : List Char} {char : Char}
    (stays : char = '\r' → rest ≠ []) :
    (withoutReturn (front ++ char :: rest))[front.length]? = some char := by
  rcases List.eq_nil_or_concat rest with rfl | ⟨rest, last, rfl⟩
  · have other : char ≠ '\r' := fun isReturn => stays isReturn rfl
    rw [withoutReturn_concat, if_neg other, List.getElem?_concat_length]
  · have here : (front ++ char :: rest)[front.length]? = some char := by
      rw [List.getElem?_append_right (Nat.le_refl _), Nat.sub_self, List.getElem?_cons_zero]
    rw [List.concat_eq_append, ← List.cons_append, ← List.append_assoc, withoutReturn_concat]
    split
    · exact here
    · rw [List.getElem?_append_left (by simp), here]

section

variable {file : File} {before after : List Char} (cut : file.text.toList = before ++ after)

include cut

theorem nextLineStart_of_cut :
    file.lineStarts[before.count '\n' + 1]? =
      if '\n' ∈ after then some (byteLength (before ++ restOfLine after) + 1) else none := by
  have behind : before.count '\n' + 1 = (0 :: startsAfterLineFeeds 0 before).length := by
    rw [List.length_cons, length_startsAfterLineFeeds]
  rw [lineStarts_of_cut cut, behind, List.getElem?_append_right (Nat.le_refl _), Nat.sub_self,
    ← List.head?_eq_getElem?, head?_startsAfterLineFeeds, byteLength_append]

/-- The content of the line of a place is what stands on the line in front of the place and behind
it. -/
theorem lineContent?_of_cut :
    file.lineContent? (before.count '\n') =
      some (String.ofList (withoutReturn (lastLine before ++ restOfLine after))) := by
  obtain ⟨behind, rest, ends⟩ := exists_append_restOfLine after
  have line : file.text.toList =
      fullLines before ++ ((lastLine before ++ restOfLine after) ++ behind) := by
    rw [cut, List.append_assoc, ← rest, ← List.append_assoc, fullLines_append_lastLine]
  have content := slice?_of_cut line
  rw [← List.append_assoc, fullLines_append_lastLine] at content
  rw [lineContent?, lineStart?_of_cut cut, nextLineStart_of_cut cut]
  by_cases breaks : '\n' ∈ after
  · rw [if_pos breaks]
    change (slice? _ _ (byteLength (before ++ restOfLine after))).map _ = _
    rw [content, Option.map_some, String.toList_ofList]
  · have size : file.text.utf8ByteSize = byteLength (before ++ restOfLine after) := by
      rw [utf8ByteSize_eq_byteLength, cut, restOfLine_of_notMem breaks]
    rw [if_neg breaks]
    change (slice? _ _ file.text.utf8ByteSize).map _ = _
    rw [size, content, Option.map_some, String.toList_ofList]

end

/-- Farther on is on a later line, or on the same line in a later column. -/
theorem key_lt_of_cut {file : File} {before text after : List Char}
    (cut : file.text.toList = before ++ (text ++ after)) (some : text ≠ [])
    (fits : file.FitsAt (byteLength before))
    (fitsLater : file.FitsAt (byteLength (before ++ text))) :
    (file.lineColumn (byteLength before)).key <
      (file.lineColumn (byteLength (before ++ text))).key := by
  have later := cut.trans (List.append_assoc ..).symm
  rw [lineColumn_of_fitsAt fits, lineColumn_of_fitsAt fitsLater, lineAt_of_cut cut,
    lineAt_of_cut later, columnAt_of_cut cut, columnAt_of_cut later, LineColumn.key, LineColumn.key,
    Prod.Lex.toLex_lt_toLex]
  dsimp only
  rw [List.count_append]
  by_cases breaks : '\n' ∈ text
  · have more := List.count_pos_iff.mpr breaks
    left
    omega
  · have wide := List.length_pos_iff.mpr some
    rw [List.count_eq_zero_of_not_mem breaks, lastLine_append_of_notMem breaks, List.length_append]
    right
    omega

theorem strictMonoOn_key (file : File) :
    StrictMonoOn (fun offset => (file.lineColumn offset).key)
      {offset | IsBoundary file.text offset ∧ file.FitsAt offset} := by
  rintro first ⟨isFirst, fits⟩ second ⟨isSecond, fitsLater⟩ earlier
  obtain ⟨before, after, cut, rfl⟩ := isBoundary_iff.mp isFirst
  obtain ⟨before', after', cut', rfl⟩ := isBoundary_iff.mp isSecond
  obtain ⟨text, rfl, rfl⟩ := exists_between_cuts (cut.symm.trans cut') (Nat.le_of_lt earlier)
  refine key_lt_of_cut cut (fun nothing => ?_) fits fitsLater
  rw [nothing, List.append_nil] at earlier
  exact Nat.lt_irrefl _ earlier

/-- Some line starts at or before any offset: the first one does. -/
theorem lineAt_lt_lineCount (file : File) (offset : Nat) : file.lineAt offset < file.lineCount := by
  have reached := (List.takeWhile_prefix (l := file.lineStarts) (· ≤ offset)).length_le
  have first : 0 < file.lineCount := Nat.succ_pos _
  rw [lineAt]
  rw [lineCount] at first ⊢
  omega

theorem lineStart_le {file : File} {start : Nat} (member : start ∈ file.lineStarts) :
    start ≤ file.text.utf8ByteSize := by
  rcases List.mem_cons.mp member with rfl | later
  · exact Nat.zero_le _
  · rw [utf8ByteSize_eq_byteLength]
    have bounds := (bounds_of_mem_startsAfterLineFeeds later).2
    rwa [Nat.zero_add] at bounds

/-- All lines start at or before the end. -/
theorem lineAt_of_le {file : File} {offset : Nat} (past : file.text.utf8ByteSize ≤ offset) :
    file.lineAt offset = file.lineCount - 1 := by
  have last : file.lineCount - 1 < file.lineStarts.length := Nat.lt_succ_self _
  have started := lineStart_le (List.getElem_mem last)
  have reached := (lineStart_le_iff (List.getElem?_eq_getElem last) offset).mp
    (Nat.le_trans started past)
  have within := file.lineAt_lt_lineCount offset
  omega

/-- An offset past the end is looked up as the end is. -/
theorem lineColumn_of_le {file : File} {offset : Nat} (past : file.text.utf8ByteSize ≤ offset) :
    file.lineColumn offset = file.lineColumn file.text.utf8ByteSize := by
  rw [lineColumn, lineColumn, columnAt, columnAt, lineAt_of_le past, lineAt_of_le (Nat.le_refl _),
    Nat.min_eq_right past, Nat.min_self]

end File

end Source

/-! ## Places that do not fit -/

namespace Text

theorem notMem_lastLine (before : List Char) : '\n' ∉ lastLine before := by
  intro member
  have passes := List.mem_rtakeWhile_imp member
  exact bne_iff_ne.mp passes rfl

/-- Line feeds, and what is behind the last of them, are different characters. -/
theorem count_add_length_lastLine_le (before : List Char) :
    before.count '\n' + (lastLine before).length ≤ before.length := by
  have feeds : before.count '\n' ≤ (fullLines before).length := by
    rw [← fullLines_append_lastLine before, List.count_append,
      List.count_eq_zero_of_not_mem (notMem_lastLine before), fullLines_append_lastLine]
    exact List.count_le_length
  have whole := congrArg List.length (fullLines_append_lastLine before)
  rw [List.length_append] at whole
  omega

/-- If the line feeds, or the characters behind the last of them, are as many as all the bytes, then
there is nothing else. -/
theorem feeds_or_oneLine {before : List Char}
    (most : byteLength before ≤ before.count '\n' ∨ byteLength before ≤ (lastLine before).length) :
    (∀ char ∈ before, char = '\n') ∨ '\n' ∉ before ∧ before.length = byteLength before := by
  have chars := count_add_length_lastLine_le before
  have bytes := length_le_byteLength before
  rcases most with feeds | line
  · have all : before.count '\n' = before.length := by omega
    exact .inl fun char member => (List.count_eq_length.mp all char member).symm
  · exact .inr ⟨List.count_eq_zero.mp (by omega), by omega⟩

end Text

namespace Source

theorem File.fitsAt_of_lt {file : File} {offset : Nat} (isBoundary : IsBoundary file.text offset)
    (small : offset + 1 < wordSize) : file.FitsAt offset := by
  obtain ⟨before, after, cut, rfl⟩ := isBoundary_iff.mp isBoundary
  have chars := count_add_length_lastLine_le before
  have bytes := length_le_byteLength before
  constructor
  · rw [lineAt_of_cut cut]
    omega
  · rw [columnAt_of_cut cut]
    omega

/-- In a source whose offsets fit machine words, one place may have a line or a column that does
not: the end, when nothing but line feeds or nothing but characters of one byte on one line leads
there. -/
theorem File.eq_end_of_not_fitsAt {file : File} {offset : Nat}
    (short : file.text.utf8ByteSize < wordSize) (isBoundary : IsBoundary file.text offset)
    (unfit : ¬file.FitsAt offset) :
    offset = file.text.utf8ByteSize ∧ file.text.utf8ByteSize + 1 = wordSize ∧
      ((∀ char ∈ file.text.toList, char = '\n') ∨
        '\n' ∉ file.text.toList ∧ file.text.length = file.text.utf8ByteSize) := by
  have large := Nat.le_of_not_lt fun small => unfit (fitsAt_of_lt isBoundary small)
  obtain ⟨before, after, cut, rfl⟩ := isBoundary_iff.mp isBoundary
  rw [utf8ByteSize_eq_byteLength, cut, byteLength_append] at short
  obtain rfl : after = [] := by
    have none := length_le_byteLength after
    exact List.length_eq_zero_iff.mp (by omega)
  have size : file.text.utf8ByteSize = byteLength before := by
    rw [utf8ByteSize_eq_byteLength, cut, List.append_nil]
  refine ⟨size.symm, by omega, ?_⟩
  rw [size, ← String.length_toList, cut, List.append_nil]
  apply feeds_or_oneLine
  by_contra! fewer
  refine unfit ⟨?_, ?_⟩
  · rw [lineAt_of_cut cut]
    omega
  · rw [columnAt_of_cut cut]
    omega

/-- The end of a single line is looked up by the number of its characters. -/
theorem File.lineColumn_replicate (name : String) (count : Nat) :
    (File.mk name (String.ofList (List.replicate count 'a'))).lineColumn
      (byteLength (List.replicate count 'a')) = ⟨1, Position.shown count⟩ := by
  have oneLine : '\n' ∉ List.replicate count 'a' := fun member =>
    absurd (List.eq_of_mem_replicate member) (by decide)
  have column : lastLine (List.replicate count 'a') = List.replicate count 'a' :=
    lastLine_append_of_notMem oneLine []
  rw [lineColumn_of_cut (by rw [String.toList_ofList, List.append_nil]), Position.behind,
    List.count_eq_zero_of_not_mem oneLine, column, List.length_replicate]
  rfl

/-- Lookups and contents of lines fit together, in a source whose offsets fit machine words. Between
two characters, looking offsets up is strictly increasing, by lines first and by columns within a
line, so no two places look the same, as long as line and column, counted from one, fit machine
words. All places have such a line and column, but for the end of a source that is as long as it may
be and has nothing but line feeds, or only characters of one byte and no line feed. The character
behind an offset is the one in the column that the lookup gives, in the content of the line that it
gives, unless it is a line feed, or a carriage return at the end of its line. An offset past the end
is looked up as the end is, on the last line. Every lookup finds a line of the table, the last to
start at or before the offset. -/
theorem File.lookups_fit_contents (file : File) (short : file.text.utf8ByteSize < wordSize) :
    let places := {offset | IsBoundary file.text offset ∧ file.FitsAt offset}
    StrictMonoOn (fun offset => (file.lineColumn offset).key) places ∧
      Set.InjOn file.lineColumn places ∧
      (∀ offset, IsBoundary file.text offset → offset ∉ places →
        offset = file.text.utf8ByteSize ∧ file.text.utf8ByteSize + 1 = wordSize ∧
          ((∀ char ∈ file.text.toList, char = '\n') ∨
            '\n' ∉ file.text.toList ∧ file.text.length = file.text.utf8ByteSize)) ∧
      (∀ before char after, file.text.toList = before ++ char :: after → char ≠ '\n' →
        (char = '\r' → after ≠ [] ∧ after.head? ≠ some '\n') →
        let found := file.lineColumn (byteLength before)
        ∃ content, file.lineContent? (found.line - 1) = some content ∧
          content.toList[found.column - 1]? = some char) ∧
      (∀ offset, file.text.utf8ByteSize ≤ offset →
        file.lineColumn offset = file.lineColumn file.text.utf8ByteSize ∧
          file.lineAt offset = file.lineCount - 1) ∧
      ∀ offset, file.lineAt offset < file.lineCount ∧
        ∀ index start, file.lineStarts[index]? = some start →
          (start ≤ offset ↔ index ≤ file.lineAt offset) := by
  intro places
  have increasing := file.strictMonoOn_key
  refine ⟨increasing, fun first isFirst second isSecond same => ?_,
    fun offset isBoundary other => ?_, ?_,
    fun _ past => ⟨lineColumn_of_le past, lineAt_of_le past⟩,
    fun offset => ⟨file.lineAt_lt_lineCount offset, fun _ _ there => lineStart_le_iff there offset⟩⟩
  · exact increasing.injOn isFirst isSecond (congrArg LineColumn.key same)
  · exact eq_end_of_not_fitsAt short isBoundary fun fits => other ⟨isBoundary, fits⟩
  · intro before char after cut notFeed notReturn found
    have place : found = ⟨before.count '\n' + 1, (lastLine before).length + 1⟩ := by
      have small : byteLength before + 1 < wordSize := by
        have wide := char.utf8Size_pos
        rw [utf8ByteSize_eq_byteLength, cut, byteLength_append, byteLength_cons] at short
        omega
      have isBoundary : IsBoundary file.text (byteLength before) :=
        isBoundary_iff.mpr ⟨before, _, cut, rfl⟩
      have looked := lineColumn_of_fitsAt (fitsAt_of_lt isBoundary small)
      rwa [lineAt_of_cut cut, columnAt_of_cut cut] at looked
    rw [place]
    refine ⟨_, lineContent?_of_cut cut, ?_⟩
    rw [String.toList_ofList, restOfLine_cons notFeed]
    refine getElem?_withoutReturn fun isReturn nothing => ?_
    obtain ⟨something, notBreak⟩ := notReturn isReturn
    obtain ⟨behind, rest, ends⟩ := exists_append_restOfLine after
    rw [nothing, List.nil_append] at rest
    rw [rest] at something notBreak
    exact ends.elim something notBreak

/-- A character of two bytes, a carriage return that is stripped, and what is behind them. -/
theorem File.lookups_fit_contents_behind_return :
    let file : File := ⟨"A.purs", "é\r\nx"⟩
    file.text.utf8ByteSize < wordSize ∧ file.lineColumn 4 = ⟨2, 1⟩ ∧
      (∃ content, file.lineContent? 1 = some content ∧ content.toList[0]? = some 'x') ∧
      (file.lineColumn 2).key < (file.lineColumn 4).key := by
  intro file
  have short : file.text.utf8ByteSize < wordSize := by decide +kernel
  have found : file.lineColumn 4 = ⟨2, 1⟩ := by decide +kernel
  obtain ⟨increasing, -, -, contents, -⟩ := file.lookups_fit_contents short
  refine ⟨short, found, ?_, ?_⟩
  · have content := contents ['é', '\r', '\n'] 'x' [] (by decide) (by decide) (by decide)
    rw [show byteLength ['é', '\r', '\n'] = 4 by decide] at content
    simpa only [found] using content
  · have second : IsBoundary file.text 2 :=
      isBoundary_iff.mpr ⟨['é'], ['\r', '\n', 'x'], by decide, by decide⟩
    have last : IsBoundary file.text 4 :=
      isBoundary_iff.mpr ⟨['é', '\r', '\n'], ['x'], by decide, by decide⟩
    exact increasing ⟨second, fitsAt_of_lt second (by decide)⟩ ⟨last, fitsAt_of_lt last (by decide)⟩
      (by decide)

/-- The longest source whose offsets fit machine words, on one line: at its end, the column is one
more than fits. -/
theorem File.column_wraps_at_end :
    let file : File := ⟨"A.purs", String.ofList (List.replicate (wordSize - 1) 'a')⟩
    file.text.utf8ByteSize < wordSize ∧ IsBoundary file.text 0 ∧
      IsBoundary file.text (wordSize - 1) ∧ file.lineColumn 0 = ⟨1, 1⟩ ∧
      file.lineColumn (wordSize - 1) = ⟨1, 0⟩ ∧
      ¬StrictMonoOn (fun offset => (file.lineColumn offset).key)
        {offset | IsBoundary file.text offset} := by
  intro file
  have all : byteLength (List.replicate (wordSize - 1) 'a') = wordSize - 1 :=
    (byteLength_replicate ..).trans (Nat.mul_one _)
  have cut : file.text.toList = List.replicate (wordSize - 1) 'a' := String.toList_ofList
  have start : IsBoundary file.text 0 := isBoundary_iff.mpr ⟨[], _, cut, rfl⟩
  have stop : IsBoundary file.text (wordSize - 1) :=
    isBoundary_iff.mpr ⟨_, [], cut.trans (List.append_nil _).symm, all⟩
  have short : file.text.utf8ByteSize < wordSize := by
    rw [utf8ByteSize_eq_byteLength, cut, all]
    decide
  have atStart : file.text.toList = [] ++ List.replicate (wordSize - 1) 'a' := cut
  have first : file.lineColumn 0 = ⟨1, 1⟩ := by
    have looked := lineColumn_of_cut atStart
    exact looked
  have last : file.lineColumn (wordSize - 1) = ⟨1, 0⟩ := by
    have looked := lineColumn_replicate "A.purs" (wordSize - 1)
    rwa [all] at looked
  refine ⟨short, start, stop, first, last, fun increasing => ?_⟩
  have wrapped := increasing start stop (show 0 < wordSize - 1 by decide)
  dsimp only at wrapped
  rw [first, last] at wrapped
  exact absurd wrapped (by decide)

end Source

end Offside
