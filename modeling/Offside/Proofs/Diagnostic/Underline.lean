import Mathlib.Data.List.Infix
import Offside.Diagnostic.Render
import Offside.Proofs.Source.Lookup

/-! # What carets stand under

A label shows the line that its span starts on, and a row of carets below. Both rows have gutters
of one width, whatever the numbers of the lines, so the first caret stands under the first character
of the span. There are as many carets as the span has characters on the shown line. The one thing
that comes in between is a carriage return at the end of a line. It counts as a character wherever a
place is told by its column, but it is not shown: a span that starts behind it is marked one column
too far on, and one that ends behind it, on the line that it starts on, gets a caret for it.
-/

namespace Offside

open Source Text

/-- The place between two parts of a source is behind a carriage return that ends its line. -/
def Text.IsBehindReturn (before after : List Char) : Prop :=
  before.getLast? = some '\r' ∧ (after = [] ∨ after.head? = some '\n')

/-! ## Lines with and without their carriage return -/

namespace Text

/-- A carriage return in front of a place is on the line of the place. -/
theorem getLast?_lastLine_eq_return_iff {before : List Char} :
    (lastLine before).getLast? = some '\r' ↔ before.getLast? = some '\r' := by
  rcases List.eq_nil_or_concat before with rfl | ⟨front, last, rfl⟩
  · rfl
  · rw [List.concat_eq_append, lastLine, List.getLast?_concat]
    by_cases isFeed : last = '\n'
    · rw [List.rtakeWhile_concat_neg _ _ _ (by simp [isFeed]), isFeed]
      decide
    · rw [List.rtakeWhile_concat_pos (· != '\n') _ _ (bne_iff_ne.mpr isFeed), List.getLast?_concat]

theorem isBehindReturn_iff {before after : List Char} :
    IsBehindReturn before after ↔
      (lastLine before).getLast? = some '\r' ∧ restOfLine after = [] := by
  rw [IsBehindReturn, getLast?_lastLine_eq_return_iff, restOfLine_eq_nil_iff]

end Text

namespace Source.File

theorem withoutReturn_isPrefix (line : List Char) : withoutReturn line <+: line := by
  unfold withoutReturn
  split
  · exact List.dropLast_prefix line
  · exact List.prefix_refl line

theorem length_withoutReturn (line : List Char) :
    (withoutReturn line).length =
      if line.getLast? = some '\r' then line.length - 1 else line.length := by
  unfold withoutReturn
  split
  · exact List.length_dropLast
  · rfl

/-- A place lies within the content of its line if it is not behind a carriage return that ends the
line. -/
theorem length_le_withoutReturn_iff {front rest : List Char} :
    front.length ≤ (withoutReturn (front ++ rest)).length ↔
      ¬(front.getLast? = some '\r' ∧ rest = []) := by
  rw [length_withoutReturn, List.length_append]
  cases rest with
  | cons char rest =>
    simp only [List.length_cons, reduceCtorEq, and_false, not_false_eq_true, iff_true]
    split
    · omega
    · omega
  | nil =>
    rw [List.append_nil, List.length_nil]
    by_cases ends : front.getLast? = some '\r'
    · have some : front ≠ [] := fun nothing => by simp [nothing] at ends
      have wide := List.length_pos_iff.mpr some
      simp only [ends, if_true, and_self, not_true_eq_false, iff_false]
      omega
    · simp only [ends, if_false, false_and, not_false_eq_true, iff_true]
      omega

end Source.File

namespace Diagnostic

/-! ## The rows of a label -/

/-- Later lines have no shorter numbers. -/
theorem length_toString_le {first last : Nat} (le : first ≤ last) :
    (toString first).length ≤ (toString last).length := by
  simp only [Nat.toString_eq_repr, ← String.length_toList, Nat.toList_repr]
  rw [Nat.length_toDigits_le_iff (by decide) Nat.length_toDigits_pos]
  refine Nat.lt_of_le_of_lt le ?_
  rw [← Nat.length_toDigits_le_iff (by decide) Nat.length_toDigits_pos]

theorem length_spaces (count : Nat) : (spaces count).length = count := by
  rw [spaces, String.length_ofList, List.length_replicate]

theorem length_alignRight {width : Nat} {text : String} (fits : text.length ≤ width) :
    (alignRight width text).length = width := by
  rw [alignRight, String.length_append, length_spaces]
  omega

theorem gutter_eq (style : Style) (width : Nat) (text : String) : style.gutter width text =
    " " ++ style.paint .blue ++ alignRight width text ++ " |" ++ style.paint .reset := rfl

/-- Gutters of one width are equally long, whatever stands in them. -/
theorem length_gutter {style : Style} {width : Nat} {text : String} (fits : text.length ≤ width) :
    (style.gutter width text).length = (style.gutter width "").length := by
  have blank : (alignRight width "").length = width := length_alignRight (Nat.zero_le _)
  simp only [gutter_eq, String.length_append, length_alignRight fits, blank]

/-- The margin of the carets is as wide as the gutter of the line above, and the columns in front of
them. -/
theorem length_margin {first last : Nat} (le : first ≤ last) (style : Style) (column : Nat) :
    let width := max (toString last).length 3
    (style.gutter width "" ++ " " ++ spaces column).length =
      (style.gutter width (toString first) ++ " ").length + column := by
  intro width
  have fits : (toString first).length ≤ width :=
    Nat.le_trans (length_toString_le le) (Nat.le_max_left _ 3)
  rw [String.length_append, String.length_append, String.length_append, length_gutter fits,
    length_spaces]

section

variable {style : Style} (plain : style.colors = false)

include plain

theorem paint_of_plain (color : Color) : style.paint color = "" := by
  rw [Style.paint, plain]
  rfl

theorem notMem_margin (width column : Nat) :
    '^' ∉ (style.gutter width "" ++ " " ++ spaces column).toList := by
  simp [gutter_eq, paint_of_plain plain, alignRight, spaces]

/-- The rows of a label without colors. -/
theorem Label.lines_of_plain (severity : Severity) {file : File} {label : Label} {content : String}
    (fits : file.FitsAt label.span.lo) (fitsLater : file.FitsAt label.span.hi)
    (found : file.lineContent? (file.lineAt label.span.lo) = some content) :
    let first := file.lineAt label.span.lo + 1
    let last := file.lineAt label.span.hi + 1
    let column := file.columnAt label.span.lo
    let width := max (toString last).length 3
    let stop := if first != last then content.length else file.columnAt label.span.hi
    ∃ place through, label.lines style severity file =
      place :: style.gutter width "" :: (style.gutter width (toString first) ++ " " ++ content) ::
        (style.gutter width "" ++ " " ++ spaces column ++
          String.ofList (List.replicate (caretCount column stop) '^') ++
          if label.message.isEmpty then "" else " " ++ label.message) :: through := by
  have itself (text : String) : toString text = text := rfl
  rw [Label.lines, File.lineColumn_of_fitsAt fits, File.lineColumn_of_fitsAt fitsLater]
  simp only [Nat.add_one_ne_zero, if_false, Nat.add_sub_cancel, found, paint_of_plain plain, itself,
    String.append_empty]
  exact ⟨_, _, rfl⟩

end

/-! ## Carets -/

/-- The characters of a span that a line shows from the column on where the span starts. -/
def shownOf (content : String) (column : Nat) (spanned : List Char) : List Char :=
  (content.toList.drop column).take (restOfLine spanned).length

/-- What stands behind the start of a span, as far as it is shown, is how the span begins. -/
theorem shownOf_isPrefix (front spanned after : List Char) :
    shownOf (String.ofList (File.withoutReturn (front ++ restOfLine (spanned ++ after))))
      front.length spanned <+: spanned := by
  have line : restOfLine spanned <+: restOfLine (spanned ++ after) := by
    by_cases breaks : '\n' ∈ spanned
    · rw [restOfLine_append_of_mem breaks]
    · rw [restOfLine_append_of_notMem breaks, restOfLine_of_notMem breaks]
      exact List.prefix_append ..
  have behind := (File.withoutReturn_isPrefix (front ++ restOfLine (spanned ++ after))).drop
    front.length
  rw [List.drop_left] at behind
  rw [shownOf, String.toList_ofList]
  refine ((behind.take _).trans ?_).trans (List.takeWhile_prefix (· != '\n'))
  rw [← List.prefix_iff_eq_take.mp line]
  exact List.prefix_refl _

/-- Of a span over several lines, all is shown from its start to the end of its first line. -/
theorem length_shownOf_of_mem {spanned : List Char} (breaks : '\n' ∈ spanned)
    (front after : List Char) :
    (shownOf (String.ofList (File.withoutReturn (front ++ restOfLine (spanned ++ after))))
        front.length spanned).length =
      (String.ofList (File.withoutReturn (front ++ restOfLine (spanned ++ after)))).length -
        front.length := by
  rw [shownOf, String.toList_ofList, List.length_take, List.length_drop, String.length_ofList,
    restOfLine_append_of_mem breaks]
  have within := (File.withoutReturn_isPrefix (front ++ restOfLine spanned)).length_le
  rw [List.length_append] at within
  omega

/-- Of a span on one line, all is shown but the carriage return that it may end with at the end of
the line. -/
theorem length_shownOf_of_notMem {spanned : List Char} (oneLine : '\n' ∉ spanned)
    (front after : List Char) :
    (shownOf (String.ofList (File.withoutReturn (front ++ restOfLine (spanned ++ after))))
        front.length spanned).length =
      if (front ++ spanned).getLast? = some '\r' ∧ restOfLine after = [] then spanned.length - 1
      else spanned.length := by
  rw [shownOf, String.toList_ofList, List.length_take, List.length_drop,
    restOfLine_append_of_notMem oneLine, restOfLine_of_notMem oneLine, ← List.append_assoc,
    File.length_withoutReturn, List.length_append, List.length_append]
  rcases List.eq_nil_or_concat (restOfLine after) with nothing | ⟨rest, last, some⟩
  · simp only [nothing, List.append_nil, List.length_nil, and_true]
    split
    · omega
    · omega
  · have other : ¬restOfLine after = [] := by simp [some]
    have wide := List.length_pos_iff.mpr other
    simp only [other, and_false, if_false]
    split
    · omega
    · omega

/-- There is a caret for each character of the span that is shown, and always one; but a carriage
return at the end of a span on one line has a caret too, although it is not shown. -/
theorem caretCount_eq_iff (before spanned after : List Char) :
    let first := Position.behind before
    let last := Position.behind (before ++ spanned)
    let content :=
      String.ofList (File.withoutReturn (lastLine before ++ restOfLine (spanned ++ after)))
    let stop := if first.line + 1 != last.line + 1 then content.length else last.column
    caretCount first.column stop = max (shownOf content first.column spanned).length 1 ↔
      ¬('\n' ∉ spanned ∧ 2 ≤ spanned.length ∧ IsBehindReturn (before ++ spanned) after) := by
  intro first last content stop
  have lines : last.line = first.line + spanned.count '\n' := List.count_append ..
  by_cases breaks : '\n' ∈ spanned
  · have more := List.count_pos_iff.mpr breaks
    have stops : stop = content.length := if_pos (bne_iff_ne.mpr (by omega))
    have shown : (shownOf content first.column spanned).length = content.length - first.column :=
      length_shownOf_of_mem breaks (lastLine before) after
    simp only [stops, caretCount, shown, breaks, not_true_eq_false, false_and, not_false_eq_true]
  · have same : spanned.count '\n' = 0 := List.count_eq_zero_of_not_mem breaks
    have column : last.column = first.column + spanned.length := by
      simp only [last, first, Position.behind, lastLine_append_of_notMem breaks, List.length_append]
    have stops : stop = first.column + spanned.length := by
      rw [← column]
      exact if_neg (by simp [lines, same])
    have shown : (shownOf content first.column spanned).length = _ :=
      length_shownOf_of_notMem breaks (lastLine before) after
    have place : IsBehindReturn (before ++ spanned) after ↔
        (lastLine before ++ spanned).getLast? = some '\r' ∧ restOfLine after = [] := by
      rw [isBehindReturn_iff, lastLine_append_of_notMem breaks]
    rw [stops, caretCount, Nat.add_sub_cancel_left]
    by_cases behind : IsBehindReturn (before ++ spanned) after
    · rw [if_pos (place.mp behind)] at shown
      simp only [shown, behind, breaks, not_false_eq_true, true_and, and_true]
      omega
    · rw [if_neg (mt place.mpr behind)] at shown
      simp only [shown, behind, and_false, not_false_eq_true]

/-- The row of carets of a label without colors, at both ends of which line and column, counted
from one, fit machine words. It has a margin as wide as what stands in front of
the span in the row above, where the content of the line that the span starts on is shown. Each
character of the span that is shown stands in its own column, so the margin ends under the first of
them, or behind the last character of the line, unless the span starts behind a carriage return
that ends its line. There is one caret for each character of the span that is shown, and always
one, unless the span ends behind the carriage return at the end of the line that it starts on and
has another character in front of it. -/
theorem Label.carets_stand_under_span {style : Style} (plain : style.colors = false)
    (severity : Severity) {file : File} {label : Label} {before spanned after : List Char}
    (cut : file.text.toList = before ++ (spanned ++ after))
    (span : label.span = ⟨byteLength before, byteLength (before ++ spanned)⟩)
    (fits : file.FitsAt label.span.lo) (fitsLater : file.FitsAt label.span.hi) :
    ∃ place blank gutter content margin count message through,
      let column := (lastLine before).length
      let shown := shownOf content column spanned
      label.lines style severity file =
          place :: blank :: (gutter ++ content) ::
            (margin ++ String.ofList (List.replicate count '^') ++ message) :: through ∧
        file.lineContent? (file.lineAt label.span.lo) = some content ∧
        '^' ∉ margin.toList ∧ message.toList.head? ≠ some '^' ∧
        margin.length = gutter.length + column ∧ shown <+: spanned ∧
        (column ≤ content.length ↔ ¬IsBehindReturn before (spanned ++ after)) ∧
        (count = max shown.length 1 ↔
          ¬('\n' ∉ spanned ∧ 2 ≤ spanned.length ∧ IsBehindReturn (before ++ spanned) after)) := by
  have cutLater := cut.trans (List.append_assoc ..).symm
  have found : file.lineContent? (file.lineAt label.span.lo) = some (String.ofList
      (File.withoutReturn (lastLine before ++ restOfLine (spanned ++ after)))) := by
    rw [span, File.lineAt_of_cut cut]
    exact File.lineContent?_of_cut cut
  obtain ⟨place, through, rows⟩ := Label.lines_of_plain plain severity fits fitsLater found
  rw [span, File.lineAt_of_cut cut, File.columnAt_of_cut cut, File.lineAt_of_cut cutLater,
    File.columnAt_of_cut cutLater] at rows
  have later : before.count '\n' + 1 ≤ (before ++ spanned).count '\n' + 1 :=
    Nat.succ_le_succ (by simp [List.count_append])
  refine ⟨place, _, _, _, _, _, _, through, rows, found, notMem_margin plain _ _, ?_,
    length_margin later style _, shownOf_isPrefix .., ?_, caretCount_eq_iff before spanned after⟩
  · split
    · simp
    · simp
  · rw [isBehindReturn_iff, String.length_ofList]
    exact File.length_le_withoutReturn_iff

/-- A span over the end of a line, with a wide character in front of it. -/
theorem Label.carets_stand_under_span_of_two_lines :
    let file : File := ⟨"T.purs", "é = x\r\ny"⟩
    let label : Label := ⟨0, ⟨5, 9⟩, "here", true⟩
    let before := ['é', ' ', '=', ' ']
    let spanned := ['x', '\r', '\n', 'y']
    file.text.toList = before ++ (spanned ++ []) ∧
      label.span = ⟨byteLength before, byteLength (before ++ spanned)⟩ ∧
      file.FitsAt label.span.lo ∧ file.FitsAt label.span.hi ∧
      ∃ place blank gutter margin message through,
        label.lines ⟨false, true⟩ .error file =
            place :: blank :: (gutter ++ "é = x") :: (margin ++ "^" ++ message) :: through ∧
          margin.length = gutter.length + 4 := by
  intro file label before spanned
  have cut : file.text.toList = before ++ (spanned ++ []) := by decide
  have span : label.span = ⟨byteLength before, byteLength (before ++ spanned)⟩ := by decide
  have plain : (⟨false, true⟩ : Style).colors = false := rfl
  have fits : file.FitsAt label.span.lo := ⟨by decide +kernel, by decide +kernel⟩
  have fitsLater : file.FitsAt label.span.hi := ⟨by decide +kernel, by decide +kernel⟩
  obtain ⟨place, blank, gutter, content, margin, count, message, through, rows, found, -, -, wide,
    -, -, carets⟩ := Label.carets_stand_under_span plain .error cut span fits fitsLater
  have line : file.lineContent? (file.lineAt label.span.lo) = some "é = x" := by decide +kernel
  obtain rfl := Option.some.inj (found.symm.trans line)
  have one : count = 1 := carets.mpr fun ⟨oneLine, _⟩ => oneLine (by decide)
  rw [one] at rows
  exact ⟨cut, span, fits, fitsLater, place, blank, gutter, margin, message, through, rows, wide⟩

/-- The carriage return at the end of a line is not shown, but it has a caret. -/
theorem Label.caret_of_hidden_return :
    let file : File := ⟨"T.purs", "one\r\ntwo"⟩
    let label : Label := ⟨0, ⟨0, 4⟩, "", true⟩
    file.text.toList = [] ++ (['o', 'n', 'e', '\r'] ++ ['\n', 't', 'w', 'o']) ∧
      label.span = ⟨0, byteLength ['o', 'n', 'e', '\r']⟩ ∧
      label.lines ⟨false, true⟩ .error file =
        [" --> T.purs:1:1", "     |", "   1 | one", "     | ^^^^"] ∧
      shownOf "one" 0 ['o', 'n', 'e', '\r'] = ['o', 'n', 'e'] := by
  decide +kernel

end Diagnostic

end Offside
