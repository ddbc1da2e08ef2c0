import Mathlib.Data.List.DropRight
import Offside.Proofs.Text.Slice
import Offside.Source.File

/-! # Lines and columns

A position of a source is told by what is in front of it: the line feeds make its line, and what is
behind the last of them its column. The table of line starts tells the same from an offset alone.
It has one entry for the start of the source and one for each line feed, in order, so those up to an
offset are the line feeds in front of it, and the last of them is where the line of the offset
starts.
-/

namespace Offside

open Source Text

/-- The characters behind the last line feed. -/
def Text.lastLine (chars : List Char) : List Char := chars.rtakeWhile (· != '\n')

/-- The characters up to the last line feed. -/
def Text.fullLines (chars : List Char) : List Char := chars.rdropWhile (· != '\n')

/-- The position behind the characters that a source starts with. -/
def Source.Position.behind (before : List Char) : Position :=
  ⟨before.count '\n', (lastLine before).length, byteLength before⟩

/-- A position that a source has. -/
def Source.Position.IsIn (source : String) (position : Position) : Prop :=
  ∃ before after, source.toList = before ++ after ∧ position = .behind before

namespace Text

theorem fullLines_append_lastLine (chars : List Char) : fullLines chars ++ lastLine chars = chars :=
  List.rdropWhile_append_rtakeWhile

/-- On the same line the column moves on by what is read. -/
theorem lastLine_append_of_notMem {text : List Char} (oneLine : '\n' ∉ text)
    (before : List Char) : lastLine (before ++ text) = lastLine before ++ text := by
  have inside : ∀ char ∈ text.reverse, (char != '\n') = true := by
    intro char member
    refine bne_iff_ne.mpr fun isFeed => oneLine ?_
    rw [← isFeed]
    exact List.mem_reverse.mp member
  rw [lastLine, List.rtakeWhile, List.reverse_append, List.takeWhile_append_of_pos inside,
    List.reverse_append, List.reverse_reverse, lastLine, List.rtakeWhile]

/-- Behind a line feed the column starts again. -/
theorem lastLine_append_of_mem {text : List Char} (breaks : '\n' ∈ text) (before : List Char) :
    lastLine (before ++ text) = lastLine text := by
  have stops : (text.reverse.takeWhile (· != '\n')).length ≠ text.reverse.length := by
    intro all
    have whole := (List.takeWhile_prefix (· != '\n')).eq_of_length all
    have passes := List.takeWhile_eq_self_iff.mp whole '\n' (List.mem_reverse.mpr breaks)
    exact bne_iff_ne.mp passes rfl
  rw [lastLine, List.rtakeWhile, List.reverse_append, List.takeWhile_append, if_neg stops,
    lastLine, List.rtakeWhile]

end Text

namespace Source

/-! ## The table of line starts -/

theorem startsAfterLineFeeds_append (offset : Nat) (front rest : List Char) :
    startsAfterLineFeeds offset (front ++ rest) =
      startsAfterLineFeeds offset front ++
        startsAfterLineFeeds (offset + byteLength front) rest := by
  induction front generalizing offset with
  | nil => rfl
  | cons char front ih =>
    rw [List.cons_append, startsAfterLineFeeds, startsAfterLineFeeds, byteLength_cons,
      ← Nat.add_assoc]
    split
    · rw [ih, List.cons_append]
    · exact ih _

theorem length_startsAfterLineFeeds (offset : Nat) (chars : List Char) :
    (startsAfterLineFeeds offset chars).length = chars.count '\n' := by
  induction chars generalizing offset with
  | nil => rfl
  | cons char rest ih =>
    rw [startsAfterLineFeeds, List.count_cons]
    split
    · next isFeed => rw [List.length_cons, ih, isFeed, if_pos (beq_self_eq_true _)]
    · next other => rw [ih, if_neg (by simpa using other), Nat.add_zero]

/-- A line starts behind the line feed that ends the one before it. -/
theorem bounds_of_mem_startsAfterLineFeeds {offset start : Nat} {chars : List Char}
    (member : start ∈ startsAfterLineFeeds offset chars) :
    offset < start ∧ start ≤ offset + byteLength chars := by
  induction chars generalizing offset with
  | nil => cases member
  | cons char rest ih =>
    have wide := char.utf8Size_pos
    rw [byteLength_cons]
    rw [startsAfterLineFeeds] at member
    split at member
    · rcases List.mem_cons.mp member with rfl | later
      · omega
      · have bounds := ih later
        omega
    · have bounds := ih member
      omega

theorem pairwise_startsAfterLineFeeds (offset : Nat) (chars : List Char) :
    (startsAfterLineFeeds offset chars).Pairwise (· < ·) := by
  induction chars generalizing offset with
  | nil => exact .nil
  | cons char rest ih =>
    rw [startsAfterLineFeeds]
    split
    · exact List.pairwise_cons.mpr
        ⟨fun start member => (bounds_of_mem_startsAfterLineFeeds member).1, ih _⟩
    · exact ih _

/-- In a table in order, the entries up to an offset are those in front of its partition point. -/
theorem le_iff_lt_partitionPoint {starts : List Nat} (inOrder : starts.Pairwise (· < ·))
    {index start : Nat} (there : starts[index]? = some start) (offset : Nat) :
    start ≤ offset ↔ index < (starts.takeWhile (· ≤ offset)).length := by
  induction starts generalizing index with
  | nil => cases there
  | cons first rest ih =>
    obtain ⟨later, restInOrder⟩ := List.pairwise_cons.mp inOrder
    by_cases reached : first ≤ offset
    · rw [List.takeWhile_cons_of_pos (by simpa using reached), List.length_cons]
      cases index with
      | zero =>
        cases there
        exact iff_of_true reached (Nat.succ_pos _)
      | succ index => exact (ih restInOrder there).trans Nat.succ_lt_succ_iff.symm
    · have notReached : ¬start ≤ offset := by
        rcases List.mem_cons.mp (List.mem_of_getElem? there) with rfl | member
        · exact reached
        · have behind := later start member
          omega
      rw [List.takeWhile_cons_of_neg (by simpa using reached)]
      exact iff_of_false notReached (Nat.not_lt_zero _)

namespace File

theorem pairwise_lineStarts (file : File) : file.lineStarts.Pairwise (· < ·) :=
  List.pairwise_cons.mpr ⟨fun _ member => (bounds_of_mem_startsAfterLineFeeds member).1,
    pairwise_startsAfterLineFeeds 0 file.text.toList⟩

/-- The line of an offset is the last one that starts at or before it. The table is in order, so
halving it finds the same line as reading through it. -/
theorem lineStart_le_iff {file : File} {index start : Nat}
    (there : file.lineStarts[index]? = some start) (offset : Nat) :
    start ≤ offset ↔ index ≤ file.lineAt offset := by
  have first : 0 < (file.lineStarts.takeWhile (· ≤ offset)).length :=
    (le_iff_lt_partitionPoint file.pairwise_lineStarts rfl offset).mp (Nat.zero_le offset)
  rw [le_iff_lt_partitionPoint file.pairwise_lineStarts there, lineAt]
  omega

end File

/-- The last line starts behind the full ones. -/
theorem getLast?_startsAfterLineFeeds (offset : Nat) (chars : List Char) :
    (startsAfterLineFeeds offset chars).getLast?.getD offset =
      offset + byteLength (fullLines chars) := by
  induction chars using List.reverseRecOn with
  | nil => rfl
  | append_singleton front char ih =>
    rw [startsAfterLineFeeds_append, startsAfterLineFeeds, startsAfterLineFeeds, fullLines]
    split
    · next isFeed =>
      rw [List.rdropWhile_concat_neg _ _ _ (by simp [isFeed]), List.getLast?_concat,
        byteLength_append, byteLength_cons, byteLength_nil, Option.getD_some]
      omega
    · next other =>
      rw [List.rdropWhile_concat_pos (· != '\n') _ _ (bne_iff_ne.mpr other), List.append_nil]
      exact ih

namespace File

section

variable {file : File} {before after : List Char} (cut : file.text.toList = before ++ after)

include cut

theorem lineStarts_of_cut :
    file.lineStarts = (0 :: startsAfterLineFeeds 0 before) ++
      startsAfterLineFeeds (byteLength before) after := by
  rw [lineStarts, cut, startsAfterLineFeeds_append, Nat.zero_add, List.cons_append]

/-- The line of an offset is told by the line feeds in front of it. -/
theorem lineAt_of_cut : file.lineAt (byteLength before) = before.count '\n' := by
  have reached : ∀ start ∈ 0 :: startsAfterLineFeeds 0 before,
      decide (start ≤ byteLength before) = true := by
    refine List.forall_mem_cons.mpr ⟨decide_eq_true (Nat.zero_le _), fun start member => ?_⟩
    have bounds := bounds_of_mem_startsAfterLineFeeds member
    exact decide_eq_true (by omega)
  have notReached : (startsAfterLineFeeds (byteLength before) after).takeWhile
      (· ≤ byteLength before) = [] := by
    cases starts : startsAfterLineFeeds (byteLength before) after with
    | nil => rfl
    | cons start later =>
      have bounds := bounds_of_mem_startsAfterLineFeeds (starts ▸ List.mem_cons_self)
      exact List.takeWhile_cons_of_neg (by simp only [decide_eq_true_eq]; omega)
  rw [lineAt, lineStarts_of_cut cut, List.takeWhile_append_of_pos reached, notReached,
    List.append_nil, List.length_cons, length_startsAfterLineFeeds, Nat.add_sub_cancel]

theorem lineStart?_of_cut :
    file.lineStarts[before.count '\n']? = some (byteLength (fullLines before)) := by
  have reached : before.count '\n' < (0 :: startsAfterLineFeeds 0 before).length := by
    rw [List.length_cons, length_startsAfterLineFeeds]
    exact Nat.lt_succ_self _
  have last : (0 :: startsAfterLineFeeds 0 before)[before.count '\n']? =
      (0 :: startsAfterLineFeeds 0 before).getLast? := by
    rw [List.getLast?_eq_getElem?, List.length_cons, length_startsAfterLineFeeds,
      Nat.add_sub_cancel]
  rw [lineStarts_of_cut cut, List.getElem?_append_left reached, last, List.getLast?_cons,
    getLast?_startsAfterLineFeeds, Nat.zero_add]

theorem lineStart_of_cut :
    file.lineStarts.getD (before.count '\n') 0 = byteLength (fullLines before) := by
  rw [List.getD_eq_getElem?_getD, lineStart?_of_cut cut, Option.getD_some]

theorem columnAt_of_cut : file.columnAt (byteLength before) = (lastLine before).length := by
  have whole : byteLength before ≤ file.text.utf8ByteSize := by
    rw [utf8ByteSize_eq_byteLength, cut, byteLength_append]
    exact Nat.le_add_right ..
  have line : file.text.toList = fullLines before ++ (lastLine before ++ after) := by
    rw [← List.append_assoc, fullLines_append_lastLine, cut]
  have slice := sliceOrEmpty_of_cut line
  rw [fullLines_append_lastLine] at slice
  rw [columnAt, lineAt_of_cut cut, lineStart_of_cut cut, Nat.min_eq_left whole, slice,
    String.length_ofList]

/-- Looking up the offset behind some characters gives the line and column of the position behind
them. -/
theorem lineColumn_of_cut :
    file.lineColumn (byteLength before) =
      ⟨Position.shown (Position.behind before).line,
        Position.shown (Position.behind before).column⟩ := by
  rw [lineColumn, lineAt_of_cut cut, columnAt_of_cut cut]
  rfl

end

/-! ## Places that fit machine words -/

/-- The line and the column of an offset, counted from one, fit a machine word each. -/
structure FitsAt (file : File) (offset : Nat) : Prop where
  line : file.lineAt offset + 1 < wordSize
  column : file.columnAt offset + 1 < wordSize

theorem lineColumn_of_fitsAt {file : File} {offset : Nat} (fits : file.FitsAt offset) :
    file.lineColumn offset = ⟨file.lineAt offset + 1, file.columnAt offset + 1⟩ := by
  rw [lineColumn, Position.shown, Position.shown, Nat.mod_eq_of_lt fits.line,
    Nat.mod_eq_of_lt fits.column]

end File

end Source

end Offside
