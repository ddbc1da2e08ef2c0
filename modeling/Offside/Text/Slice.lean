/-! # Slices by byte offset

Source text is addressed by offsets into its UTF-8 encoding. A slice exists only when both offsets
fall between characters and do not run backwards; otherwise there is no text under them, not a
truncated one. The main statement says which text a slice is: the middle of the three parts that
the two offsets cut the source into.
-/

namespace Offside.Text

/-- Number of bytes that the characters take in UTF-8. -/
def byteLength : List Char → Nat
  | [] => 0
  | char :: rest => char.utf8Size + byteLength rest

/-- The text between two byte offsets. There is none when an offset falls inside a character or
past the end, or when the offsets run backwards. -/
def slice? (source : String) (lo hi : Nat) : Option String :=
  match source.pos? ⟨lo⟩, source.pos? ⟨hi⟩ with
  | some first, some last => if first ≤ last then some (source.extract first last) else none
  | _, _ => none

/-- The text between two byte offsets, empty when there is none. -/
def sliceOrEmpty (source : String) (lo hi : Nat) : String := (slice? source lo hi).getD ""

/-- Looking an offset up gives the position that is at this offset. -/
theorem pos?_eq_some_iff {source : String} {offset : Nat} {position : source.Pos} :
    source.pos? ⟨offset⟩ = some position ↔ position.offset.byteIdx = offset := by
  simp only [String.pos?, String.Slice.pos?, Option.map_eq_some_iff]
  constructor
  · rintro ⟨inner, found, rfl⟩
    split at found
    · cases found
      rfl
    · cases found
  · rintro rfl
    have valid : position.offset.isValidForSlice source.toSlice :=
      String.Pos.Raw.isValidForSlice_eq_true_iff.2 position.toSlice.isValidForSlice
    exact ⟨position.toSlice, dif_pos valid, String.Pos.ofToSlice_toSlice position⟩

/-- Between two parts of a source there is a position, at the offset that the first part takes. -/
theorem exists_pos?_of_append {source before after : String} (cut : source = before ++ after) :
    ∃ position, source.pos? ⟨before.utf8ByteSize⟩ = some position ∧
      position.Splits before after :=
  ⟨_, pos?_eq_some_iff.2 (by simp [String.Pos.ofEqAppend]), String.Pos.splits_ofEqAppend cut⟩

/-- What lies between two positions is the middle of the parts that they cut the source into. -/
theorem extract_eq_of_splits {source before text after : String} {first last : source.Pos}
    (firstSplits : first.Splits before (text ++ after))
    (lastSplits : last.Splits (before ++ text) after) : source.extract first last = text := by
  obtain ⟨rfl, firstOffset⟩ := firstSplits
  obtain ⟨-, lastOffset⟩ := lastSplits
  have nothingBefore : before.toByteArray.extract before.utf8ByteSize
      (before.utf8ByteSize + text.utf8ByteSize) = ByteArray.empty :=
    ByteArray.extract_eq_empty_iff.2 (Nat.min_le_right ..)
  have all : text.toByteArray.extract 0 text.utf8ByteSize = text.toByteArray :=
    ByteArray.extract_zero_size
  rw [← String.toByteArray_inj, String.toByteArray_extract, firstOffset, lastOffset]
  simp [ByteArray.extract_append, nothingBefore, all]

/-- A slice is the middle of three parts of the source, of which the first ends at the first
offset and the second at the second. -/
theorem slice?_eq_some_iff {source text : String} {lo hi : Nat} :
    slice? source lo hi = some text ↔
      ∃ before after, source = before ++ (text ++ after) ∧
        before.utf8ByteSize = lo ∧ (before ++ text).utf8ByteSize = hi := by
  constructor
  · intro found
    unfold slice? at found
    split at found
    case h_2 => cases found
    case h_1 first last firstFound lastFound =>
      split at found
      case isFalse => cases found
      case isTrue le =>
        cases found
        have firstSplits := first.splits
        have lastSplits := last.splits
        obtain ⟨text, middle, rest⟩ := (firstSplits.le_iff_exists_eq_append lastSplits).1 le
        rw [rest] at firstSplits
        rw [middle] at lastSplits
        rw [extract_eq_of_splits firstSplits lastSplits]
        refine ⟨_, _, firstSplits.eq_append, ?_, ?_⟩
        · rw [← pos?_eq_some_iff.1 firstFound, firstSplits.offset_eq_rawEndPos]
          rfl
        · rw [← pos?_eq_some_iff.1 lastFound, lastSplits.offset_eq_rawEndPos]
          rfl
  · rintro ⟨before, after, cut, rfl, rfl⟩
    obtain ⟨first, firstFound, firstSplits⟩ := exists_pos?_of_append cut
    obtain ⟨last, lastFound, lastSplits⟩ :=
      exists_pos?_of_append (cut.trans (String.append_assoc ..).symm)
    have le : first ≤ last := (firstSplits.le_iff_exists_eq_append lastSplits).2 ⟨text, rfl, rfl⟩
    unfold slice?
    rw [firstFound, lastFound]
    simp [le, extract_eq_of_splits firstSplits lastSplits]

end Offside.Text
