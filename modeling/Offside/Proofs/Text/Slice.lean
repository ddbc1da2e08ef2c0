import Offside.Text.Slice

/-! # Slices of characters

A source is a list of characters, and its offsets are the lengths in bytes of what is in front of
each. The slice between two such offsets is made of the characters between them.
-/

namespace Offside.Text

@[simp] theorem byteLength_nil : byteLength [] = 0 := rfl

@[simp] theorem byteLength_cons (char : Char) (rest : List Char) :
    byteLength (char :: rest) = char.utf8Size + byteLength rest := rfl

@[simp] theorem byteLength_append (front rest : List Char) :
    byteLength (front ++ rest) = byteLength front + byteLength rest := by
  induction front with
  | nil => simp
  | cons char front ih => rw [List.cons_append, byteLength_cons, byteLength_cons, ih, Nat.add_assoc]

theorem utf8ByteSize_ofList (chars : List Char) :
    (String.ofList chars).utf8ByteSize = byteLength chars := by
  induction chars with
  | nil => rfl
  | cons char rest ih =>
    rw [String.ofList_cons, String.utf8ByteSize_append, String.utf8ByteSize_singleton, ih,
      byteLength_cons]

theorem utf8ByteSize_eq_byteLength (source : String) :
    source.utf8ByteSize = byteLength source.toList := by
  rw [← utf8ByteSize_ofList, String.ofList_toList]

/-- Characters that are there take some bytes. -/
theorem byteLength_pos {chars : List Char} (some : chars ≠ []) : 0 < byteLength chars := by
  cases chars with
  | nil => exact absurd rfl some
  | cons char rest => exact Nat.add_pos_left char.utf8Size_pos _

theorem length_le_byteLength (chars : List Char) : chars.length ≤ byteLength chars := by
  induction chars with
  | nil => exact Nat.le_refl _
  | cons char rest ih =>
    have wide := char.utf8Size_pos
    rw [List.length_cons, byteLength_cons]
    omega

theorem byteLength_replicate (count : Nat) (char : Char) :
    byteLength (List.replicate count char) = count * char.utf8Size := by
  induction count with
  | zero => exact (Nat.zero_mul _).symm
  | succ count ih =>
    rw [List.replicate_succ, byteLength_cons, ih, Nat.succ_mul, Nat.add_comm]

/-- Of two places where a source is cut, the later one lies in what is behind the earlier one. -/
theorem exists_between_cuts {before after before' after' : List Char}
    (same : before ++ after = before' ++ after')
    (earlier : byteLength before ≤ byteLength before') :
    ∃ text, before' = before ++ text ∧ after = text ++ after' := by
  rcases List.append_eq_append_iff.mp same with ⟨text, rfl, rfl⟩ | ⟨text, rfl, rfl⟩
  · exact ⟨text, rfl, rfl⟩
  cases text with
  | nil => exact ⟨[], by simp, by simp⟩
  | cons char rest =>
    have wide := byteLength_pos (List.cons_ne_nil char rest)
    rw [byteLength_append] at earlier
    omega

/-- Between the offsets in front of some characters and behind them is what they make up. -/
theorem slice?_of_cut {source : String} {before text after : List Char}
    (cut : source.toList = before ++ (text ++ after)) :
    slice? source (byteLength before) (byteLength (before ++ text)) =
      some (String.ofList text) := by
  refine slice?_eq_some_iff.mpr ⟨String.ofList before, String.ofList after, ?_, ?_, ?_⟩
  · rw [← String.toList_inj, cut]
    simp
  · exact utf8ByteSize_ofList before
  · rw [← String.ofList_append, utf8ByteSize_ofList]

theorem sliceOrEmpty_of_cut {source : String} {before text after : List Char}
    (cut : source.toList = before ++ (text ++ after)) :
    sliceOrEmpty source (byteLength before) (byteLength (before ++ text)) =
      String.ofList text := by
  rw [sliceOrEmpty, slice?_of_cut cut, Option.getD_some]

/-- Nothing is between an offset and itself. -/
theorem sliceOrEmpty_self (source : String) (offset : Nat) :
    sliceOrEmpty source offset offset = "" := by
  unfold sliceOrEmpty
  cases found : slice? source offset offset with
  | none => rfl
  | some text =>
    obtain ⟨before, after, -, ends, same⟩ := slice?_eq_some_iff.mp found
    rw [String.utf8ByteSize_append] at same
    rw [Option.getD_some, ← String.utf8ByteSize_eq_zero_iff]
    omega

end Offside.Text
