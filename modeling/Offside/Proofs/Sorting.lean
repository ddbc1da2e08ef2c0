import Mathlib.Data.List.Basic

/-! # Sorting by a number

Wraps are sorted by the place they were opened at and errors by where they start. Sorting puts the
numbers in order and leaves items with the same number in the order they had.
-/

namespace Offside

variable {α : Type} (key : α → Nat)

private theorem keyOrder_trans (first second third : α)
    (left : decide (key first ≤ key second) = true)
    (right : decide (key second ≤ key third) = true) : decide (key first ≤ key third) = true :=
  decide_eq_true (Nat.le_trans (of_decide_eq_true left) (of_decide_eq_true right))

private theorem keyOrder_total (first second : α) :
    (decide (key first ≤ key second) || decide (key second ≤ key first)) = true := by
  simpa only [Bool.or_eq_true, decide_eq_true_eq] using Nat.le_total (key first) (key second)

theorem pairwise_mergeSort_key (items : List α) :
    (items.mergeSort fun first second => key first ≤ key second).Pairwise
      fun first second => key first ≤ key second := by
  have sorted := List.pairwise_mergeSort (keyOrder_trans key) (keyOrder_total key) items
  simpa only [decide_eq_true_eq] using sorted

/-- Items with the same number stay in order. -/
theorem filter_mergeSort_key (items : List α) (value : Nat) :
    (items.mergeSort fun first second => key first ≤ key second).filter (key · == value) =
      items.filter (key · == value) := by
  have ordered : (items.filter (key · == value)).Pairwise
      fun first second => decide (key first ≤ key second) = true := by
    refine List.pairwise_of_forall_mem_list fun first here second there => ?_
    have firstKey := beq_iff_eq.mp (List.mem_filter.mp here).2
    have secondKey := beq_iff_eq.mp (List.mem_filter.mp there).2
    simp only [firstKey, secondKey, Nat.le_refl, decide_true]
  have kept := (List.sublist_mergeSort (keyOrder_trans key) (keyOrder_total key) ordered
    List.filter_sublist).filter (key · == value)
  simp only [List.filter_filter, Bool.and_self] at kept
  exact (kept.eq_of_length ((List.mergeSort_perm ..).filter _).length_eq.symm).symm

end Offside
