import Offside.Token.KindSet

/-! # Members of kind sets

A set is known by its members. Every kind has a bit of its own, since the list of all kinds holds
each at its index.
-/

namespace Offside.Token

theorem Kind.getElem?_all (kind : Kind) : Kind.all[kind.index]? = some kind := by
  cases kind <;> rfl

theorem Kind.index_injective {kind other : Kind} (same : kind.index = other.index) :
    kind = other := by
  have place := Kind.getElem?_all kind
  rw [same, Kind.getElem?_all other] at place
  exact (Option.some.inj place).symm

theorem Kind.index_lt (kind : Kind) : kind.index < 61 :=
  (List.getElem?_eq_some_iff.mp (Kind.getElem?_all kind)).1

theorem Kind.mem_all (kind : Kind) : kind ∈ Kind.all :=
  List.mem_of_getElem? (Kind.getElem?_all kind)

theorem Kind.map_index_all : Kind.all.map Kind.index = List.range 61 := rfl

/-- All kinds are listed in order of declaration, each once. -/
theorem Kind.pairwise_all : Kind.all.Pairwise fun first second => first.index < second.index := by
  have inOrder : (Kind.all.map Kind.index).Pairwise (· < ·) :=
    Kind.map_index_all ▸ List.pairwise_lt_range
  exact List.pairwise_map.mp inOrder

namespace KindSet

@[simp] theorem contains_single (kind other : Kind) :
    (single kind).contains other = decide (kind = other) := by
  have place : (kind.index = other.index) = (kind = other) :=
    propext ⟨Kind.index_injective, congrArg Kind.index⟩
  simp only [contains, single, BitVec.getLsbD_twoPow, kind.index_lt, decide_true, Bool.true_and,
    place]

@[simp] theorem contains_union (first second : KindSet) (kind : Kind) :
    (first.union second).contains kind = (first.contains kind || second.contains kind) := by
  simp [contains, union]

@[simp] theorem contains_empty (kind : Kind) : empty.contains kind = false := by
  simp [contains, empty]

/-- Sets with the same members are the same. -/
theorem ext_of_contains {first second : KindSet}
    (same : ∀ kind, first.contains kind = second.contains kind) : first = second := by
  obtain ⟨bits⟩ := first
  obtain ⟨more⟩ := second
  congr 1
  apply BitVec.eq_of_getLsbD_eq
  intro place inside
  have listed : place ∈ Kind.all.map Kind.index := Kind.map_index_all ▸ List.mem_range.mpr inside
  obtain ⟨kind, -, rfl⟩ := List.mem_map.mp listed
  exact same kind

@[simp] theorem empty_union (set : KindSet) : empty.union set = set :=
  ext_of_contains (by simp)

@[simp] theorem union_empty (set : KindSet) : set.union empty = set :=
  ext_of_contains (by simp)

theorem union_assoc (first second third : KindSet) :
    (first.union second).union third = first.union (second.union third) :=
  ext_of_contains (by simp [Bool.or_assoc])

@[simp] theorem mem_toList {set : KindSet} {kind : Kind} :
    kind ∈ set.toList ↔ set.contains kind = true := by
  simp [toList, Kind.mem_all]

theorem pairwise_toList (set : KindSet) :
    set.toList.Pairwise fun first second => first.index < second.index :=
  Kind.pairwise_all.filter _

/-- What has a member is not empty. -/
theorem isEmpty_of_contains {set : KindSet} {kind : Kind} (inside : set.contains kind = true) :
    set.isEmpty = false := by
  refine beq_eq_false_iff_ne.mpr fun none => ?_
  simp [contains, none] at inside

/-- What is not empty has a member. -/
theorem exists_contains_of_isEmpty {set : KindSet} (some : set.isEmpty = false) :
    ∃ kind, set.contains kind = true := by
  refine Classical.byContradiction fun none => ?_
  have same : set = empty := ext_of_contains fun kind => by
    rw [contains_empty]
    exact Bool.eq_false_iff.mpr fun inside => none ⟨kind, inside⟩
  rw [same] at some
  cases some

end KindSet

end Offside.Token
