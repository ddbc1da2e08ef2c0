import Mathlib.Data.List.Basic

/-! # Nesting

Events of a log, calls that build a tree and tokens of a layout are all lists in which some items
open something that others close. Such a list is well nested when every item that opens has one
that closes behind it, with a well nested list in between.
-/

namespace Offside

/-- What an item does to the nesting. -/
inductive Role where
  | opens
  | closes
  | inside
deriving DecidableEq

/-- Lists in which everything that is opened is closed, from the inside out. -/
inductive Nested {α : Type} (role : α → Role) : List α → Prop
  | nil : Nested role []
  /-- An item that neither opens nor closes, and more. -/
  | item {item : α} {rest : List α} (inside : role item = .inside) (behind : Nested role rest) :
    Nested role (item :: rest)
  | pair {first last : α} {inner rest : List α} (opens : role first = .opens)
    (closes : role last = .closes) (between : Nested role inner) (behind : Nested role rest) :
    Nested role (first :: (inner ++ last :: rest))

namespace Nested

variable {α : Type} {role : α → Role}

theorem append {first second : List α} (left : Nested role first) (right : Nested role second) :
    Nested role (first ++ second) := by
  induction left with
  | nil => exact right
  | item inside _ ih => exact .item inside ih
  | pair opens closes between _ _ ih =>
    rw [List.cons_append, List.append_assoc, List.cons_append]
    exact .pair opens closes between ih

theorem singleton {item : α} (inside : role item = .inside) : Nested role [item] :=
  .item inside .nil

theorem enclosed {first last : α} {inner : List α} (opens : role first = .opens)
    (closes : role last = .closes) (between : Nested role inner) :
    Nested role (first :: (inner ++ [last])) :=
  .pair opens closes between .nil

theorem of_forall_inside {items : List α} (inside : ∀ item ∈ items, role item = .inside) :
    Nested role items := by
  induction items with
  | nil => exact .nil
  | cons item rest ih =>
    obtain ⟨first, others⟩ := List.forall_mem_cons.mp inside
    exact .item first (ih others)

end Nested

/-! ## Depth -/

/-- Number of items that play a role. -/
def playing {α : Type} (role : α → Role) (wanted : Role) (items : List α) : Nat :=
  items.countP fun item => role item == wanted

theorem playing_cons {α : Type} (role : α → Role) (wanted : Role) (item : α) (rest : List α) :
    playing role wanted (item :: rest) =
      playing role wanted rest + if role item = wanted then 1 else 0 := by
  simp only [playing, List.countP_cons, beq_iff_eq]

/-- What an item does to the number of things that are open, unless there is nothing to close. -/
def Role.step : Role → Nat → Option Nat
  | .inside, depth => some depth
  | .opens, depth => some (depth + 1)
  | .closes, outer + 1 => some outer
  | .closes, 0 => none

/-- How deep a list leads from some depth, unless it closes what was not opened. -/
def depthAfter {α : Type} (role : α → Role) (depth : Nat) : List α → Option Nat
  | [] => some depth
  | item :: rest => ((role item).step depth).bind fun next => depthAfter role next rest

section

variable {α : Type} {role : α → Role}

theorem depthAfter_append (depth : Nat) (first second : List α) :
    depthAfter role depth (first ++ second) =
      (depthAfter role depth first).bind fun middle => depthAfter role middle second := by
  induction first generalizing depth with
  | nil => rfl
  | cons item rest ih =>
    rw [List.cons_append, depthAfter, depthAfter, Option.bind_assoc]
    exact congrArg _ (funext ih)

theorem depthAfter_of_forall_inside {items : List α} (inside : ∀ item ∈ items, role item = .inside)
    (depth : Nat) : depthAfter role depth items = some depth := by
  induction items with
  | nil => rfl
  | cons item rest ih =>
    obtain ⟨first, others⟩ := List.forall_mem_cons.mp inside
    rw [depthAfter, first]
    exact ih others

/-- What is well nested leads back to where it began. -/
theorem Nested.depthAfter {items : List α} (nested : Nested role items) (depth : Nat) :
    depthAfter role depth items = some depth := by
  induction nested generalizing depth with
  | nil => rfl
  | item inside _ ih =>
    rw [Offside.depthAfter, inside]
    exact ih depth
  | pair opens closes _ _ ihInner ih =>
    rw [Offside.depthAfter, opens]
    change Offside.depthAfter role (depth + 1) _ = _
    rw [depthAfter_append, ihInner, Option.bind_some, Offside.depthAfter, closes]
    exact ih depth

/-- Depth counts what is open. -/
theorem playing_of_depthAfter {depth reached : Nat} {items : List α}
    (leads : depthAfter role depth items = some reached) :
    depth + playing role .opens items = reached + playing role .closes items := by
  induction items generalizing depth with
  | nil =>
    cases leads
    rfl
  | cons item rest ih =>
    obtain ⟨next, steps, leads⟩ := Option.bind_eq_some_iff.mp leads
    have counted := ih leads
    rw [playing_cons, playing_cons]
    cases plays : role item with
    | inside =>
      rw [plays] at steps
      cases steps
      exact counted
    | opens =>
      rw [plays] at steps
      cases steps
      simp only [reduceCtorEq, ↓reduceIte]
      omega
    | closes =>
      rw [plays] at steps
      cases depth with
      | zero => cases steps
      | succ outer =>
        cases steps
        simp only [reduceCtorEq, ↓reduceIte]
        omega

/-- No part in front closes more than was open. -/
theorem playing_le_of_depthAfter {depth reached : Nat} {items front : List α}
    (leads : depthAfter role depth items = some reached) (inFront : front <+: items) :
    playing role .closes front ≤ depth + playing role .opens front := by
  obtain ⟨behind, rfl⟩ := inFront
  rw [depthAfter_append] at leads
  obtain ⟨middle, leadsFront, -⟩ := Option.bind_eq_some_iff.mp leads
  have counted := playing_of_depthAfter leadsFront
  omega

/-- Well nested pieces with an item between them for each level that is closed. -/
inductive Unwinds (role : α → Role) : Nat → List α → Prop
  | last {items : List α} (nested : Nested role items) : Unwinds role 0 items
  /-- A piece, and the end of a level. -/
  | level {depth : Nat} {item : α} {inner rest : List α} (nested : Nested role inner)
    (closes : role item = .closes) (outer : Unwinds role depth rest) :
    Unwinds role (depth + 1) (inner ++ item :: rest)

theorem unwinds_of_depthAfter {depth : Nat} {items : List α}
    (leads : depthAfter role depth items = some 0) : Unwinds role depth items := by
  induction items generalizing depth with
  | nil =>
    cases leads
    exact .last .nil
  | cons item rest ih =>
    obtain ⟨next, steps, leads⟩ := Option.bind_eq_some_iff.mp leads
    have behind := ih leads
    cases plays : role item with
    | inside =>
      rw [plays] at steps
      cases steps
      cases behind with
      | last nested => exact .last (.item plays nested)
      | level nested closes outer => exact .level (.item plays nested) closes outer
    | opens =>
      rw [plays] at steps
      cases steps
      -- What closes this item ends the first level; the next piece goes on behind it.
      cases behind with
      | level nested closes outer =>
        cases outer with
        | last more => exact .last (.pair plays closes nested more)
        | level more closesOuter outer =>
          have whole := Unwinds.level (.pair plays closes nested more) closesOuter outer
          simpa using whole
    | closes =>
      rw [plays] at steps
      cases depth with
      | zero => cases steps
      | succ outer =>
        cases steps
        exact .level .nil plays behind

/-- A list that leads from the ground to the ground is well nested. -/
theorem nested_of_depthAfter {items : List α} (leads : depthAfter role 0 items = some 0) :
    Nested role items := by
  cases unwinds_of_depthAfter leads with
  | last nested => exact nested

end

end Offside
