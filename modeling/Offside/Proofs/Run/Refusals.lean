import Offside.Proofs.Run.Prediction

/-! # How far refusals reach

The furthest refusal decides nothing while a grammar runs, but it is what a parse that stops short
reports. Two runs on the same trail need not refuse the same words: one may rule out by the next
word what the other tries in vain. As long as they differ in nothing but words up to the cursor, the
next word that both of them refuse makes the difference vanish.
-/

namespace Offside.Grammar

open Parse
open Token (Kind KindSet)

/-- On the same trail, and the same word is the furthest that was refused. -/
structure Level (state other : State) : Prop where
  trail : state.trail = other.trail
  refusals : state.failure.position = other.failure.position

/-- On the same trail, and the second may have refused more, up to the cursor. -/
structure Near (state other : State) : Prop where
  trail : state.trail = other.trail
  /-- The second has refused what the first has. -/
  refusals : state.failure.position ≤ other.failure.position
  /-- What more it has refused lies up to the cursor. -/
  upToHere : other.failure.position ≤ max state.failure.position state.position

/-- On the same trail, with refusals as far as those of the second and a given word. -/
structure Raised (floor : Nat) (state other : State) : Prop where
  trail : state.trail = other.trail
  /-- The furthest refusal is that of the second, or the given word if that lies further. -/
  refusals : state.failure.position = max floor other.failure.position

section

variable {words : Array Word} {state middle other : State}

theorem position_le_bump (state : State) : state.position ≤ (state.bump words).position := by
  unfold State.bump
  split
  · exact Nat.le_refl _
  · exact Nat.le_succ _

theorem trail_bump_eq (same : state.trail = other.trail) :
    (state.bump words).trail = (other.bump words).trail :=
  (sameTrail_alike words).bump same

namespace Level

theorem near (level : Level state other) : Near state other where
  trail := level.trail
  refusals := Nat.le_of_eq level.refusals
  upToHere := level.refusals ▸ Nat.le_max_left ..

theorem trans (first : Level state middle) (second : Level middle other) : Level state other where
  trail := first.trail.trans second.trail
  refusals := first.refusals.trans second.refusals

end Level

namespace Near

theorem refl (state : State) : Near state state := Level.near ⟨rfl, rfl⟩

theorem position_eq (near : Near state other) : state.position = other.position :=
  congrArg Trail.position near.trail

/-- Counting the word at the cursor in, both have refused the same. -/
theorem max_eq (near : Near state other) :
    max state.failure.position state.position = max other.failure.position other.position := by
  have position := near.position_eq
  have refusals := near.refusals
  have upToHere := near.upToHere
  omega

/-- If both have refused the word at the cursor, they are level. -/
theorem level (near : Near state other) (refused : state.position ≤ state.failure.position) :
    Level state other where
  trail := near.trail
  refusals := by
    have upToHere := near.upToHere
    rw [Nat.max_eq_left refused] at upToHere
    exact Nat.le_antisymm near.refusals upToHere

theorem trans (first : Near state middle) (second : Near middle other) : Near state other where
  trail := first.trail.trans second.trail
  refusals := Nat.le_trans first.refusals second.refusals
  upToHere := by
    have upToHere := second.upToHere
    rw [← first.max_eq] at upToHere
    exact upToHere

end Near

/-- Who refuses the same word next is level with the other. -/
theorem near_alike (words : Array Word) : Alike words Near Level where
  trail near := near.trail
  near_of_level level := level.near
  log trail position near := by
    refine ⟨by rw [State.trail_follow, State.trail_follow], near.refusals, ?_⟩
    change _ ≤ max _ trail.position
    rw [position]
    exact near.upToHere
  back trail level := ⟨by rw [State.trail_follow, State.trail_follow], level.refusals⟩
  bump {state other} near := by
    refine ⟨trail_bump_eq near.trail, ?_, ?_⟩
    · rw [State.failure_bump, State.failure_bump]
      exact near.refusals
    · rw [State.failure_bump, State.failure_bump]
      have upToHere := near.upToHere
      have further : state.position ≤ (state.bump words).position := position_le_bump state
      omega
  expect kinds near := by
    refine ⟨by rw [State.trail_expect, State.trail_expect, near.trail], ?_⟩
    rw [failure_expect, failure_expect]
    exact near.max_eq
  expectText text near := by
    refine ⟨by rw [State.trail_expectText, State.trail_expectText, near.trail], ?_⟩
    rw [failure_expectText, failure_expectText]
    exact near.max_eq

/-- Having refused more from the beginning makes no difference but that. -/
theorem raised_alike (words : Array Word) (floor : Nat) :
    Alike words (Raised floor) (Raised floor) where
  trail raised := raised.trail
  near_of_level raised := raised
  log trail _ raised := ⟨by rw [State.trail_follow, State.trail_follow], raised.refusals⟩
  back trail raised := ⟨by rw [State.trail_follow, State.trail_follow], raised.refusals⟩
  bump raised := by
    refine ⟨trail_bump_eq raised.trail, ?_⟩
    rw [State.failure_bump, State.failure_bump]
    exact raised.refusals
  expect {state other} kinds raised := by
    have position : state.position = other.position := congrArg Trail.position raised.trail
    refine ⟨by rw [State.trail_expect, State.trail_expect, raised.trail], ?_⟩
    rw [failure_expect, failure_expect, raised.refusals, position, Nat.max_assoc]
  expectText {state other} text raised := by
    have position : state.position = other.position := congrArg Trail.position raised.trail
    refine ⟨by rw [State.trail_expectText, State.trail_expectText, raised.trail], ?_⟩
    rw [failure_expectText, failure_expectText, raised.refusals, position, Nat.max_assoc]

end

end Offside.Grammar
