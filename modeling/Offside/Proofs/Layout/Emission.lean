import Offside.Proofs.Layout.Moves

/-! # What is emitted for a token

Whatever a token does to the stack, what comes out has one shape: end tokens, perhaps a separator,
the token itself, and perhaps a start token. All but the last stand where the token starts; the
last stands where the next token starts.
-/

namespace Offside.Layout

open Source Token

namespace Arrival

variable (arrival : Arrival)

/-- The layout tokens in front of a token. -/
def inFront (ends : Nat) (separates : Bool) : List Qualified :=
  List.replicate ends (.point .layoutEnd arrival.position) ++
    if separates then [.point .layoutSep arrival.position] else []

/-- The layout tokens behind a token. -/
def behind (opens : Bool) : List Qualified :=
  if opens then [.point .layoutStart arrival.next] else []

/-- What is emitted by the time a phase is reached. -/
def Emits : Phase → List Qualified → Prop
  | .closing, emitted => ∃ ends, emitted = arrival.inFront ends false
  | .separated, emitted => ∃ ends, emitted = arrival.inFront ends true
  | .passed, emitted => ∃ ends separates, emitted = arrival.inFront ends separates ++ [arrival.unit]
  | .opened, emitted => ∃ ends separates,
    emitted = arrival.inFront ends separates ++ arrival.unit :: arrival.behind true

theorem inFront_end (ends : Nat) :
    arrival.inFront ends false ++ [.point .layoutEnd arrival.position] =
      arrival.inFront (ends + 1) false := by
  simp [inFront, List.replicate_succ']

theorem inFront_separator (ends : Nat) :
    arrival.inFront ends false ++ [.point .layoutSep arrival.position] =
      arrival.inFront ends true := by
  simp [inFront]

end Arrival

theorem Moved.emits {arrival : Arrival} {before frames : List Frame} {phase : Phase}
    {emitted : List Qualified} (moved : Moved arrival before phase frames emitted) :
    arrival.Emits phase emitted := by
  induction moved with
  | idle => exact ⟨0, rfl⟩
  | close _ _ ih =>
    obtain ⟨ends, rfl⟩ := ih
    exact ⟨ends + 1, arrival.inFront_end ends⟩
  | unmask _ _ _ ih | mask _ _ _ ih | declare _ _ _ _ ih => exact ih
  | separate _ _ _ _ ih =>
    obtain ⟨ends, rfl⟩ := ih
    exact ⟨ends, arrival.inFront_separator ends⟩
  | pass due _ ih =>
    rcases due with rfl | rfl
    · obtain ⟨ends, rfl⟩ := ih
      exact ⟨ends, false, rfl⟩
    · obtain ⟨ends, rfl⟩ := ih
      exact ⟨ends, true, rfl⟩
  | enter _ _ _ ih =>
    obtain ⟨ends, separates, rfl⟩ := ih
    exact ⟨ends, separates, by rw [List.append_assoc]; rfl⟩

/-- The shape of what is emitted for a token that is fed to the stack. -/
theorem Stack.feed_emitted (stack : Stack) (config : Config) (unit : Qualified) (next : Position)
    (nextKind? : Option Kind) :
    let arrival : Arrival := ⟨config, unit, next, nextKind?⟩
    ∃ ends separates opens, (stack.feed config unit next nextKind?).2 =
      arrival.inFront ends separates ++ unit :: arrival.behind opens := by
  intro arrival
  obtain ⟨phase, done, moved⟩ := stack.feed_moved config unit next nextKind?
  have shape := moved.emits
  rcases done with rfl | rfl
  · obtain ⟨ends, separates, same⟩ := shape
    exact ⟨ends, separates, false, same⟩
  · obtain ⟨ends, separates, same⟩ := shape
    exact ⟨ends, separates, true, same⟩

end Offside.Layout
