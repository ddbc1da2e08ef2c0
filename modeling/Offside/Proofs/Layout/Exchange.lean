import Offside.Proofs.Layout.Balance
import Offside.Proofs.Layout.Emission

/-! # Frames exchanged for tokens

A token exchanges frames at the top of the stack: some of the innermost go, others come in their
place, and what lies below is not looked at. The layout tokens around it are the receipt. Each block
that goes is paid for by an end token, a start token stands for the one block that may come, and
masks come and go without a trace.

The end tokens are counted where the frames are taken, so a block that is paid for is one that was
there before: what comes before the token itself is emitted is never a block.
-/

namespace Offside.Layout

open Source Token

/-- What the layout tokens say by the time a phase is reached, if so many blocks are gone and such
blocks have come. -/
def Arrival.Receipt (arrival : Arrival) (gone : Nat) (come : List Frame) :
    Phase → List Qualified → Prop
  | .closing, emitted => come = [] ∧ emitted = arrival.inFront gone false
  | .separated, emitted => come = [] ∧ emitted = arrival.inFront gone true
  | .passed, emitted => come = [] ∧
    ∃ separates, emitted = arrival.inFront gone separates ++ [arrival.unit]
  | .opened, emitted => (∃ delimiter, come = [⟨arrival.next, delimiter⟩]) ∧
    ∃ separates, emitted = arrival.inFront gone separates ++ arrival.unit :: arrival.behind true

/-- The frames at the top that are gone, those that have come in their place, and the receipt. -/
structure Exchanged (arrival : Arrival) (before : List Frame) (phase : Phase) (frames : List Frame)
    (emitted : List Qualified) (removed pushed kept : List Frame) : Prop where
  /-- What was there is what is gone, on top of what is left. -/
  before_eq : before = removed ++ kept
  /-- What is there is what has come, on top of what is left. -/
  frames_eq : frames = pushed ++ kept
  /-- The layout tokens account for the blocks among both. -/
  receipt : arrival.Receipt (blocks removed) (pushed.filter Frame.isIndented) phase emitted

namespace Exchanged

variable {arrival : Arrival} {before frames removed pushed kept : List Frame} {frame : Frame}
  {phase : Phase} {emitted : List Qualified}

/-- A block that is closed was there before, as nothing but masks has come so far. -/
theorem close (isBlock : frame.isIndented = true)
    (exchanged : Exchanged arrival before .closing (frame :: frames) emitted removed pushed kept) :
    Exchanged arrival before .closing frames (emitted ++ [.point .layoutEnd arrival.position])
      (removed ++ [frame]) [] frames := by
  obtain ⟨before_eq, frames_eq, onlyMasks, same⟩ := exchanged
  cases pushed with
  | nil =>
    obtain rfl : frame :: frames = kept := frames_eq
    refine ⟨by rw [before_eq, List.append_assoc]; rfl, rfl, rfl, ?_⟩
    have one : blocks (removed ++ [frame]) = blocks removed + 1 := by
      rw [blocks, List.countP_append, List.countP_singleton, if_pos isBlock]
      rfl
    rw [same, one, arrival.inFront_end]
  | cons mask rest =>
    obtain ⟨rfl, -⟩ := List.cons.inj frames_eq
    rw [List.filter_cons_of_pos isBlock] at onlyMasks
    cases onlyMasks

/-- A mask that is taken off has come just now or was there before. -/
theorem unmask (isMask : frame.isIndented = false)
    (exchanged : Exchanged arrival before phase (frame :: frames) emitted removed pushed kept) :
    ∃ removed pushed kept, Exchanged arrival before phase frames emitted removed pushed kept := by
  obtain ⟨before_eq, frames_eq, receipt⟩ := exchanged
  have noBlock : ¬frame.isIndented = true := by simp [isMask]
  cases pushed with
  | nil =>
    obtain rfl : frame :: frames = kept := frames_eq
    refine ⟨removed ++ [frame], [], frames, by rw [before_eq, List.append_assoc]; rfl, rfl, ?_⟩
    have same : blocks (removed ++ [frame]) = blocks removed := by
      rw [blocks, List.countP_append, List.countP_singleton, if_neg noBlock]
      rfl
    rwa [same]
  | cons mask rest =>
    obtain ⟨rfl, rfl⟩ := List.cons.inj frames_eq
    rw [List.filter_cons_of_neg noBlock] at receipt
    exact ⟨removed, rest, kept, before_eq, rfl, receipt⟩

theorem mask (isMask : frame.isIndented = false)
    (exchanged : Exchanged arrival before phase frames emitted removed pushed kept) :
    Exchanged arrival before phase (frame :: frames) emitted removed (frame :: pushed) kept where
  before_eq := exchanged.before_eq
  frames_eq := congrArg (frame :: ·) exchanged.frames_eq
  receipt := by
    rw [List.filter_cons_of_neg (by simp [isMask])]
    exact exchanged.receipt

theorem pass (due : phase = .closing ∨ phase = .separated)
    (exchanged : Exchanged arrival before phase frames emitted removed pushed kept) :
    Exchanged arrival before .passed frames (emitted ++ [arrival.unit]) removed pushed kept where
  before_eq := exchanged.before_eq
  frames_eq := exchanged.frames_eq
  receipt := by
    have receipt := exchanged.receipt
    rcases due with rfl | rfl
    · obtain ⟨onlyMasks, rfl⟩ := receipt
      exact ⟨onlyMasks, false, rfl⟩
    · obtain ⟨onlyMasks, rfl⟩ := receipt
      exact ⟨onlyMasks, true, rfl⟩

theorem enter {delimiter : Delimiter} (isBlock : delimiter.isIndented = true)
    (exchanged : Exchanged arrival before .passed frames emitted removed pushed kept) :
    Exchanged arrival before .opened (⟨arrival.next, delimiter⟩ :: frames)
      (emitted ++ [.point .layoutStart arrival.next]) removed
      (⟨arrival.next, delimiter⟩ :: pushed) kept where
  before_eq := exchanged.before_eq
  frames_eq := congrArg (_ :: ·) exchanged.frames_eq
  receipt := by
    obtain ⟨onlyMasks, separates, rfl⟩ := exchanged.receipt
    have isBlockFrame : Frame.isIndented ⟨arrival.next, delimiter⟩ = true := isBlock
    refine ⟨⟨delimiter, ?_⟩, separates, by rw [List.append_assoc]; rfl⟩
    rw [List.filter_cons_of_pos isBlockFrame, onlyMasks]

end Exchanged

/-- Every move exchanges frames at the top. -/
theorem Moved.exchanged {arrival : Arrival} {before frames : List Frame} {phase : Phase}
    {emitted : List Qualified} (moved : Moved arrival before phase frames emitted) :
    ∃ removed pushed kept, Exchanged arrival before phase frames emitted removed pushed kept := by
  induction moved with
  | idle => exact ⟨[], [], before, rfl, rfl, rfl, rfl⟩
  | close isBlock _ ih =>
    obtain ⟨removed, pushed, kept, exchanged⟩ := ih
    exact ⟨_, _, _, exchanged.close isBlock⟩
  | unmask isMask _ _ ih =>
    obtain ⟨removed, pushed, kept, exchanged⟩ := ih
    exact exchanged.unmask isMask
  | mask position isMask _ ih =>
    obtain ⟨removed, pushed, kept, exchanged⟩ := ih
    exact ⟨_, _, _, exchanged.mask (Delimiter.isIndented_of_isMask isMask)⟩
  | separate _ _ _ _ ih =>
    obtain ⟨removed, pushed, kept, before_eq, frames_eq, onlyMasks, rfl⟩ := ih
    exact ⟨removed, pushed, kept, before_eq, frames_eq, onlyMasks, arrival.inFront_separator _⟩
  | pass due _ ih =>
    obtain ⟨removed, pushed, kept, exchanged⟩ := ih
    exact ⟨_, _, _, exchanged.pass due⟩
  | declare masks _ _ _ ih =>
    obtain ⟨removed, pushed, kept, exchanged⟩ := ih
    exact ⟨_, _, _, exchanged.mask (Delimiter.isIndented_of_masksDeclaration masks)⟩
  | enter isBlock _ _ ih =>
    obtain ⟨removed, pushed, kept, exchanged⟩ := ih
    exact ⟨_, _, _, exchanged.enter isBlock⟩

/-- A token that is no layout token is none of those around it. -/
theorem Arrival.count_unit (arrival : Arrival)
    (isWord : ∀ kind ∈ arrival.unit.coreKind?, kind.isLayout = false) (gone : Nat)
    (separates opens : Bool) :
    (arrival.inFront gone separates ++ arrival.unit :: arrival.behind opens).count arrival.unit =
      1 := by
  have other {kind : Kind} (position : Position) (isLayout : kind.isLayout = true) :
      Qualified.point kind position ≠ arrival.unit := by
    intro same
    have word := isWord kind (same ▸ rfl)
    rw [isLayout] at word
    cases word
  have front : arrival.unit ∉ arrival.inFront gone separates := by
    intro member
    rcases List.mem_append.mp member with isEnd | isSeparator
    · exact other _ rfl (List.eq_of_mem_replicate isEnd).symm
    · split at isSeparator
      · exact other _ rfl (List.mem_singleton.mp isSeparator).symm
      · cases isSeparator
  have back : arrival.unit ∉ arrival.behind opens := by
    intro member
    unfold behind at member
    split at member
    · exact other _ rfl (List.mem_singleton.mp member).symm
    · cases member
  rw [List.count_append, List.count_eq_zero_of_not_mem front, List.count_cons_self,
    List.count_eq_zero_of_not_mem back]

/-- What comes out when a token is fed to the stack, whatever the stack: an end token for each block
among the frames that are taken off, perhaps a separator, the token, and a start token if and only
if one block comes on the stack, which is then anchored where the next token starts. What is taken
off lies on top of what stays, and so does what comes. The token itself is emitted once if it is no
layout token. -/
theorem Stack.feed_exchanges (stack : Stack) (config : Config) (unit : Qualified) (next : Position)
    (nextKind? : Option Kind) (isWord : ∀ kind ∈ unit.coreKind?, kind.isLayout = false) :
    let fed := stack.feed config unit next nextKind?
    ∃ (removed pushed kept : List Frame) (separates opens : Bool),
      stack.inner = removed ++ kept ∧ fed.1.inner = pushed ++ kept ∧
        fed.2 = List.replicate (removed.countP Frame.isIndented) (.point .layoutEnd unit.start) ++
          (if separates then [.point .layoutSep unit.start] else []) ++
          unit :: (if opens then [.point .layoutStart next] else []) ∧
        fed.2.count unit = 1 ∧
        (opens = true ↔ ∃ block : Frame, block.position = next ∧
          pushed.filter Frame.isIndented = [block]) ∧
        (opens = false ↔ pushed.filter Frame.isIndented = []) := by
  intro fed
  let arrival : Arrival := ⟨config, unit, next, nextKind?⟩
  obtain ⟨phase, done, moved⟩ := stack.feed_moved config unit next nextKind?
  obtain ⟨removed, pushed, kept, before_eq, frames_eq, receipt⟩ := moved.exchanged
  rcases done with rfl | rfl
  · obtain ⟨none, separates, emitted⟩ := receipt
    have once := arrival.count_unit isWord (blocks removed) separates false
    refine ⟨removed, pushed, kept, separates, false, before_eq, frames_eq, emitted, ?_, ?_, ?_⟩
    · exact (congrArg (List.count unit) emitted).trans once
    · simp [none]
    · simp [none]
  · obtain ⟨⟨delimiter, one⟩, separates, emitted⟩ := receipt
    have once := arrival.count_unit isWord (blocks removed) separates true
    refine ⟨removed, pushed, kept, separates, true, before_eq, frames_eq, emitted, ?_, ?_, ?_⟩
    · exact (congrArg (List.count unit) emitted).trans once
    · simp [one]
    · simp [one]

/-- `of` behind a `do` block that stands right of it: the block is paid for, the `case` goes with
it, and a block of branches comes. -/
theorem Stack.feed_exchanges_of_branches :
    let stack : Stack := ⟨[⟨⟨0, 9, 9⟩, .doBlock⟩, ⟨⟨0, 0, 0⟩, .caseHead⟩], false⟩
    let unit := Qualified.plain (.bare ⟨.kwOf, ⟨1, 2, 12⟩, ⟨1, 4, 14⟩⟩)
    let fed := stack.feed .default unit ⟨1, 5, 15⟩ none
    (∀ kind ∈ unit.coreKind?, kind.isLayout = false) ∧
      fed.2 = [.point .layoutEnd ⟨1, 2, 12⟩, unit, .point .layoutStart ⟨1, 5, 15⟩] ∧
      fed.2.count unit = 1 := by
  intro stack unit fed
  have isWord : ∀ kind ∈ unit.coreKind?, kind.isLayout = false := by decide
  obtain ⟨_, _, _, _, _, -, -, -, once, -⟩ :=
    stack.feed_exchanges .default unit ⟨1, 5, 15⟩ none isWord
  exact ⟨isWord, by decide, once⟩

end Offside.Layout
