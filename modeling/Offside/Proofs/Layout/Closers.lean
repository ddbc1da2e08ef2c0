import Offside.Proofs.Layout.Balance
import Offside.Proofs.Layout.Emission

/-! # What a closing token closes

Six delimiters and the explicit block end at a token of their own. Between the delimiter and that
token any number of blocks may have been opened; the token ends every one of them, in front of
itself, and takes the delimiter off the stack.

The columns of the blocks do not matter for six of the seven closers. Only `of` closes by the
offside rule, so a block that does not stand strictly right of it stays open, and with it the `case`
that the `of` belongs to.
-/

namespace Offside.Layout

open Source Token

/-- The kind of token that ends what the delimiter opened. -/
def Delimiter.closer? : Delimiter → Option Kind
  | .paren => some .rightParen
  | .square => some .rightBracket
  | .caseHead => some .kwOf
  | .ifHead => some .kwThen
  | .thenBranch => some .kwElse
  | .tick => some .backtick
  | .explicitBlock => some .rightBrace
  | _ => none

/-- What a closer opens behind itself: frames, from the bottom up, and layout tokens. Only `then`
and `of` open anything. -/
inductive Arrival.Opens (arrival : Arrival) : Kind → List Frame → List Qualified → Prop
  | nothing {kind : Kind} (isThen : kind ≠ .kwThen) (isOf : kind ≠ .kwOf) :
    arrival.Opens kind [] []
  | branch : arrival.Opens .kwThen [⟨arrival.position, .thenBranch⟩] []
  /-- What follows `of` is a block of branches, and the first of them starts with binders. -/
  | branches (isBlock hasBinders : Bool) :
    arrival.Opens .kwOf
      ((if isBlock then [⟨arrival.next, .ofBlock⟩] else []) ++
        if hasBinders then [⟨arrival.next, .caseBinders⟩] else [])
      (arrival.behind isBlock)

namespace Arrival

variable {arrival : Arrival} {progress : Progress} {blocks under : List Frame} {opener : Frame}
  {closing : Closing}

/-! ## How far a closing reaches -/

variable (arrival closing) in
theorem reach_blocks (shape : progress.stack.inner = blocks ++ opener :: under)
    (closesAll : ∀ block ∈ blocks, closing.closes arrival.position.column block = true)
    (keeps : closing.closes arrival.position.column opener = false) :
    arrival.reach progress closing = blocks.length := by
  rw [reach, shape, List.takeWhile_append_of_pos closesAll,
    List.takeWhile_cons_of_neg (by simp [keeps]), List.append_nil]

theorem frameBelow_blocks (shape : progress.stack.inner = blocks ++ opener :: under) :
    progress.frameBelow blocks.length = opener := by
  rw [Progress.frameBelow, shape, List.drop_left, List.headD_cons]

/-- Closing the blocks and their opener owes one end token for each block. -/
theorem close_blocks (shape : progress.stack.inner = blocks ++ opener :: under)
    (areBlocks : ∀ block ∈ blocks, block.isIndented = true)
    (isMask : opener.isIndented = false) :
    arrival.close progress (blocks.length + 1) =
      { stack := { progress.stack with inner := under }
        emitted := progress.emitted ++
          List.replicate blocks.length (.point .layoutEnd arrival.position) } := by
  have taken : (blocks ++ opener :: under).take (blocks.length + 1) = blocks ++ [opener] := by
    rw [List.take_length_add_append, List.take_succ_cons, List.take_zero]
  have left : (blocks ++ opener :: under).drop (blocks.length + 1) = under := by
    rw [List.drop_length_add_append, List.drop_succ_cons, List.drop_zero]
  have ends : (blocks ++ [opener]).filter Frame.isIndented = blocks := by
    rw [List.filter_append, List.filter_eq_self.mpr areBlocks,
      List.filter_cons_of_neg (by simp [isMask]), List.filter_nil, List.append_nil]
  simp only [close, shape, taken, left, ends, List.map_const']

variable (arrival) in
/-- A bracket pops its opener behind the blocks, which comes to the same. -/
theorem popIf_collapse_blocks (shape : progress.stack.inner = blocks ++ opener :: under)
    (areBlocks : ∀ block ∈ blocks, block.isIndented = true)
    (isMask : opener.isIndented = false) {delimiters : List Delimiter}
    (listed : delimiters.contains opener.delimiter = true) :
    (arrival.collapse progress .indented).popIf delimiters =
      arrival.close progress (blocks.length + 1) := by
  have reached := arrival.reach_blocks .indented shape areBlocks isMask
  have left : (arrival.collapse progress .indented).stack.inner = opener :: under := by
    rw [collapse, reached, close, shape, List.drop_left]
  have ends :
      ((blocks ++ opener :: under).take blocks.length).filter Frame.isIndented = blocks := by
    rw [List.take_left, List.filter_eq_self.mpr areBlocks]
  rw [Progress.popIf, Progress.topDelimiter, Progress.top, Stack.top, left, List.headD_cons,
    if_pos listed, Progress.pop, left, close_blocks shape areBlocks isMask, collapse, reached,
    close, shape, ends, List.map_const', List.tail_cons]

/-- A block is opened behind a layout keyword or it is not. -/
theorem startBlock_opens (arrival : Arrival) (progress : Progress) (delimiter : Delimiter) :
    ∃ isBlock : Bool, (arrival.startBlock progress delimiter).stack.inner =
        (if isBlock then [⟨arrival.next, delimiter⟩] else []) ++ progress.stack.inner ∧
      (arrival.startBlock progress delimiter).emitted =
        progress.emitted ++ arrival.behind isBlock := by
  simp only [startBlock]
  split
  · exact ⟨false, rfl, (List.append_nil _).symm⟩
  · split
    · split
      · exact ⟨true, rfl, rfl⟩
      · exact ⟨false, rfl, (List.append_nil _).symm⟩
    · exact ⟨true, rfl, rfl⟩

/-! ## The closers -/

/-- What is left and what is emitted once a closer of some kind has closed a number of blocks and
their opener. -/
def Ends (arrival : Arrival) (before : Progress) (blocks : Nat) (under : List Frame) (kind : Kind)
    (after : Progress) : Prop :=
  ∃ opened behind, arrival.Opens kind opened behind ∧
    after.stack.inner = opened.reverse ++ under ∧
    after.emitted = before.emitted ++
      List.replicate blocks (.point .layoutEnd arrival.position) ++ arrival.unit :: behind

section

variable (shape : progress.stack.inner = blocks ++ opener :: under)
  (areBlocks : ∀ block ∈ blocks, block.isIndented = true)
include shape areBlocks

/-- Most closers emit the token behind the blocks and do nothing else. -/
theorem ends_emitToken (isMask : opener.isIndented = false) {kind : Kind} (isThen : kind ≠ .kwThen)
    (isOf : kind ≠ .kwOf) :
    arrival.Ends progress blocks.length under kind
      (arrival.emitToken (arrival.close progress (blocks.length + 1))) := by
  refine ⟨[], [], .nothing isThen isOf, ?_, ?_⟩
  · rw [close_blocks shape areBlocks isMask]
    rfl
  · rw [close_blocks shape areBlocks isMask]
    rfl

theorem ends_insertClosing {mask : Delimiter} {kind : Kind} (isMask : mask.isIndented = false)
    (isOpener : opener.delimiter = mask) (isThen : kind ≠ .kwThen) (isOf : kind ≠ .kwOf) :
    arrival.Ends progress blocks.length under kind (arrival.insertClosing progress mask) := by
  subst isOpener
  rw [insertClosing, arrival.popIf_collapse_blocks shape areBlocks isMask (by simp)]
  exact ends_emitToken shape areBlocks isMask isThen isOf

theorem ends_insertRightBrace (isOpener : opener.delimiter = .explicitBlock) :
    arrival.Ends progress blocks.length under .rightBrace (arrival.insertRightBrace progress) := by
  have isMask : opener.isIndented = false := congrArg Delimiter.isIndented isOpener
  have popped := arrival.popIf_collapse_blocks shape areBlocks isMask
    (show [Delimiter.explicitBlock].contains opener.delimiter = true by simp [isOpener])
  have reached := arrival.reach_blocks .indented shape areBlocks isMask
  have top : (arrival.collapse progress .indented).topDelimiter = .explicitBlock := by
    rw [collapse, reached, close, shape, List.drop_left]
    exact isOpener
  have isPop : (arrival.collapse progress .indented).pop =
      arrival.close progress (blocks.length + 1) := by
    rw [← popped, Progress.popIf, if_pos (by simp [top])]
  simp only [insertRightBrace, top, beq_self_eq_true, if_true, isPop]
  exact ends_emitToken shape areBlocks isMask (by decide) (by decide)

theorem ends_insertElse (isOpener : opener.delimiter = .thenBranch) :
    arrival.Ends progress blocks.length under .kwElse (arrival.insertElse progress) := by
  have isMask : opener.isIndented = false := congrArg Delimiter.isIndented isOpener
  have reached := arrival.reach_blocks .indented shape areBlocks isMask
  simp only [insertElse, reached, frameBelow_blocks shape, isOpener, beq_self_eq_true, if_true]
  exact ends_emitToken shape areBlocks isMask (by decide) (by decide)

theorem ends_insertTick (isOpener : opener.delimiter = .tick) :
    arrival.Ends progress blocks.length under .backtick (arrival.insertTick progress) := by
  have isMask : opener.isIndented = false := congrArg Delimiter.isIndented isOpener
  have reached := arrival.reach_blocks .indented shape areBlocks isMask
  simp only [insertTick, reached, frameBelow_blocks shape, isOpener, beq_self_eq_true, if_true]
  exact ends_emitToken shape areBlocks isMask (by decide) (by decide)

theorem ends_insertThen (isOpener : opener.delimiter = .ifHead) :
    arrival.Ends progress blocks.length under .kwThen (arrival.insertThen progress) := by
  have isMask : opener.isIndented = false := congrArg Delimiter.isIndented isOpener
  have reached := arrival.reach_blocks .indented shape areBlocks isMask
  simp only [insertThen, reached, frameBelow_blocks shape, isOpener, beq_self_eq_true, if_true]
  refine ⟨_, _, .branch, ?_, ?_⟩
  · rw [close_blocks shape areBlocks isMask]
    rfl
  · rw [close_blocks shape areBlocks isMask]
    rfl

/-- Only the blocks strictly right of an `of` are closed by it. -/
theorem ends_insertOf (isOpener : opener.delimiter = .caseHead)
    (rightOf : ∀ block ∈ blocks, arrival.position.column < block.position.column) :
    arrival.Ends progress blocks.length under .kwOf (arrival.insertOf progress) := by
  have isMask : opener.isIndented = false := congrArg Delimiter.isIndented isOpener
  have closesAll : ∀ block ∈ blocks,
      Closing.offside.closes arrival.position.column block = true := fun block member => by
    simp [Closing.closes, areBlocks block member, rightOf block member]
  have keeps : Closing.offside.closes arrival.position.column opener = false := by
    simp [Closing.closes, isMask]
  have reached := arrival.reach_blocks .offside shape closesAll keeps
  simp only [insertOf, reached, frameBelow_blocks shape, isOpener, beq_self_eq_true, if_true]
  rw [close_blocks shape areBlocks isMask]
  generalize passed : arrival.emitToken _ = after
  obtain ⟨isBlock, inner, emitted⟩ := arrival.startBlock_opens after .ofBlock
  have binders : ∃ hasBinders : Bool, (if (arrival.startBlock after .ofBlock).stack.pendingBlock
      then arrival.startBlock after .ofBlock
      else (arrival.startBlock after .ofBlock).push arrival.next .caseBinders) =
        { stack := { (arrival.startBlock after .ofBlock).stack with
            inner := (if hasBinders then [⟨arrival.next, .caseBinders⟩] else []) ++
              (arrival.startBlock after .ofBlock).stack.inner }
          emitted := (arrival.startBlock after .ofBlock).emitted } := by
    split
    · exact ⟨false, rfl⟩
    · exact ⟨true, rfl⟩
  obtain ⟨hasBinders, same⟩ := binders
  rw [same]
  refine ⟨_, _, .branches isBlock hasBinders, ?_, ?_⟩
  · subst passed
    dsimp only
    rw [inner]
    cases isBlock <;> cases hasBinders <;> rfl
  · subst passed
    dsimp only
    rw [emitted]
    simp [emitToken, Progress.emit]

end

variable (arrival) in
/-- Every closer ends its blocks, `of` under the condition that they stand right of it. -/
theorem ends_insertKind {kind : Kind} (shape : progress.stack.inner = blocks ++ opener :: under)
    (areBlocks : ∀ block ∈ blocks, block.isIndented = true)
    (ends : opener.delimiter.closer? = some kind)
    (rightOf : kind = .kwOf →
      ∀ block ∈ blocks, arrival.position.column < block.position.column) :
    arrival.Ends progress blocks.length under kind (arrival.insertKind progress kind) := by
  cases isOpener : opener.delimiter <;> rw [isOpener] at ends <;> cases ends
  case paren => exact ends_insertClosing shape areBlocks rfl isOpener (by decide) (by decide)
  case square => exact ends_insertClosing shape areBlocks rfl isOpener (by decide) (by decide)
  case caseHead => exact ends_insertOf shape areBlocks isOpener (rightOf rfl)
  case ifHead => exact ends_insertThen shape areBlocks isOpener
  case thenBranch => exact ends_insertElse shape areBlocks isOpener
  case tick => exact ends_insertTick shape areBlocks isOpener
  case explicitBlock => exact ends_insertRightBrace shape areBlocks isOpener

end Arrival

/-- A token that ends what a frame opened also ends every block opened since: one end token for each
of them is emitted in front of it, they are taken off the stack together with the frame, and what
lies below stays as it is. For `of` the blocks must stand strictly right of the token. -/
theorem Stack.feed_closer (stack : Stack) (config : Config) (unit : Qualified) (next : Position)
    (nextKind? : Option Kind) {below blocks : List Frame} {opener : Frame} {kind : Kind}
    (shape : stack.frames = below ++ opener :: blocks)
    (areBlocks : ∀ block ∈ blocks, block.isIndented = true)
    (ends : opener.delimiter.closer? = some kind) (isCloser : unit.coreKind? = some kind)
    (unqualified : unit.isQualified = false)
    (rightOf : kind = .kwOf → ∀ block ∈ blocks, unit.start.column < block.position.column) :
    ∃ opened behind, Arrival.Opens ⟨config, unit, next, nextKind?⟩ kind opened behind ∧
      (stack.feed config unit next nextKind?).1.frames = below ++ opened ∧
      (stack.feed config unit next nextKind?).2 =
        List.replicate blocks.length (.point .layoutEnd unit.start) ++ unit :: behind := by
  let arrival : Arrival := ⟨config, unit, next, nextKind?⟩
  -- The opener is not the root, so it lies above the stored part of the stack.
  obtain ⟨under, rfl, inner⟩ : ∃ under, below = rootFrame :: under ∧
      stack.inner = blocks.reverse ++ opener :: under.reverse := by
    cases below with
    | nil =>
      obtain ⟨rfl, -⟩ := List.cons.inj shape
      cases ends
    | cons root under =>
      obtain ⟨rfl, _⟩ := List.cons.inj shape
      have inner : stack.inner.reverse = under ++ opener :: blocks := (List.cons.inj shape).2
      refine ⟨under, rfl, ?_⟩
      rw [← stack.inner.reverse_reverse, inner, List.reverse_append, List.reverse_cons,
        List.append_assoc, List.singleton_append]
  have inserted : arrival.insert ⟨stack, []⟩ = arrival.insertKind ⟨stack, []⟩ kind := by
    simp [Arrival.insert, arrival, isCloser, unqualified]
  obtain ⟨opened, behind, opens, left, emitted⟩ :=
    arrival.ends_insertKind (show (Progress.mk stack []).stack.inner = _ from inner)
      (fun block member => areBlocks block (List.mem_reverse.mp member)) ends
      (fun isOf block member => rightOf isOf block (List.mem_reverse.mp member))
  refine ⟨opened, behind, opens, ?_, ?_⟩
  · rw [feed, inserted, frames, left, List.reverse_append, List.reverse_reverse,
      List.reverse_reverse, List.cons_append]
  · rw [feed, inserted, emitted, List.length_reverse]
    rfl

/-- Two blocks in parentheses, the inner one left of where the closing parenthesis stands and the
outer one to its right. -/
theorem Stack.feed_closer_of_paren :
    let paren : Frame := ⟨⟨0, 4, 4⟩, .paren⟩
    let blocks : List Frame := [⟨⟨0, 9, 9⟩, .doBlock⟩, ⟨⟨1, 2, 14⟩, .ofBlock⟩]
    let stack : Stack := ⟨blocks.reverse ++ [paren], false⟩
    let unit := Qualified.point .rightParen ⟨2, 5, 21⟩
    stack.frames = [rootFrame] ++ paren :: blocks ∧
      (∀ block ∈ blocks, block.isIndented = true) ∧
      (stack.feed .default unit ⟨2, 6, 22⟩ none).1.frames = [rootFrame] ∧
      (stack.feed .default unit ⟨2, 6, 22⟩ none).2 =
        List.replicate 2 (.point .layoutEnd ⟨2, 5, 21⟩) ++ [unit] := by
  intro paren blocks stack unit
  obtain ⟨opened, behind, opens, frames, emitted⟩ :=
    stack.feed_closer .default unit ⟨2, 6, 22⟩ none
      (show stack.frames = [rootFrame] ++ paren :: blocks from rfl) (by decide)
      (show paren.delimiter.closer? = some .rightParen from rfl) rfl rfl (by decide)
  cases opens
  exact ⟨rfl, by decide, frames, emitted⟩

/-- In `case do a of` the block that `do` opens stands left of the `of`. It is not closed, so the
`of` does not find the `case` that it belongs to: it emits nothing but itself and the stack stays as
it is. -/
theorem Stack.feed_of_right_of_block :
    let spaced (kind : Kind) (start stop : Nat) : Qualified :=
      .plain ⟨⟨kind, ⟨0, start, start⟩, ⟨0, stop, stop⟩⟩,
        [⟨.whitespace, ⟨0, stop, stop⟩, ⟨0, stop + 1, stop + 1⟩⟩]⟩
    let before : List Feeding := [⟨spaced .kwCase 0 4, ⟨0, 5, 5⟩, some .kwDo⟩,
      ⟨spaced .kwDo 5 7, ⟨0, 8, 8⟩, some .lowerName⟩,
      ⟨spaced .lowerName 8 9, ⟨0, 10, 10⟩, some .kwOf⟩]
    let stack := (Stack.empty.feedAll .default before).1
    let block : Frame := ⟨⟨0, 8, 8⟩, .doBlock⟩
    let unit := Qualified.plain (.bare ⟨.kwOf, ⟨0, 10, 10⟩, ⟨0, 12, 12⟩⟩)
    (before.map Feeding.unit ++ [unit]).flatMap Qualified.tokens =
        (lex .default "case do a of").filter (!·.kind.isLayout) ∧
      stack.frames = [rootFrame] ++ ⟨⟨0, 0, 0⟩, .caseHead⟩ :: [block] ∧
      block.isIndented = true ∧ Delimiter.caseHead.closer? = unit.coreKind? ∧
      unit.isQualified = false ∧
      stack.feed .default unit ⟨0, 12, 12⟩ none = (stack, [unit]) := by
  decide +kernel

end Offside.Layout
