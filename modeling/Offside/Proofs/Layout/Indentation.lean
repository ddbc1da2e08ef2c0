import Offside.Proofs.Layout.Balance
import Offside.Proofs.Token.Tiling

/-! # Indentation

A block starts right of the blocks around it, and a separator stands at the column of the innermost
block, below its start. For blocks this is what opening one checks. A separator compares the token
with the innermost frame, which may be the mask of a declaration instead of a block. Such a mask is
only ever put on a single block, at its column and not above it, and while it is there nothing can
happen to the block under it.

Tokens never go back to an earlier line, so a token on another line than a frame is below it.
-/

namespace Offside.Layout

open Source Token

/-! ## Frames -/

/-- Blocks further in stand further right. -/
def Ordered (frames : List Frame) : Prop :=
  (frames.filter Frame.isIndented).Pairwise fun inner outer =>
    outer.position.column < inner.position.column

theorem ordered_cons_mask {frame : Frame} (isMask : frame.isIndented = false)
    {frames : List Frame} : Ordered (frame :: frames) ↔ Ordered frames := by
  unfold Ordered
  rw [List.filter_cons_of_neg (by simp [isMask])]

theorem ordered_cons_block {frame : Frame} (isBlock : frame.isIndented = true)
    {frames : List Frame} :
    Ordered (frame :: frames) ↔
      (∀ block ∈ frames.filter Frame.isIndented,
        block.position.column < frame.position.column) ∧ Ordered frames := by
  unfold Ordered
  rw [List.filter_cons_of_pos isBlock, List.pairwise_cons]

/-- What stands right of the innermost block stands right of all blocks. -/
theorem Ordered.column_lt {frames : List Frame} (ordered : Ordered frames) {column : Nat}
    (indents : ∀ frame, frames.find? Frame.isIndented = some frame →
      frame.position.column < column) :
    ∀ block ∈ frames.filter Frame.isIndented, block.position.column < column := by
  unfold Ordered at ordered
  rw [← List.head?_filter] at indents
  cases blocks : frames.filter Frame.isIndented with
  | nil => simp
  | cons innermost others =>
    rw [blocks] at indents ordered
    have first := indents innermost rfl
    have further := (List.pairwise_cons.mp ordered).1
    exact List.forall_mem_cons.mpr
      ⟨first, fun block member => Nat.lt_trans (further block member) first⟩

/-- How a frame sits on the frames outside of it once a line is reached. -/
structure Frame.Sits (line : Nat) (frame : Frame) (outer : List Frame) : Prop where
  block : frame.isIndented = true → frame.position.line ≤ line
  /-- A declaration is masked at the column of the only block, and not above it. -/
  declaration : frame.delimiter.masksDeclaration = true → frame.position.line ≤ line ∧
    ∃ block, outer = [block] ∧ block.isIndented = true ∧
      block.position.column = frame.position.column ∧ block.position.line ≤ frame.position.line

/-- How frames sit on each other once a line is reached. -/
def Settled (line : Nat) : List Frame → Prop
  | [] => True
  | frame :: outer => frame.Sits line outer ∧ Settled line outer

theorem Settled.later {line later : Nat} (onward : line ≤ later) {frames : List Frame}
    (settled : Settled line frames) : Settled later frames := by
  induction frames with
  | nil => trivial
  | cons frame outer ih =>
    obtain ⟨sits, settled⟩ := settled
    refine ⟨⟨fun isBlock => ?_, fun masks => ?_⟩, ih settled⟩
    · exact Nat.le_trans (sits.block isBlock) onward
    · obtain ⟨above, onBlock⟩ := sits.declaration masks
      exact ⟨Nat.le_trans above onward, onBlock⟩

/-- Where the blocks among frames start, the innermost first. -/
def starts (frames : List Frame) : List Position :=
  (frames.filter Frame.isIndented).map Frame.position

theorem starts_cons_block {frame : Frame} (isBlock : frame.isIndented = true)
    (frames : List Frame) : starts (frame :: frames) = frame.position :: starts frames := by
  unfold starts
  rw [List.filter_cons_of_pos isBlock, List.map_cons]

theorem starts_cons_mask {frame : Frame} (isMask : frame.isIndented = false)
    (frames : List Frame) : starts (frame :: frames) = starts frames := by
  unfold starts
  rw [List.filter_cons_of_neg (by simp [isMask])]

/-- Below a frame that holds items, at its column, is below its block, at the column of that. -/
theorem Settled.starts_eq {position : Position} {frame : Frame} {frames : List Frame}
    (settled : Settled position.line (frame :: frames))
    (holdsItems : frame.isIndented = true ∨ frame.delimiter.masksDeclaration = true)
    (aligned : position.column = frame.position.column)
    (newLine : position.line ≠ frame.position.line) :
    ∃ start outer, starts (frame :: frames) = start :: outer ∧
      position.column = start.column ∧ start.line < position.line := by
  obtain ⟨sits, -⟩ := settled
  rcases holdsItems with isBlock | masks
  · have above := sits.block isBlock
    exact ⟨_, _, starts_cons_block isBlock frames, aligned, by omega⟩
  · obtain ⟨above, block, rfl, isBlock, sameColumn, blockAbove⟩ := sits.declaration masks
    have onBlock : starts [frame, block] = [block.position] := by
      rw [starts_cons_mask (Delimiter.isIndented_of_masksDeclaration masks),
        starts_cons_block isBlock]
      rfl
    exact ⟨_, _, onBlock, aligned.trans sameColumn.symm, by omega⟩

section

variable {arrival : Arrival} {before frames : List Frame} {phase : Phase}
  {emitted : List Qualified}

/-- No token puts a block on the stack that does not stand right of the others. -/
theorem Moved.ordered (moved : Moved arrival before phase frames emitted)
    (ordered : Ordered before) : Ordered frames := by
  induction moved with
  | idle => exact ordered
  | close isBlock _ ih => exact ((ordered_cons_block isBlock).mp ih).2
  | unmask isMask _ _ ih => exact (ordered_cons_mask isMask).mp ih
  | mask _ isMask _ ih =>
    exact (ordered_cons_mask (Delimiter.isIndented_of_isMask isMask)).mpr ih
  | declare masks _ _ _ ih =>
    exact (ordered_cons_mask (Delimiter.isIndented_of_masksDeclaration masks)).mpr ih
  | separate _ _ _ _ ih | pass _ _ ih => exact ih
  | @enter _ _ delimiter isBlock indents _ ih =>
    have frameIsBlock : Frame.isIndented ⟨arrival.next, delimiter⟩ = true := isBlock
    exact (ordered_cons_block frameIsBlock).mpr ⟨ih.column_lt indents, ih⟩

/-- The line that is reached in a phase. -/
def Arrival.lineAt (arrival : Arrival) : Phase → Nat
  | .opened => arrival.next.line
  | _ => arrival.position.line

/-- A token keeps what is known of how frames sit on each other. -/
theorem Moved.settled (moved : Moved arrival before phase frames emitted)
    (onward : arrival.position.line ≤ arrival.next.line)
    (settled : Settled arrival.position.line before) : Settled (arrival.lineAt phase) frames := by
  induction moved with
  | idle => exact settled
  | close _ _ ih | unmask _ _ _ ih => exact ih.2
  | mask position isMask _ ih =>
    refine ⟨⟨fun isBlock => ?_, fun masks => ?_⟩, ih⟩
    · cases (Delimiter.isIndented_of_isMask isMask).symm.trans isBlock
    · cases (Delimiter.masksDeclaration_of_isMask isMask).symm.trans masks
  | separate _ _ _ _ ih => exact ih
  | pass due _ ih =>
    rcases due with rfl | rfl
    · exact ih
    · exact ih
  | @declare block _ _ masks isBlock aligned _ ih =>
    have blockAbove : block.position.line ≤ arrival.position.line := ih.1.block isBlock
    refine ⟨⟨fun isBlock => ?_, fun _ => ?_⟩, ih⟩
    · cases (Delimiter.isIndented_of_masksDeclaration masks).symm.trans isBlock
    · exact ⟨Nat.le_refl _, block, rfl, isBlock, aligned, blockAbove⟩
  | @enter _ _ delimiter isBlock _ _ ih =>
    have outer : Settled arrival.next.line _ := ih.later onward
    refine ⟨⟨fun _ => Nat.le_refl _, fun masks => ?_⟩, outer⟩
    cases (Delimiter.isIndented_of_masksDeclaration masks).symm.trans isBlock

end

/-! ## Tokens -/

/-- Where the blocks start that are open behind a token, given those open in front of it. -/
def openBehind (opens : List Position) (token : Placed) : List Position :=
  match token.role with
  | .opens => token.start :: opens
  | .closes => opens.tail
  | .inside => opens

/-- Where the blocks start that are open behind some tokens, the innermost first. -/
def openStarts (tokens : List Placed) : List Position := tokens.foldl openBehind []

/-- How a token may stand inside of the blocks that are open. -/
structure WellPlaced (opens : List Position) (token : Placed) : Prop where
  /-- A block starts right of all blocks it is in. -/
  start : token.kind = .layoutStart → ∀ start ∈ opens, start.column < token.start.column
  /-- A separator is in some block, at its column and below its start. -/
  separator : token.kind = .layoutSep → ∃ start outer, opens = start :: outer ∧
    token.start.column = start.column ∧ start.line < token.start.line

/-- Well placed tokens lead from some open blocks to others. -/
def Leads (opens : List Position) : List Placed → List Position → Prop
  | [], reached => opens = reached
  | token :: rest, reached => WellPlaced opens token ∧ Leads (openBehind opens token) rest reached

theorem leads_append {opens reached : List Position} {tokens more : List Placed} :
    Leads opens (tokens ++ more) reached ↔
      ∃ middle, Leads opens tokens middle ∧ Leads middle more reached := by
  induction tokens generalizing opens with
  | nil => simp [Leads]
  | cons token rest ih => simp only [List.cons_append, Leads, ih, and_assoc, exists_and_left]

theorem Leads.eq_foldl {opens reached : List Position} {tokens : List Placed}
    (leads : Leads opens tokens reached) : tokens.foldl openBehind opens = reached := by
  induction tokens generalizing opens with
  | nil => exact leads
  | cons token rest ih => exact ih leads.2

/-- Each token on the way is well placed. -/
theorem Leads.wellPlaced {opens reached : List Position} {tokens before after : List Placed}
    {token : Placed} (leads : Leads opens tokens reached)
    (split : tokens = before ++ token :: after) :
    WellPlaced (before.foldl openBehind opens) token := by
  subst split
  obtain ⟨middle, front, placed, -⟩ := leads_append.mp leads
  rw [front.eq_foldl]
  exact placed

theorem leads_plain {tokens : List Placed}
    (plain : ∀ token ∈ tokens, token.kind.isLayout = false) (opens : List Position) :
    Leads opens tokens opens := by
  induction tokens with
  | nil => rfl
  | cons token rest ih =>
    obtain ⟨first, others⟩ := List.forall_mem_cons.mp plain
    refine ⟨⟨fun same => ?_, fun same => ?_⟩, ?_⟩
    · rw [same] at first
      cases first
    · rw [same] at first
      cases first
    · rw [openBehind, role_of_plain first]
      exact ih others

theorem leads_end (start : Position) (opens : List Position) (position : Position) :
    Leads (start :: opens) [.point .layoutEnd position] opens := by
  refine ⟨⟨fun same => ?_, fun same => ?_⟩, rfl⟩
  · cases same
  · cases same

theorem leads_separator {position : Position} {opens : List Position}
    (under : ∃ start outer, opens = start :: outer ∧
      position.column = start.column ∧ start.line < position.line) :
    Leads opens [.point .layoutSep position] opens := by
  refine ⟨⟨fun same => ?_, fun _ => under⟩, rfl⟩
  cases same

theorem leads_start {position : Position} {opens : List Position}
    (indents : ∀ start ∈ opens, start.column < position.column) :
    Leads opens [.point .layoutStart position] (position :: opens) := by
  refine ⟨⟨fun _ => indents, fun same => ?_⟩, rfl⟩
  cases same

/-- What is emitted for a token is well placed and leads from the blocks on the stack before it to
those on the stack behind it. -/
theorem Moved.leads {arrival : Arrival} {before frames : List Frame} {phase : Phase}
    {emitted : List Qualified} (moved : Moved arrival before phase frames emitted)
    (plain : arrival.unit.IsPlain) (onward : arrival.position.line ≤ arrival.next.line)
    (ordered : Ordered before) (settled : Settled arrival.position.line before) :
    Leads (starts before) (emitted.flatMap Qualified.tokens) (starts frames) := by
  induction moved with
  | idle => rfl
  | close isBlock _ ih =>
    rw [starts_cons_block isBlock] at ih
    rw [List.flatMap_append]
    exact leads_append.mpr ⟨_, ih, leads_end _ _ _⟩
  | unmask isMask _ _ ih => rwa [starts_cons_mask isMask] at ih
  | mask position isMask _ ih =>
    have frameIsMask : Frame.isIndented ⟨position, _⟩ = false :=
      Delimiter.isIndented_of_isMask isMask
    rwa [starts_cons_mask frameIsMask]
  | declare masks _ _ _ ih =>
    have frameIsMask : Frame.isIndented ⟨arrival.position, _⟩ = false :=
      Delimiter.isIndented_of_masksDeclaration masks
    rwa [starts_cons_mask frameIsMask]
  | separate holdsItems aligned newLine moved ih =>
    have under := (moved.settled onward settled).starts_eq holdsItems aligned newLine
    rw [List.flatMap_append]
    exact leads_append.mpr ⟨_, ih, leads_separator under⟩
  | pass _ _ ih =>
    rw [List.flatMap_append, List.flatMap_singleton]
    exact leads_append.mpr ⟨_, ih, leads_plain plain _⟩
  | @enter frames _ delimiter isBlock indents moved ih =>
    have frameIsBlock : Frame.isIndented ⟨arrival.next, delimiter⟩ = true := isBlock
    have blocks := (moved.ordered ordered).column_lt indents
    have rightOf : ∀ start ∈ starts frames, start.column < arrival.next.column := by
      intro start member
      obtain ⟨block, inside, rfl⟩ := List.mem_map.mp member
      exact blocks block inside
    rw [List.flatMap_append, starts_cons_block frameIsBlock]
    exact leads_append.mpr ⟨_, ih, leads_start rightOf⟩

/-! ## Whole lists of tokens -/

/-- On every stack that tokens lead to, blocks further in stand further right. -/
theorem ordered_feedAll (config : Config) (feedings : List Feeding) {stack : Stack}
    (ordered : Ordered stack.inner) : Ordered (stack.feedAll config feedings).1.inner := by
  induction feedings generalizing stack with
  | nil => exact ordered
  | cons feeding rest ih =>
    obtain ⟨phase, -, moved⟩ :=
      stack.feed_moved config feeding.unit feeding.next feeding.nextKind?
    exact ih (moved.ordered ordered)

theorem leads_unwind (stack : Stack) (stop : Position) :
    Leads (starts stack.inner) ((stack.unwind stop).flatMap Qualified.tokens) [] := by
  unfold starts Stack.unwind
  induction stack.inner.filter Frame.isIndented with
  | nil => rfl
  | cons block outer ih =>
    have ending := leads_end block.position (outer.map Frame.position) stop
    exact leads_append.mpr ⟨_, ending, ih⟩

/-- The layout of plain tokens end to end is well placed and leaves no block open. -/
theorem leads_applyFrom (config : Config) {units : List Qualified}
    (plain : ∀ unit ∈ units, unit.IsPlain) (some : ∀ unit ∈ units, unit.lexemes ≠ [])
    {start last : Position} (tiles : Tiles start (units.flatMap Qualified.tokens) last)
    (onward : ∀ token ∈ units.flatMap Qualified.tokens, token.start.line ≤ token.stop.line)
    {stack : Stack} (ordered : Ordered stack.inner) (settled : Settled start.line stack.inner)
    (stop : Position) :
    Leads (starts stack.inner)
      ((applyFrom config stack stop units).flatMap Qualified.tokens) [] := by
  induction units generalizing stack start stop with
  | nil => exact leads_unwind stack stop
  | cons unit rest ih =>
    obtain ⟨firstPlain, restPlain⟩ := List.forall_mem_cons.mp plain
    obtain ⟨first, others⟩ := List.forall_mem_cons.mp some
    obtain ⟨middle, own, tiles⟩ := tiles_append.mp tiles
    rw [List.flatMap_cons] at onward
    obtain ⟨onwardOwn, onwardRest⟩ := List.forall_mem_append.mp onward
    obtain rfl := Qualified.start_of_tiles first own
    obtain rfl := Qualified.stop_of_tiles first own
    have lines : unit.start.line ≤ unit.stop.line := own.line_le onwardOwn
    obtain ⟨phase, done, moved⟩ :=
      stack.feed_moved config unit unit.stop (rest.head?.bind Qualified.firstKind?)
    have placed := moved.leads firstPlain lines ordered settled
    have settledBehind : Settled unit.stop.line
        (stack.feed config unit unit.stop (rest.head?.bind Qualified.firstKind?)).1.inner := by
      have reached := moved.settled lines settled
      rcases done with rfl | rfl
      · exact reached.later lines
      · exact reached
    rw [applyFrom, List.flatMap_append]
    exact leads_append.mpr ⟨_, placed, ih restPlain others tiles onwardRest
      (moved.ordered ordered) settledBehind unit.stop⟩

/-- So is every source made of plain tokens, whatever the ranges of these. -/
theorem leads_lexRaw (config : Config) (source : String) {raw : List Raw}
    (plain : ∀ token ∈ raw, token.kind.isLayout = false) :
    Leads [] (lexRaw config source raw) [] := by
  let leading := (groupTrivia (place source raw)).1
  let units := mergeQualifiers (groupTrivia (place source raw)).2
  have whole : leading ++ units.flatMap Qualified.tokens = place source raw :=
    units_tokens (place source raw)
  obtain ⟨leadingPlain, unitsPlain⟩ : (∀ token ∈ leading, token.kind.isLayout = false) ∧
      ∀ unit ∈ units, unit.IsPlain := plain_units source plain
  obtain ⟨last, tiles⟩ := tiles_placeFrom source .zero raw
  have onward := line_le_placeFrom source .zero raw
  rw [← place, ← whole] at tiles onward
  obtain ⟨middle, -, tiles⟩ := tiles_append.mp tiles
  obtain ⟨-, onward⟩ := List.forall_mem_append.mp onward
  have ordered : Ordered Stack.empty.inner := List.Pairwise.nil
  have settled : Settled middle.line Stack.empty.inner := trivial
  have placed := leads_applyFrom config unitsPlain (fun _ => lexemes_ne_nil) tiles onward ordered
    settled .zero
  exact leads_append.mpr ⟨[], leads_plain leadingPlain [], placed⟩

/-- Blocks are indented. On every stack that the layout rule reaches, blocks further in stand
further right; and in every source as it is lexed, a block starts right of the starts of all blocks
it is in, and a separator stands in some block, at the column where the innermost one starts and on
a later line. -/
theorem blocks_are_indented (config : Config) :
    (∀ feedings : List Feeding,
      (((Stack.empty.feedAll config feedings).1.frames.filter Frame.isIndented).map
        (·.position.column)).Pairwise (· < ·)) ∧
      ∀ (source : String) (before : List Placed) (token : Placed) (after : List Placed),
        lex config source = before ++ token :: after →
          (token.kind = .layoutStart →
            ∀ start ∈ openStarts before, start.column < token.start.column) ∧
          (token.kind = .layoutSep →
            ∃ start outer, openStarts before = start :: outer ∧
              token.start.column = start.column ∧ start.line < token.start.line) := by
  constructor
  · intro feedings
    have ordered : Ordered (Stack.empty.feedAll config feedings).1.inner :=
      ordered_feedAll config feedings List.Pairwise.nil
    rw [Stack.frames, List.filter_cons_of_neg (by decide), List.filter_reverse, List.map_reverse,
      List.pairwise_reverse, List.pairwise_map]
    exact ordered
  · intro source before token after split
    have leads : Leads [] (lex config source) [] :=
      leads_lexRaw config source fun _ => isLayout_of_mem_scan
    have placed : WellPlaced (openStarts before) token := leads.wellPlaced split
    exact ⟨placed.start, placed.separator⟩

/-- A block that starts in a block, and a separator in the inner one. -/
theorem blocks_are_indented_of_nested_do :
    let source := "do\n do\n  a\n  b"
    let outer : List Placed := [⟨.kwDo, ⟨0, 0, 0⟩, ⟨0, 2, 2⟩⟩, ⟨.whitespace, ⟨0, 2, 2⟩, ⟨1, 1, 4⟩⟩,
      .point .layoutStart ⟨1, 1, 4⟩, ⟨.kwDo, ⟨1, 1, 4⟩, ⟨1, 3, 6⟩⟩,
      ⟨.whitespace, ⟨1, 3, 6⟩, ⟨2, 2, 9⟩⟩]
    let inner : Placed := .point .layoutStart ⟨2, 2, 9⟩
    let item : List Placed := [⟨.lowerName, ⟨2, 2, 9⟩, ⟨2, 3, 10⟩⟩,
      ⟨.whitespace, ⟨2, 3, 10⟩, ⟨3, 2, 13⟩⟩]
    let separator : Placed := .point .layoutSep ⟨3, 2, 13⟩
    let rest : List Placed := [⟨.lowerName, ⟨3, 2, 13⟩, ⟨3, 3, 14⟩⟩,
      .point .layoutEnd ⟨3, 3, 14⟩, .point .layoutEnd ⟨3, 3, 14⟩]
    lex .default source = outer ++ inner :: (item ++ separator :: rest) ∧
      openStarts outer = [⟨1, 1, 4⟩] ∧
      (∀ start ∈ openStarts outer, start.column < inner.start.column) ∧
      ∃ start around, openStarts (outer ++ inner :: item) = start :: around ∧
        separator.start.column = start.column ∧ start.line < separator.start.line := by
  intro source outer inner item separator rest
  have lexed : lex .default source = outer ++ inner :: (item ++ separator :: rest) := by
    decide +kernel
  have later : lex .default source = (outer ++ inner :: item) ++ separator :: rest := by
    rw [lexed, List.append_assoc]
    rfl
  obtain ⟨-, placed⟩ := blocks_are_indented .default
  have indents := (placed source outer inner _ lexed).1 rfl
  have separates := (placed source _ separator rest later).2 rfl
  exact ⟨lexed, rfl, indents, separates⟩

end Offside.Layout
