import Mathlib.Data.List.Forall2
import Mathlib.Data.Nat.Basic
import Mathlib.Data.Set.Function
import Mathlib.Order.Monotone.Basic
import Offside.Layout.Apply

/-! # Layout depends on relative indentation

The layout rule asks two things of positions: which of two columns is further left, and whether two
lines are the same. Two token lists that agree on these are laid out alike. The rule is run on both
side by side, and every move keeps the two stacks alike: frame by frame they stand for the same,
anchored at like positions.

The root is the exception, since it stands at the start of the source in both runs, whatever was
moved. It is no block and holds no items, so where it stands is never asked.
-/

namespace Offside

open Source Token

/-! ## Moving tokens -/

/-- The position with line, column and offset each replaced by another. -/
def Source.Position.relocate (line column offset : Nat → Nat) (position : Position) : Position :=
  ⟨line position.line, column position.column, offset position.offset⟩

namespace Token

/-- The token between other positions. -/
def Placed.relocate (move : Position → Position) (token : Placed) : Placed :=
  ⟨token.kind, move token.start, move token.stop⟩

/-- The lexeme with all of its tokens moved. -/
def Lexeme.relocate (move : Position → Position) (lexeme : Lexeme) : Lexeme :=
  ⟨lexeme.token.relocate move, lexeme.trailing.map (Placed.relocate move)⟩

namespace Qualified

/-- The unit with all of its tokens moved. -/
def relocate (move : Position → Position) (unit : Qualified) : Qualified :=
  ⟨unit.qualifier.map (Lexeme.relocate move), unit.core.map (Lexeme.relocate move)⟩

variable (move : Position → Position) (unit : Qualified)

@[simp] theorem lexemes_relocate :
    (unit.relocate move).lexemes = unit.lexemes.map (Lexeme.relocate move) := by
  simp [relocate, lexemes, Option.toList_map]

@[simp] theorem isQualified_relocate : (unit.relocate move).isQualified = unit.isQualified := by
  simp [relocate, isQualified]

@[simp] theorem coreKind?_relocate : (unit.relocate move).coreKind? = unit.coreKind? := by
  simp only [coreKind?, relocate, Option.map_map]
  rfl

@[simp] theorem firstKind?_relocate : (unit.relocate move).firstKind? = unit.firstKind? := by
  simp only [firstKind?, lexemes_relocate, List.head?_map, Option.map_map]
  rfl

variable {unit} (some : unit.lexemes ≠ [])

include some

theorem start_relocate : (unit.relocate move).start = move unit.start := by
  obtain ⟨first, rest, split⟩ := List.exists_cons_of_ne_nil some
  simp only [start, lexemes_relocate, split, List.map_cons, List.head?_cons]
  rfl

theorem stop_relocate : (unit.relocate move).stop = move unit.stop := by
  have ends := List.getLast?_eq_some_getLast some
  simp only [stop, lexemes_relocate, List.getLast?_map, ends, Option.map_some]
  generalize unit.lexemes.getLast some = last
  simp only [Lexeme.stop, Lexeme.relocate, List.getLast?_map]
  cases last.trailing.getLast? <;> rfl

end Qualified

end Token

namespace Layout

/-! ## Positions that are compared alike -/

/-- A relation between the positions, and between the units, of two token lists that the layout
rule cannot tell apart. -/
structure Likeness where
  position : Position → Position → Prop
  unit : Qualified → Qualified → Prop
  column_lt_iff {here here' there there' : Position} :
    position here here' → position there there' →
      (here.column < there.column ↔ here'.column < there'.column)
  /-- What is on one line is on one line. -/
  line_eq_iff {here here' there there' : Position} :
    position here here' → position there there' →
      (here.line = there.line ↔ here'.line = there'.line)
  start {one other : Qualified} : unit one other → position one.start other.start
  stop {one other : Qualified} : unit one other → position one.stop other.stop
  coreKind?_eq {one other : Qualified} : unit one other → one.coreKind? = other.coreKind?
  /-- They begin with the same kind of token. -/
  firstKind?_eq {one other : Qualified} : unit one other → one.firstKind? = other.firstKind?
  isQualified_eq {one other : Qualified} : unit one other → one.isQualified = other.isQualified
  /-- Layout tokens in the same place are units in the same place. -/
  point {here here' : Position} (kind : Kind) :
    position here here' → unit (.point kind here) (.point kind here')

namespace Likeness

variable (alike : Likeness)

/-- Frames that stand for the same, in the same place unless they are the root. -/
structure SameFrame (frame other : Frame) : Prop where
  delimiter_eq : frame.delimiter = other.delimiter
  position : frame.delimiter ≠ .root → alike.position frame.position other.position

/-- Stacks with the same frames, and the same units emitted. -/
structure SameProgress (progress other : Progress) : Prop where
  inner : List.Forall₂ alike.SameFrame progress.stack.inner other.stack.inner
  /-- A block is pending on both or on none. -/
  pendingBlock_eq : progress.stack.pendingBlock = other.stack.pendingBlock
  /-- What was emitted is in the same places. -/
  emitted : List.Forall₂ alike.unit progress.emitted other.emitted

/-- Units that arrive in the same place, with the same kind of token behind them. -/
structure SameArrival (arrival other : Arrival) : Prop where
  config_eq : arrival.config = other.config
  unit : alike.unit arrival.unit other.unit
  /-- What is behind them starts in the same place. -/
  next : alike.position arrival.next other.next
  nextKind?_eq : arrival.nextKind? = other.nextKind?

variable {alike}

theorem column_le_iff {here here' there there' : Position} (same : alike.position here here')
    (sameThere : alike.position there there') :
    here.column ≤ there.column ↔ here'.column ≤ there'.column := by
  have further := alike.column_lt_iff sameThere same
  omega

theorem column_eq_iff {here here' there there' : Position} (same : alike.position here here')
    (sameThere : alike.position there there') :
    here.column = there.column ↔ here'.column = there'.column := by
  have right := column_le_iff same sameThere
  have left := column_le_iff sameThere same
  omega

/-! ## Frames -/

namespace SameFrame

variable {frame other : Frame} (same : alike.SameFrame frame other)

include same

theorem isIndented_eq : frame.isIndented = other.isIndented :=
  congrArg Delimiter.isIndented same.delimiter_eq

theorem position_of_isIndented (isBlock : frame.isIndented = true) :
    alike.position frame.position other.position := by
  refine same.position fun isRoot => ?_
  rw [Frame.isIndented, isRoot] at isBlock
  cases isBlock

/-- Every rule closes both frames or none. -/
theorem closes_eq {here here' : Position} (sameHere : alike.position here here')
    (closing : Closing) :
    closing.closes here.column frame = closing.closes here'.column other := by
  cases isBlock : other.isIndented with
  | false =>
    cases closing <;> simp [Closing.closes, same.isIndented_eq, isBlock, same.delimiter_eq]
  | true =>
    have there := same.position_of_isIndented (same.isIndented_eq.trans isBlock)
    have offside := alike.column_lt_iff sameHere there
    have offsideEnd := column_le_iff sameHere there
    cases closing <;> simp only [Closing.closes, same.isIndented_eq, same.delimiter_eq, offside,
      offsideEnd]

/-- For what the root is not, both frames stand at the column of a token or none does. -/
theorem aligned_eq {here here' : Position} (sameHere : alike.position here here')
    (test : Delimiter → Bool) (notRoot : test .root = false) :
    (test frame.delimiter && frame.position.column == here.column) =
      (test other.delimiter && other.position.column == here'.column) := by
  rw [← same.delimiter_eq]
  refine Bool.eq_iff_iff.mpr ?_
  simp only [Bool.and_eq_true, beq_iff_eq]
  refine and_congr_right fun passes => column_eq_iff (same.position fun isRoot => ?_) sameHere
  rw [isRoot, notRoot] at passes
  cases passes

end SameFrame

theorem sameFrame_root : alike.SameFrame rootFrame rootFrame :=
  ⟨rfl, fun notRoot => absurd rfl notRoot⟩

section

variable {frames others : List Frame} (same : List.Forall₂ alike.SameFrame frames others)

include same

/-- The innermost frames are the same, also where that is the root. -/
theorem sameFrame_headD : alike.SameFrame (frames.headD rootFrame) (others.headD rootFrame) := by
  cases same with
  | nil => exact sameFrame_root
  | cons first rest => exact first

/-- The innermost blocks are in the same place, if there are any. -/
theorem rel_find_block :
    Option.Rel (fun frame other => alike.position frame.position other.position)
      (frames.find? Frame.isIndented) (others.find? Frame.isIndented) := by
  induction same with
  | nil => exact .none
  | @cons frame other _ _ first rest ih =>
    rw [List.find?_cons, List.find?_cons, ← first.isIndented_eq]
    cases isBlock : frame.isIndented with
    | true => exact .some (first.position_of_isIndented isBlock)
    | false => exact ih

theorem filter_block :
    List.Forall₂ alike.SameFrame (frames.filter Frame.isIndented)
      (others.filter Frame.isIndented) :=
  List.rel_filter (fun _ _ first => Bool.eq_iff_iff.mp first.isIndented_eq) same

theorem forall₂_points {here here' : Position} (sameHere : alike.position here here')
    (kind : Kind) :
    List.Forall₂ alike.unit (frames.map fun _ => .point kind here)
      (others.map fun _ => .point kind here') :=
  List.rel_map (fun _ _ _ => alike.point kind sameHere) same

end

/-! ## Moves -/

namespace SameProgress

variable {progress progress' : Progress} (same : alike.SameProgress progress progress')

include same

theorem top : alike.SameFrame progress.top progress'.top := sameFrame_headD same.inner

theorem topDelimiter_eq : progress.topDelimiter = progress'.topDelimiter := same.top.delimiter_eq

theorem frameBelow (count : Nat) :
    alike.SameFrame (progress.frameBelow count) (progress'.frameBelow count) :=
  sameFrame_headD (List.forall₂_drop count same.inner)

theorem push {position position' : Position} (samePosition : alike.position position position')
    (delimiter : Delimiter) :
    alike.SameProgress (progress.push position delimiter) (progress'.push position' delimiter) :=
  ⟨.cons ⟨rfl, fun _ => samePosition⟩ same.inner, same.pendingBlock_eq, same.emitted⟩

theorem pop : alike.SameProgress progress.pop progress'.pop := by
  refine ⟨?_, same.pendingBlock_eq, same.emitted⟩
  rw [Progress.pop, Progress.pop, ← List.drop_one, ← List.drop_one]
  exact List.forall₂_drop 1 same.inner

theorem popIf (delimiters : List Delimiter) :
    alike.SameProgress (progress.popIf delimiters) (progress'.popIf delimiters) := by
  unfold Progress.popIf
  rw [same.topDelimiter_eq]
  split
  · exact same.pop
  · exact same

theorem emit {unit unit' : Qualified} (sameUnit : alike.unit unit unit') :
    alike.SameProgress (progress.emit unit) (progress'.emit unit') :=
  ⟨same.inner, same.pendingBlock_eq, List.rel_append same.emitted (.cons sameUnit .nil)⟩

end SameProgress

theorem separate_root (arrival : Arrival) {progress : Progress}
    (isRoot : progress.top.delimiter = .root) : arrival.separate progress = progress := by
  simp [Arrival.separate, isRoot, Delimiter.isIndented]

namespace SameArrival

variable {arrival arrival' : Arrival} (sameArrival : alike.SameArrival arrival arrival')
  {progress progress' : Progress} (same : alike.SameProgress progress progress')

include sameArrival

theorem position : alike.position arrival.position arrival'.position :=
  alike.start sameArrival.unit

include same

theorem reach_eq (closing : Closing) :
    arrival.reach progress closing = arrival'.reach progress' closing := by
  have frames := same.inner
  unfold Arrival.reach
  generalize progress.stack.inner = inner, progress'.stack.inner = inner' at frames ⊢
  induction frames with
  | nil => rfl
  | cons first rest ih =>
    rw [List.takeWhile_cons, List.takeWhile_cons, first.closes_eq sameArrival.position closing]
    split
    · exact congrArg (· + 1) ih
    · rfl

theorem close (count : Nat) :
    alike.SameProgress (arrival.close progress count) (arrival'.close progress' count) := by
  have ends := filter_block (List.forall₂_take count same.inner)
  exact ⟨List.forall₂_drop count same.inner, same.pendingBlock_eq,
    List.rel_append same.emitted (forall₂_points ends sameArrival.position .layoutEnd)⟩

theorem collapse (closing : Closing) :
    alike.SameProgress (arrival.collapse progress closing)
      (arrival'.collapse progress' closing) := by
  unfold Arrival.collapse
  rw [sameArrival.reach_eq same]
  exact sameArrival.close same _

/-- Whether a separator is due depends on where the innermost frame stands only if that holds
items, which the root does not. -/
theorem separate :
    alike.SameProgress (arrival.separate progress) (arrival'.separate progress') := by
  have here := sameArrival.position
  have top := same.top
  by_cases isRoot : progress.top.delimiter = .root
  · rw [separate_root arrival isRoot, separate_root arrival' (top.delimiter_eq.symm.trans isRoot)]
    exact same
  · have there := top.position isRoot
    have separated := same.emit (alike.point .layoutSep here)
    simp only [Arrival.separate, Bool.and_eq_true, beq_iff_eq, bne_iff_ne, ne_eq,
      column_eq_iff here there, alike.line_eq_iff here there, top.delimiter_eq]
    split
    · split
      · exact same.pop.emit (alike.point .layoutSep here)
      · exact same.pop.emit (alike.point .layoutSep here)
      · exact separated.push here .caseBinders
      · split
        · exact separated
        · exact same
    · exact same

theorem emitToken :
    alike.SameProgress (arrival.emitToken progress) (arrival'.emitToken progress') :=
  same.emit sameArrival.unit

theorem plain : alike.SameProgress (arrival.plain progress) (arrival'.plain progress') :=
  sameArrival.emitToken (sameArrival.separate (sameArrival.collapse same .offside))

theorem label : alike.SameProgress (arrival.label progress) (arrival'.label progress') :=
  (sameArrival.plain same).popIf _

theorem keyword {opening opening' : Progress → Progress}
    (opens : ∀ progress progress', alike.SameProgress progress progress' →
      alike.SameProgress (opening progress) (opening' progress')) :
    alike.SameProgress (arrival.keyword progress opening)
      (arrival'.keyword progress' opening') := by
  have passed := sameArrival.plain same
  simp only [Arrival.keyword]
  rw [passed.topDelimiter_eq]
  split
  · exact passed.pop
  · exact opens _ _ passed

theorem startBlock (delimiter : Delimiter) :
    alike.SameProgress (arrival.startBlock progress delimiter)
      (arrival'.startBlock progress' delimiter) := by
  simp only [Arrival.startBlock]
  rw [sameArrival.config_eq, sameArrival.nextKind?_eq]
  split
  · exact ⟨same.inner, rfl, same.emitted⟩
  · have opened := (same.push sameArrival.next delimiter).emit
      (alike.point .layoutStart sameArrival.next)
    have enclosing := rel_find_block same.inner
    generalize progress.stack.inner.find? Frame.isIndented = enclosing?,
      progress'.stack.inner.find? Frame.isIndented = enclosing?' at enclosing
    cases enclosing with
    | none => exact opened
    | some block =>
      simp only [alike.column_lt_iff block sameArrival.next]
      split
      · exact opened
      · exact same

theorem startsDeclaration_eq :
    arrival.startsDeclaration progress = arrival'.startsDeclaration progress' := by
  have here := sameArrival.position
  have frames := same.inner
  unfold Arrival.startsDeclaration
  generalize progress.stack.inner = inner, progress'.stack.inner = inner' at frames ⊢
  cases frames with
  | nil => rfl
  | @cons frame frame' _ _ first rest =>
    cases rest with
    | nil => exact first.aligned_eq here (· == .whereBlock) rfl
    | cons second rest => rfl

/-! ## The rules -/

theorem declaration (mask : Delimiter) :
    alike.SameProgress (arrival.declaration progress mask)
      (arrival'.declaration progress' mask) := by
  have passed := sameArrival.plain same
  simp only [Arrival.declaration]
  rw [sameArrival.startsDeclaration_eq passed]
  split
  · exact passed.push sameArrival.position mask
  · exact passed.popIf _

/-- Closing some frames in front of the token, and nothing else. -/
theorem emitToken_close (count : Nat) :
    alike.SameProgress (arrival.emitToken (arrival.close progress count))
      (arrival'.emitToken (arrival'.close progress' count)) :=
  sameArrival.emitToken (sameArrival.close same count)

theorem insertWhere :
    alike.SameProgress (arrival.insertWhere progress) (arrival'.insertWhere progress') := by
  unfold Arrival.insertWhere
  rw [same.topDelimiter_eq]
  split
  · exact sameArrival.startBlock (sameArrival.emitToken same.pop) .whereBlock
  · exact sameArrival.emitToken same.pop
  · exact sameArrival.startBlock
      (sameArrival.emitToken (sameArrival.collapse same .byWhere)) .whereBlock

theorem insertIn :
    alike.SameProgress (arrival.insertIn progress) (arrival'.insertIn progress') := by
  simp only [Arrival.insertIn]
  rw [sameArrival.reach_eq same, (same.frameBelow _).delimiter_eq,
    (same.frameBelow _).delimiter_eq, (same.frameBelow _).isIndented_eq]
  split
  · exact sameArrival.emitToken_close same _
  · split
    · exact sameArrival.emitToken_close same _
    · exact sameArrival.label same

theorem insertLet :
    alike.SameProgress (arrival.insertLet progress) (arrival'.insertLet progress') := by
  refine sameArrival.keyword same fun progress progress' passed => ?_
  have statement := passed.top.aligned_eq sameArrival.position
    (fun delimiter => delimiter == .doBlock || delimiter == .adoBlock) rfl
  dsimp only at statement ⊢
  rw [statement]
  exact sameArrival.startBlock passed _

theorem insertOf :
    alike.SameProgress (arrival.insertOf progress) (arrival'.insertOf progress') := by
  simp only [Arrival.insertOf]
  rw [sameArrival.reach_eq same, (same.frameBelow _).delimiter_eq]
  split
  · have opened := sameArrival.startBlock (sameArrival.emitToken_close same
      (arrival'.reach progress' .offside + 1)) .ofBlock
    rw [opened.pendingBlock_eq]
    split
    · exact opened
    · exact opened.push sameArrival.next .caseBinders
  · exact sameArrival.label (sameArrival.close same _)

theorem insertThen :
    alike.SameProgress (arrival.insertThen progress) (arrival'.insertThen progress') := by
  simp only [Arrival.insertThen]
  rw [sameArrival.reach_eq same, (same.frameBelow _).delimiter_eq]
  split
  · exact (sameArrival.emitToken_close same _).push sameArrival.position .thenBranch
  · exact sameArrival.label same

theorem insertElse :
    alike.SameProgress (arrival.insertElse progress) (arrival'.insertElse progress') := by
  simp only [Arrival.insertElse]
  rw [sameArrival.reach_eq same, (same.frameBelow _).delimiter_eq]
  split
  · exact sameArrival.emitToken_close same _
  · have closed := sameArrival.collapse same .offside
    rw [sameArrival.startsDeclaration_eq closed]
    split
    · exact sameArrival.emitToken closed
    · exact (sameArrival.emitToken (sameArrival.separate closed)).popIf _

theorem insertArrow :
    alike.SameProgress (arrival.insertArrow progress) (arrival'.insertArrow progress') :=
  sameArrival.emitToken ((sameArrival.collapse same .byArrow).popIf _)

theorem insertEquals :
    alike.SameProgress (arrival.insertEquals progress) (arrival'.insertEquals progress') := by
  simp only [Arrival.insertEquals]
  rw [sameArrival.reach_eq same, (same.frameBelow _).delimiter_eq]
  split
  · exact sameArrival.emitToken_close same _
  · exact sameArrival.plain same

theorem insertPipe :
    alike.SameProgress (arrival.insertPipe progress) (arrival'.insertPipe progress') := by
  simp only [Arrival.insertPipe]
  rw [sameArrival.reach_eq same, (same.frameBelow _).delimiter_eq]
  split
  · exact sameArrival.emitToken ((sameArrival.close same _).push sameArrival.position _)
  · exact sameArrival.plain same

theorem insertOperator :
    alike.SameProgress (arrival.insertOperator progress) (arrival'.insertOperator progress') :=
  sameArrival.emitToken (sameArrival.separate (sameArrival.collapse same .offsideEnd))

theorem insertTick :
    alike.SameProgress (arrival.insertTick progress) (arrival'.insertTick progress') := by
  simp only [Arrival.insertTick]
  rw [sameArrival.reach_eq same, (same.frameBelow _).delimiter_eq]
  split
  · exact sameArrival.emitToken_close same _
  · exact (sameArrival.insertOperator same).push sameArrival.position .tick

theorem insertComma :
    alike.SameProgress (arrival.insertComma progress) (arrival'.insertComma progress') := by
  have passed := sameArrival.emitToken (sameArrival.collapse same .indented)
  simp only [Arrival.insertComma]
  rw [passed.topDelimiter_eq]
  split
  · exact passed.push sameArrival.position .property
  · exact passed

theorem insertDot :
    alike.SameProgress (arrival.insertDot progress) (arrival'.insertDot progress') := by
  have passed := sameArrival.plain same
  simp only [Arrival.insertDot]
  rw [passed.topDelimiter_eq]
  split
  · exact passed.pop
  · exact passed.push sameArrival.position .property

theorem insertOpening (mask : Delimiter) :
    alike.SameProgress (arrival.insertOpening progress mask)
      (arrival'.insertOpening progress' mask) :=
  (sameArrival.plain same).push sameArrival.position mask

theorem insertClosing (mask : Delimiter) :
    alike.SameProgress (arrival.insertClosing progress mask)
      (arrival'.insertClosing progress' mask) :=
  sameArrival.emitToken ((sameArrival.collapse same .indented).popIf _)

theorem insertLeftBrace :
    alike.SameProgress (arrival.insertLeftBrace progress)
      (arrival'.insertLeftBrace progress') := by
  have passed := sameArrival.plain same
  simp only [Arrival.insertLeftBrace]
  rw [passed.pendingBlock_eq]
  split
  · have opened := passed.push sameArrival.position .explicitBlock
    exact ⟨opened.inner, rfl, opened.emitted⟩
  · exact (passed.push sameArrival.position .brace).push sameArrival.position .property

theorem insertRightBrace :
    alike.SameProgress (arrival.insertRightBrace progress)
      (arrival'.insertRightBrace progress') := by
  have closed := sameArrival.collapse same .indented
  simp only [Arrival.insertRightBrace]
  rw [closed.topDelimiter_eq]
  split
  · exact sameArrival.emitToken closed.pop
  · exact sameArrival.emitToken ((closed.popIf _).popIf _)

theorem insertSemicolon :
    alike.SameProgress (arrival.insertSemicolon progress)
      (arrival'.insertSemicolon progress') := by
  simp only [Arrival.insertSemicolon]
  rw [sameArrival.reach_eq same, (same.frameBelow _).delimiter_eq, sameArrival.config_eq]
  split
  · exact sameArrival.emitToken_close same _
  · exact sameArrival.plain same

/-- Every kind of token does the same on both sides. -/
theorem insertKind (kind : Kind) :
    alike.SameProgress (arrival.insertKind progress kind) (arrival'.insertKind progress' kind) := by
  have here := sameArrival.position
  unfold Arrival.insertKind
  split
  · exact sameArrival.declaration same .topDecl
  · exact sameArrival.declaration same .topDeclHead
  · exact sameArrival.insertWhere same
  · exact sameArrival.insertIn same
  · exact sameArrival.insertLet same
  · exact sameArrival.keyword same fun _ _ passed => sameArrival.startBlock passed .doBlock
  · exact sameArrival.keyword same fun _ _ passed => sameArrival.startBlock passed .adoBlock
  · exact sameArrival.keyword same fun _ _ passed => passed.push here .caseHead
  · exact sameArrival.insertOf same
  · exact sameArrival.keyword same fun _ _ passed => passed.push here .ifHead
  · exact sameArrival.insertThen same
  · exact sameArrival.insertElse same
  · exact sameArrival.keyword same fun _ _ passed => passed.push here .forallHead
  · exact (sameArrival.plain same).push here .lambdaBinders
  · exact sameArrival.insertArrow same
  · exact sameArrival.insertEquals same
  · exact sameArrival.insertPipe same
  · exact sameArrival.insertTick same
  · exact sameArrival.insertComma same
  · exact sameArrival.insertDot same
  · exact sameArrival.insertOpening same .paren
  · exact sameArrival.insertLeftBrace same
  · exact sameArrival.insertOpening same .square
  · exact sameArrival.insertClosing same .paren
  · exact sameArrival.insertRightBrace same
  · exact sameArrival.insertClosing same .square
  · exact sameArrival.insertSemicolon same
  · exact sameArrival.insertOperator same
  · split
    · exact sameArrival.label same
    · exact sameArrival.plain same

theorem insert : alike.SameProgress (arrival.insert progress) (arrival'.insert progress') := by
  unfold Arrival.insert
  rw [alike.coreKind?_eq sameArrival.unit, alike.isQualified_eq sameArrival.unit]
  split
  · exact sameArrival.plain same
  · split
    · exact sameArrival.plain same
    · exact sameArrival.insertKind same _

end SameArrival

/-! ## Whole token lists -/

variable {config : Config} {units units' : List Qualified}

theorem unwind {stack stack' : Stack}
    (frames : List.Forall₂ alike.SameFrame stack.inner stack'.inner) {stop stop' : Position}
    (sameStop : alike.position stop stop') :
    List.Forall₂ alike.unit (stack.unwind stop) (stack'.unwind stop') :=
  forall₂_points (filter_block frames) sameStop .layoutEnd

theorem applyFrom (same : List.Forall₂ alike.unit units units') {stack stack' : Stack}
    (frames : List.Forall₂ alike.SameFrame stack.inner stack'.inner)
    (pending : stack.pendingBlock = stack'.pendingBlock) {stop stop' : Position}
    (sameStop : alike.position stop stop') :
    List.Forall₂ alike.unit (applyFrom config stack stop units)
      (applyFrom config stack' stop' units') := by
  induction same generalizing stack stack' stop stop' with
  | nil => exact unwind frames sameStop
  | @cons unit unit' rest rest' first others ih =>
    have next : rest.head?.bind Qualified.firstKind? = rest'.head?.bind Qualified.firstKind? := by
      cases others with
      | nil => rfl
      | cons second _ => exact alike.firstKind?_eq second
    have arrival : alike.SameArrival ⟨config, unit, unit.stop, rest.head?.bind Qualified.firstKind?⟩
        ⟨config, unit', unit'.stop, rest'.head?.bind Qualified.firstKind?⟩ :=
      ⟨rfl, first, alike.stop first, next⟩
    have start : alike.SameProgress ⟨stack, []⟩ ⟨stack', []⟩ := ⟨frames, pending, .nil⟩
    have fed := arrival.insert start
    exact List.rel_append fed.emitted (ih fed.inner fed.pendingBlock_eq (alike.stop first))

/-- What stands in front of the first unit is asked for only where there is none. -/
theorem apply_cons (config : Config) (unit : Qualified) (rest : List Qualified) :
    Layout.apply config (unit :: rest) =
      Layout.applyFrom config .empty unit.stop (unit :: rest) := rfl

/-- Token lists that are alike are laid out alike. -/
theorem apply (config : Config) (same : List.Forall₂ alike.unit units units') :
    List.Forall₂ alike.unit (apply config units) (apply config units') := by
  cases same with
  | nil => exact .nil
  | cons first others =>
    rw [apply_cons, apply_cons]
    exact applyFrom (.cons first others) .nil rfl (alike.stop first)

end Likeness

/-! ## Moved token lists -/

/-- The positions where units start or end. -/
def edges (units : List Qualified) : Set Position :=
  {position | ∃ unit ∈ units, position = unit.start ∨ position = unit.stop}

section

variable {units : List Qualified} {line column : Nat → Nat}

/-- Moving units is a likeness if it keeps the order of their columns and keeps their lines
apart. -/
def Likeness.ofRelocation (offset : Nat → Nat)
    (increasing : StrictMonoOn column (Position.column '' edges units))
    (apart : Set.InjOn line (Position.line '' edges units)) : Likeness where
  position here there := here ∈ edges units ∧ there = here.relocate line column offset
  unit one other := (one.start ∈ edges units ∧ one.stop ∈ edges units) ∧ one.lexemes ≠ [] ∧
    other = one.relocate (Position.relocate line column offset)
  column_lt_iff := by
    rintro here _ there _ ⟨inside, rfl⟩ ⟨insideThere, rfl⟩
    exact (increasing.lt_iff_lt (Set.mem_image_of_mem _ inside)
      (Set.mem_image_of_mem _ insideThere)).symm
  line_eq_iff := by
    rintro here _ there _ ⟨inside, rfl⟩ ⟨insideThere, rfl⟩
    exact (apart.eq_iff (Set.mem_image_of_mem _ inside)
      (Set.mem_image_of_mem _ insideThere)).symm
  start := by
    rintro one _ ⟨⟨inside, -⟩, some, rfl⟩
    exact ⟨inside, Qualified.start_relocate _ some⟩
  stop := by
    rintro one _ ⟨⟨-, inside⟩, some, rfl⟩
    exact ⟨inside, Qualified.stop_relocate _ some⟩
  coreKind?_eq := by
    rintro one _ ⟨-, -, rfl⟩
    exact (Qualified.coreKind?_relocate _ one).symm
  firstKind?_eq := by
    rintro one _ ⟨-, -, rfl⟩
    exact (Qualified.firstKind?_relocate _ one).symm
  isQualified_eq := by
    rintro one _ ⟨-, -, rfl⟩
    exact (Qualified.isQualified_relocate _ one).symm
  point := by
    rintro here _ kind ⟨inside, rfl⟩
    exact ⟨⟨inside, inside⟩, by simp [Qualified.point, Qualified.plain, Qualified.lexemes], rfl⟩

/-- Layout depends on relative indentation only. If all positions of a token list are replaced so
that the columns where its units start and end stay in the same order and their lines stay apart,
then what is laid out is what was laid out before, with its positions replaced in the same way. Any
map that increases columns everywhere will do, but so does one that moves a source to the left. -/
theorem apply_relocate (config : Config) (some : ∀ unit ∈ units, unit.lexemes ≠ [])
    (offset : Nat → Nat) (increasing : StrictMonoOn column (Position.column '' edges units))
    (apart : Set.InjOn line (Position.line '' edges units)) :
    let move := Position.relocate line column offset
    apply config (units.map (Qualified.relocate move)) =
      (apply config units).map (Qualified.relocate move) := by
  intro move
  let alike : Likeness := .ofRelocation offset increasing apart
  have moved : List.Forall₂ alike.unit units (units.map (Qualified.relocate move)) := by
    refine List.forall₂_map_right_iff.mpr (List.forall₂_same.mpr fun unit member => ?_)
    exact ⟨⟨⟨unit, member, .inl rfl⟩, ⟨unit, member, .inr rfl⟩⟩, some unit member, rfl⟩
  have laidOut : List.Forall₂ (fun one other => other = one.relocate move) (apply config units)
      (apply config (units.map (Qualified.relocate move))) :=
    (alike.apply config moved).imp fun _ _ same => same.2.2
  rw [← List.forall₂_eq_eq_eq]
  exact (List.forall₂_map_right_iff.mpr laidOut.flip)

/-- A block that is moved to the left, where the columns of its tokens stay in order. -/
theorem apply_relocate_of_dedented_do :
    let units : List Qualified := [
      .plain ⟨⟨.kwDo, ⟨0, 0, 0⟩, ⟨0, 2, 2⟩⟩, [⟨.whitespace, ⟨0, 2, 2⟩, ⟨1, 4, 7⟩⟩]⟩,
      .plain ⟨⟨.lowerName, ⟨1, 4, 7⟩, ⟨1, 5, 8⟩⟩, [⟨.whitespace, ⟨1, 5, 8⟩, ⟨2, 4, 13⟩⟩]⟩,
      .plain ⟨⟨.lowerName, ⟨2, 4, 13⟩, ⟨2, 5, 14⟩⟩, []⟩]
    let move := Position.relocate (3 * ·) (· - 2) (· + 1)
    (∀ unit ∈ units, unit.lexemes ≠ []) ∧
      StrictMonoOn (· - 2) (Position.column '' edges units) ∧
      Set.InjOn (3 * ·) (Position.line '' edges units) ∧
      apply .default (units.map (Qualified.relocate move)) =
        (apply .default units).map (Qualified.relocate move) := by
  intro units move
  have some : ∀ unit ∈ units, unit.lexemes ≠ [] := by decide
  have columns : ∀ place ∈ Position.column '' edges units, place = 0 ∨ 4 ≤ place := by
    rintro _ ⟨position, ⟨unit, member, isEdge⟩, rfl⟩
    have inside : ∀ unit ∈ units, (unit.start.column = 0 ∨ 4 ≤ unit.start.column) ∧
        (unit.stop.column = 0 ∨ 4 ≤ unit.stop.column) := by decide
    rcases isEdge with rfl | rfl
    · exact (inside unit member).1
    · exact (inside unit member).2
  have increasing : StrictMonoOn (· - 2) (Position.column '' edges units) := by
    intro left inside right insideRight further
    have leftColumn := columns left inside
    have rightColumn := columns right insideRight
    dsimp only
    omega
  have apart : Set.InjOn (3 * ·) (Position.line '' edges units) := by
    intro first _ second _ same
    dsimp only at same
    omega
  exact ⟨some, increasing, apart, apply_relocate .default some (· + 1) increasing apart⟩

end

end Layout

end Offside
