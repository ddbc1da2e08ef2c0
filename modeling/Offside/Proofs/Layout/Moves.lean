import Offside.Layout.Apply

/-! # The moves around one token

However many rules there are, a token is inserted by few moves, and in a fixed order: blocks are
closed, the token is separated from what is in front of it, it is emitted, and a block is opened
behind it. Masks come and go in between. Every rule is taken apart into these moves once; what is to
be known about all rules is then a matter of moves.
-/

namespace Offside.Layout

open Source Token

/-- How far the insertion of a token has come. -/
inductive Phase where
  | closing
  /-- The token is separated from what is in front of it. -/
  | separated
  | passed
  | opened
deriving DecidableEq

/-- Whether the delimiter masks what is in a declaration, up to where the next one starts. -/
def Delimiter.masksDeclaration : Delimiter → Bool
  | .topDecl | .topDeclHead => true
  | _ => false

/-- Whether the delimiter is put on the stack and taken off without anything being emitted. -/
def Delimiter.isMask (delimiter : Delimiter) : Bool :=
  delimiter != .root && !delimiter.isIndented && !delimiter.masksDeclaration

namespace Delimiter

variable {delimiter : Delimiter}

theorem isIndented_of_masksDeclaration (masks : delimiter.masksDeclaration = true) :
    delimiter.isIndented = false := by
  cases delimiter <;> first | rfl | cases masks

theorem ne_root_of_masksDeclaration (masks : delimiter.masksDeclaration = true) :
    delimiter ≠ .root := by
  rintro rfl
  cases masks

theorem isIndented_of_isMask (isMask : delimiter.isMask = true) :
    delimiter.isIndented = false := by
  cases delimiter <;> first | rfl | cases isMask

theorem masksDeclaration_of_isMask (isMask : delimiter.isMask = true) :
    delimiter.masksDeclaration = false := by
  cases delimiter <;> first | rfl | cases isMask

theorem ne_root_of_isMask (isMask : delimiter.isMask = true) : delimiter ≠ .root := by
  rintro rfl
  cases isMask

end Delimiter

/-- What a token makes of the frames that were there `before`, and what is emitted for it, up to
some phase. -/
inductive Moved (arrival : Arrival) (before : List Frame) :
    Phase → List Frame → List Qualified → Prop
  | idle : Moved arrival before .closing before []
  | close {frame : Frame} {frames : List Frame} {emitted : List Qualified}
    (isBlock : frame.isIndented = true)
    (moved : Moved arrival before .closing (frame :: frames) emitted) :
    Moved arrival before .closing frames (emitted ++ [.point .layoutEnd arrival.position])
  /-- The innermost frame is a mask and taken off. -/
  | unmask {phase : Phase} {frame : Frame} {frames : List Frame} {emitted : List Qualified}
    (isMask : frame.isIndented = false) (early : phase ≠ .opened)
    (moved : Moved arrival before phase (frame :: frames) emitted) :
    Moved arrival before phase frames emitted
  | mask {phase : Phase} {frames : List Frame} {emitted : List Qualified} (position : Position)
    {delimiter : Delimiter} (isMask : delimiter.isMask = true)
    (moved : Moved arrival before phase frames emitted) :
    Moved arrival before phase (⟨position, delimiter⟩ :: frames) emitted
  /-- The token is separated from the line before it that stands at its column. -/
  | separate {frame : Frame} {frames : List Frame} {emitted : List Qualified}
    (holdsItems : frame.isIndented = true ∨ frame.delimiter.masksDeclaration = true)
    (aligned : arrival.position.column = frame.position.column)
    (newLine : arrival.position.line ≠ frame.position.line)
    (moved : Moved arrival before .closing (frame :: frames) emitted) :
    Moved arrival before .separated (frame :: frames)
      (emitted ++ [.point .layoutSep arrival.position])
  | pass {phase : Phase} {frames : List Frame} {emitted : List Qualified}
    (due : phase = .closing ∨ phase = .separated)
    (moved : Moved arrival before phase frames emitted) :
    Moved arrival before .passed frames (emitted ++ [arrival.unit])
  /-- The rest of a declaration is masked, which starts at the column of the only block. -/
  | declare {block : Frame} {emitted : List Qualified} {delimiter : Delimiter}
    (masks : delimiter.masksDeclaration = true) (isBlock : block.isIndented = true)
    (aligned : block.position.column = arrival.position.column)
    (moved : Moved arrival before .passed [block] emitted) :
    Moved arrival before .passed [⟨arrival.position, delimiter⟩, block] emitted
  /-- A block is opened at the next token, right of the enclosing block. -/
  | enter {frames : List Frame} {emitted : List Qualified} {delimiter : Delimiter}
    (isBlock : delimiter.isIndented = true)
    (indents : ∀ frame, frames.find? Frame.isIndented = some frame →
      frame.position.column < arrival.next.column)
    (moved : Moved arrival before .passed frames emitted) :
    Moved arrival before .opened (⟨arrival.next, delimiter⟩ :: frames)
      (emitted ++ [.point .layoutStart arrival.next])

/-- Insertion has come to a phase. -/
def Arrival.IsAt (arrival : Arrival) (before : List Frame) (phase : Phase) (progress : Progress) :
    Prop :=
  Moved arrival before phase progress.stack.inner progress.emitted

/-- Insertion has come to an end. -/
def Arrival.IsDone (arrival : Arrival) (before : List Frame) (progress : Progress) : Prop :=
  arrival.IsAt before .passed progress ∨ arrival.IsAt before .opened progress

namespace Arrival

variable {arrival : Arrival} {before : List Frame} {phase : Phase} {progress : Progress}

/-! ## The moves -/

theorem isAt_close (reached : arrival.IsAt before .closing progress) (count : Nat) :
    arrival.IsAt before .closing (arrival.close progress count) := by
  unfold IsAt close at *
  dsimp only
  generalize progress.stack.inner = frames, progress.emitted = emitted at reached
  induction count generalizing frames emitted with
  | zero => simpa using reached
  | succ count ih =>
    cases frames with
    | nil => simpa using reached
    | cons frame frames =>
      rw [List.take_succ_cons, List.drop_succ_cons]
      cases isBlock : frame.isIndented with
      | true =>
        rw [List.filter_cons_of_pos isBlock, List.map_cons, ← List.singleton_append,
          ← List.append_assoc]
        exact ih _ _ (.close isBlock reached)
      | false =>
        rw [List.filter_cons_of_neg (by simp [isBlock])]
        exact ih _ _ (.unmask isBlock (by decide) reached)

theorem isAt_collapse (reached : arrival.IsAt before .closing progress) (closing : Closing) :
    arrival.IsAt before .closing (arrival.collapse progress closing) :=
  isAt_close reached _

theorem isAt_pop (reached : arrival.IsAt before phase progress) (early : phase ≠ .opened)
    (isMask : progress.topDelimiter.isIndented = false) :
    arrival.IsAt before phase progress.pop := by
  unfold IsAt Progress.pop Progress.topDelimiter Progress.top Stack.top at *
  dsimp only
  cases frames : progress.stack.inner with
  | nil => rwa [frames] at reached
  | cons frame rest =>
    rw [frames] at reached isMask
    exact .unmask isMask early reached

theorem isAt_popIf (reached : arrival.IsAt before phase progress) (early : phase ≠ .opened)
    {delimiters : List Delimiter}
    (areMasks : ∀ delimiter ∈ delimiters, delimiter.isIndented = false) :
    arrival.IsAt before phase (progress.popIf delimiters) := by
  unfold Progress.popIf
  split
  · next listed => exact isAt_pop reached early (areMasks _ (List.contains_iff_mem.mp listed))
  · exact reached

theorem isAt_push (reached : arrival.IsAt before phase progress) (position : Position)
    {delimiter : Delimiter} (isMask : delimiter.isMask = true) :
    arrival.IsAt before phase (progress.push position delimiter) :=
  .mask position isMask reached

theorem isAt_emitToken (reached : arrival.IsAt before phase progress)
    (due : phase = .closing ∨ phase = .separated) :
    arrival.IsAt before .passed (arrival.emitToken progress) :=
  .pass due reached

/-- The root holds no items, so there is a frame on the stack where a separator is due. -/
theorem isAt_separator (reached : arrival.IsAt before .closing progress)
    (aligned : arrival.position.column = progress.top.position.column)
    (newLine : arrival.position.line ≠ progress.top.position.line)
    (holdsItems : progress.top.isIndented = true ∨
      progress.top.delimiter.masksDeclaration = true) :
    arrival.IsAt before .separated (progress.emit (.point .layoutSep arrival.position)) := by
  unfold IsAt Progress.emit Progress.top Stack.top at *
  cases frames : progress.stack.inner with
  | nil =>
    rw [frames] at holdsItems
    rcases holdsItems with isBlock | masks
    · cases isBlock
    · cases masks
  | cons frame rest =>
    rw [frames] at reached aligned newLine holdsItems
    exact .separate holdsItems aligned newLine reached

theorem isAt_separate (reached : arrival.IsAt before .closing progress) :
    arrival.IsAt before .closing (arrival.separate progress) ∨
      arrival.IsAt before .separated (arrival.separate progress) := by
  simp only [separate]
  split
  · next stands =>
    obtain ⟨aligned, newLine⟩ := Bool.and_eq_true_iff.mp stands
    have separated : progress.top.isIndented = true ∨
        progress.top.delimiter.masksDeclaration = true →
        arrival.IsAt before .separated (progress.emit (.point .layoutSep arrival.position)) :=
      isAt_separator reached (beq_iff_eq.mp aligned) (bne_iff_ne.mp newLine)
    split
    · next top =>
      have emitted := separated (.inr (congrArg Delimiter.masksDeclaration top))
      exact .inr (isAt_pop emitted (by decide) (congrArg Delimiter.isIndented top))
    · next top =>
      have emitted := separated (.inr (congrArg Delimiter.masksDeclaration top))
      exact .inr (isAt_pop emitted (by decide) (congrArg Delimiter.isIndented top))
    · next top =>
      have emitted := separated (.inl (congrArg Delimiter.isIndented top))
      exact .inr (isAt_push emitted _ rfl)
    · split
      · next isBlock => exact .inr (separated (.inl isBlock))
      · exact .inl reached
  · exact .inl reached

theorem isAt_emitToken_separate (reached : arrival.IsAt before .closing progress) :
    arrival.IsAt before .passed (arrival.emitToken (arrival.separate progress)) := by
  rcases isAt_separate reached with closing | separated
  · exact isAt_emitToken closing (.inl rfl)
  · exact isAt_emitToken separated (.inr rfl)

theorem isDone_startBlock (reached : arrival.IsAt before .passed progress) {delimiter : Delimiter}
    (isBlock : delimiter.isIndented = true) :
    arrival.IsDone before (arrival.startBlock progress delimiter) := by
  simp only [startBlock]
  split
  · exact .inl reached
  · cases enclosing : progress.stack.inner.find? Frame.isIndented with
    | none =>
      refine .inr (.enter isBlock (fun frame found => ?_) reached)
      cases enclosing.symm.trans found
    | some block =>
      dsimp only
      split
      · next indents =>
        refine .inr (.enter isBlock (fun frame found => ?_) reached)
        obtain rfl := Option.some.inj (enclosing.symm.trans found)
        exact of_decide_eq_true indents
      · exact .inl reached

/-! ## The rules -/

theorem isAt_plain (reached : arrival.IsAt before .closing progress) :
    arrival.IsAt before .passed (arrival.plain progress) :=
  isAt_emitToken_separate (isAt_collapse reached .offside)

theorem isDone_plain (reached : arrival.IsAt before .closing progress) :
    arrival.IsDone before (arrival.plain progress) :=
  .inl (isAt_plain reached)

theorem isDone_label (reached : arrival.IsAt before .closing progress) :
    arrival.IsDone before (arrival.label progress) :=
  .inl (isAt_popIf (isAt_plain reached) (by decide) (by decide))

theorem isDone_keyword {opening : Progress → Progress}
    (opens : ∀ progress, arrival.IsAt before .passed progress →
      arrival.IsDone before (opening progress))
    (reached : arrival.IsAt before .closing progress) :
    arrival.IsDone before (arrival.keyword progress opening) := by
  simp only [keyword]
  split
  · next top =>
    refine .inl (isAt_pop (isAt_plain reached) (by decide) ?_)
    rw [beq_iff_eq.mp top]
    rfl
  · exact opens _ (isAt_plain reached)

theorem isDone_declaration {mask : Delimiter} (masks : mask.masksDeclaration = true)
    (reached : arrival.IsAt before .closing progress) :
    arrival.IsDone before (arrival.declaration progress mask) := by
  have passed := isAt_plain reached
  simp only [declaration]
  generalize arrival.plain progress = behind at passed ⊢
  split
  · next starts =>
    unfold startsDeclaration at starts
    unfold IsDone IsAt Progress.push at *
    split at starts
    · next block only =>
      obtain ⟨isWhere, aligned⟩ := Bool.and_eq_true_iff.mp starts
      have isBlock : block.isIndented = true :=
        congrArg Delimiter.isIndented (beq_iff_eq.mp isWhere)
      rw [only] at passed ⊢
      exact .inl (.declare masks isBlock (beq_iff_eq.mp aligned) passed)
    · cases starts
  · exact .inl (isAt_popIf passed (by decide) (by decide))

theorem isDone_insertWhere (reached : arrival.IsAt before .closing progress) :
    arrival.IsDone before (arrival.insertWhere progress) := by
  unfold insertWhere
  split
  · next top =>
    have popped := isAt_pop reached (by decide) (congrArg Delimiter.isIndented top)
    exact isDone_startBlock (isAt_emitToken popped (.inl rfl)) rfl
  · next top =>
    have popped := isAt_pop reached (by decide) (congrArg Delimiter.isIndented top)
    exact .inl (isAt_emitToken popped (.inl rfl))
  · exact isDone_startBlock (isAt_emitToken (isAt_collapse reached .byWhere) (.inl rfl)) rfl

/-- Closing some frames in front of the token, and nothing else. -/
theorem isDone_close (reached : arrival.IsAt before .closing progress) (count : Nat) :
    arrival.IsDone before (arrival.emitToken (arrival.close progress count)) :=
  .inl (isAt_emitToken (isAt_close reached count) (.inl rfl))

theorem isDone_insertIn (reached : arrival.IsAt before .closing progress) :
    arrival.IsDone before (arrival.insertIn progress) := by
  simp only [insertIn]
  split
  · exact isDone_close reached _
  · split
    · exact isDone_close reached _
    · exact isDone_label reached

theorem isDone_insertLet (reached : arrival.IsAt before .closing progress) :
    arrival.IsDone before (arrival.insertLet progress) := by
  refine isDone_keyword (fun progress passed => isDone_startBlock passed ?_) reached
  split <;> rfl

theorem isDone_insertOf (reached : arrival.IsAt before .closing progress) :
    arrival.IsDone before (arrival.insertOf progress) := by
  simp only [insertOf]
  split
  · have opened := isDone_startBlock
      (isAt_emitToken (isAt_close reached (arrival.reach progress .offside + 1)) (.inl rfl))
      (show Delimiter.ofBlock.isIndented = true from rfl)
    split
    · exact opened
    · rcases opened with passed | opened
      · exact .inl (isAt_push passed _ rfl)
      · exact .inr (isAt_push opened _ rfl)
  · exact isDone_label (isAt_close reached _)

theorem isDone_insertThen (reached : arrival.IsAt before .closing progress) :
    arrival.IsDone before (arrival.insertThen progress) := by
  simp only [insertThen]
  split
  · exact .inl (isAt_push (isAt_emitToken (isAt_close reached _) (.inl rfl)) _ rfl)
  · exact isDone_label reached

theorem isDone_insertElse (reached : arrival.IsAt before .closing progress) :
    arrival.IsDone before (arrival.insertElse progress) := by
  simp only [insertElse]
  split
  · exact isDone_close reached _
  · have closed := isAt_collapse reached .offside
    split
    · exact .inl (isAt_emitToken closed (.inl rfl))
    · exact .inl (isAt_popIf (isAt_emitToken_separate closed) (by decide) (by decide))

theorem isDone_insertArrow (reached : arrival.IsAt before .closing progress) :
    arrival.IsDone before (arrival.insertArrow progress) :=
  .inl (isAt_emitToken
    (isAt_popIf (isAt_collapse reached .byArrow) (by decide) (by decide)) (.inl rfl))

theorem isDone_insertEquals (reached : arrival.IsAt before .closing progress) :
    arrival.IsDone before (arrival.insertEquals progress) := by
  simp only [insertEquals]
  split
  · exact isDone_close reached _
  · exact isDone_plain reached

theorem isDone_insertPipe (reached : arrival.IsAt before .closing progress) :
    arrival.IsDone before (arrival.insertPipe progress) := by
  simp only [insertPipe]
  split
  · next mask guard =>
    have isMask : mask.isMask = true := by
      revert guard
      cases (progress.frameBelow _).delimiter <;> rintro ⟨⟩ <;> rfl
    exact .inl (isAt_emitToken (isAt_push (isAt_close reached _) _ isMask) (.inl rfl))
  · exact isDone_plain reached

theorem isAt_insertOperator (reached : arrival.IsAt before .closing progress) :
    arrival.IsAt before .passed (arrival.insertOperator progress) :=
  isAt_emitToken_separate (isAt_collapse reached .offsideEnd)

theorem isDone_insertTick (reached : arrival.IsAt before .closing progress) :
    arrival.IsDone before (arrival.insertTick progress) := by
  simp only [insertTick]
  split
  · exact isDone_close reached _
  · exact .inl (isAt_push (isAt_insertOperator reached) _ rfl)

theorem isDone_insertComma (reached : arrival.IsAt before .closing progress) :
    arrival.IsDone before (arrival.insertComma progress) := by
  have passed := isAt_emitToken (isAt_collapse reached .indented) (.inl rfl)
  simp only [insertComma]
  split
  · exact .inl (isAt_push passed _ rfl)
  · exact .inl passed

theorem isDone_insertDot (reached : arrival.IsAt before .closing progress) :
    arrival.IsDone before (arrival.insertDot progress) := by
  simp only [insertDot]
  split
  · next top =>
    refine .inl (isAt_pop (isAt_plain reached) (by decide) ?_)
    rw [beq_iff_eq.mp top]
    rfl
  · exact .inl (isAt_push (isAt_plain reached) _ rfl)

theorem isDone_insertOpening {mask : Delimiter} (isMask : mask.isMask = true)
    (reached : arrival.IsAt before .closing progress) :
    arrival.IsDone before (arrival.insertOpening progress mask) :=
  .inl (isAt_push (isAt_plain reached) _ isMask)

theorem isDone_insertClosing {mask : Delimiter} (isMask : mask.isIndented = false)
    (reached : arrival.IsAt before .closing progress) :
    arrival.IsDone before (arrival.insertClosing progress mask) :=
  .inl (isAt_emitToken
    (isAt_popIf (isAt_collapse reached .indented) (by decide) (by simpa using isMask)) (.inl rfl))

theorem isDone_insertLeftBrace (reached : arrival.IsAt before .closing progress) :
    arrival.IsDone before (arrival.insertLeftBrace progress) := by
  have passed := isAt_plain reached
  simp only [insertLeftBrace]
  split
  · exact .inl (.mask _ rfl passed)
  · exact .inl (isAt_push (isAt_push passed _ rfl) _ rfl)

theorem isDone_insertRightBrace (reached : arrival.IsAt before .closing progress) :
    arrival.IsDone before (arrival.insertRightBrace progress) := by
  have closed := isAt_collapse reached .indented
  simp only [insertRightBrace]
  split
  · next top =>
    refine .inl (isAt_emitToken (isAt_pop closed (by decide) ?_) (.inl rfl))
    rw [beq_iff_eq.mp top]
    rfl
  · exact .inl (isAt_emitToken
      (isAt_popIf (isAt_popIf closed (by decide) (by decide)) (by decide) (by decide)) (.inl rfl))

theorem isDone_insertSemicolon (reached : arrival.IsAt before .closing progress) :
    arrival.IsDone before (arrival.insertSemicolon progress) := by
  simp only [insertSemicolon]
  split
  · exact isDone_close reached _
  · exact isDone_plain reached

/-- Every kind of token is inserted by these moves. -/
theorem isDone_insertKind (reached : arrival.IsAt before .closing progress) (kind : Kind) :
    arrival.IsDone before (arrival.insertKind progress kind) := by
  have masks : ∀ {mask : Delimiter}, mask.isMask = true →
      ∀ progress, arrival.IsAt before .passed progress →
        arrival.IsDone before (progress.push arrival.position mask) :=
    fun isMask _ passed => .inl (isAt_push passed _ isMask)
  unfold insertKind
  split
  · exact isDone_declaration rfl reached
  · exact isDone_declaration rfl reached
  · exact isDone_insertWhere reached
  · exact isDone_insertIn reached
  · exact isDone_insertLet reached
  · exact isDone_keyword (fun _ passed => isDone_startBlock passed rfl) reached
  · exact isDone_keyword (fun _ passed => isDone_startBlock passed rfl) reached
  · exact isDone_keyword (masks rfl) reached
  · exact isDone_insertOf reached
  · exact isDone_keyword (masks rfl) reached
  · exact isDone_insertThen reached
  · exact isDone_insertElse reached
  · exact isDone_keyword (masks rfl) reached
  · exact masks rfl _ (isAt_plain reached)
  · exact isDone_insertArrow reached
  · exact isDone_insertEquals reached
  · exact isDone_insertPipe reached
  · exact isDone_insertTick reached
  · exact isDone_insertComma reached
  · exact isDone_insertDot reached
  · exact isDone_insertOpening rfl reached
  · exact isDone_insertLeftBrace reached
  · exact isDone_insertOpening rfl reached
  · exact isDone_insertClosing rfl reached
  · exact isDone_insertRightBrace reached
  · exact isDone_insertClosing rfl reached
  · exact isDone_insertSemicolon reached
  · exact .inl (isAt_insertOperator reached)
  · split
    · exact isDone_label reached
    · exact isDone_plain reached

/-- So is every token. -/
theorem isDone_insert (reached : arrival.IsAt before .closing progress) :
    arrival.IsDone before (arrival.insert progress) := by
  unfold insert
  split
  · exact isDone_plain reached
  · split
    · exact isDone_plain reached
    · exact isDone_insertKind reached _

end Arrival

/-- What a fed token does is made of these moves. -/
theorem Stack.feed_moved (stack : Stack) (config : Config) (unit : Qualified) (next : Position)
    (nextKind? : Option Kind) :
    ∃ phase, (phase = .passed ∨ phase = .opened) ∧
      Moved ⟨config, unit, next, nextKind?⟩ stack.inner phase
        (stack.feed config unit next nextKind?).1.inner
        (stack.feed config unit next nextKind?).2 := by
  let arrival : Arrival := ⟨config, unit, next, nextKind?⟩
  have reached : arrival.IsAt stack.inner .closing ⟨stack, []⟩ := .idle
  rcases arrival.isDone_insert reached with passed | opened
  · exact ⟨.passed, .inl rfl, passed⟩
  · exact ⟨.opened, .inr rfl, opened⟩

end Offside.Layout
