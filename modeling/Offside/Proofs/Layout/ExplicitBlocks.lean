import Mathlib.Data.List.Chain
import Mathlib.Data.List.TakeWhile
import Offside.Layout.Apply
import Offside.Proofs.Token.Merging

/-! # Explicit blocks

With the option on, a brace in place of a block opens a block instead of a record. The word that
wanted the block raises a flag, and the brace behind it takes the flag down. Between the two no
token is fed, so the flag never outlives the pair: the units of a source that begin with a brace are
braces, and every brace looks at the flag.

Nothing else asks for the option but a semicolon, and only among the items of such a block. Where no
brace stands in place of a block, the option therefore makes no difference.
-/

namespace Offside

open Source Token Layout

/-- Whether the word opens a block at the token behind it. -/
def Token.Kind.startsBlock : Kind → Bool
  | .kwWhere | .kwOf | .kwLet | .kwDo | .kwAdo => true
  | _ => false

/-- Whether the token opens a block at the token behind it, and a brace stands there. -/
def Token.Qualified.IsBraced (unit next : Qualified) : Prop :=
  (∃ kind ∈ unit.coreKind?, kind.startsBlock = true) ∧ next.firstKind? = some .leftBrace

/-- A unit that begins with a brace is one, as a qualifier begins with a name. -/
theorem Token.Qualified.coreKind?_of_firstKind? {unit : Qualified}
    (isQualifier : IsQualifier unit.qualifier) (isBrace : unit.firstKind? = some .leftBrace) :
    unit.coreKind? = some .leftBrace := by
  obtain ⟨qualifier, core⟩ := unit
  cases isQualifier with
  | nil =>
    cases core with
    | none => cases isBrace
    | some core => exact isBrace
  | pair first _ =>
    obtain ⟨isName, -⟩ := qualifies_iff.mp first
    have isBraceName := Option.some.inj isBrace
    rw [isName] at isBraceName
    cases isBraceName

namespace Layout

/-- The frames of explicit blocks, innermost first. -/
def Stack.braced (stack : Stack) : List Frame :=
  stack.inner.filter (·.delimiter == .explicitBlock)

/-- Explicit blocks may close, and that is all that happens to them. -/
structure OpensNoExplicit (progress after : Progress) : Prop where
  pending : after.stack.pendingBlock = progress.stack.pendingBlock
  /-- What explicit blocks there are were there before. -/
  braced : after.stack.braced <:+ progress.stack.braced

/-- The flag is raised for the brace behind the token. -/
structure Arrival.Awaits (arrival : Arrival) (progress after : Progress) : Prop where
  allowed : arrival.config.explicitBlocks = true
  next : arrival.nextKind? = some .leftBrace
  pending : after.stack.pendingBlock = true
  /-- What explicit blocks there are were there before. -/
  braced : after.stack.braced <:+ progress.stack.braced

section Insertion

variable {arrival : Arrival} {progress after : Progress}

namespace OpensNoExplicit

/-! ## The moves -/

theorem refl (progress : Progress) : OpensNoExplicit progress progress := ⟨rfl, List.suffix_rfl⟩

theorem emit (opensNone : OpensNoExplicit progress after) (unit : Qualified) :
    OpensNoExplicit progress (after.emit unit) :=
  ⟨opensNone.pending, opensNone.braced⟩

theorem emitToken (opensNone : OpensNoExplicit progress after) :
    OpensNoExplicit progress (arrival.emitToken after) :=
  opensNone.emit _

theorem push (opensNone : OpensNoExplicit progress after) (position : Position)
    {delimiter : Delimiter} (other : delimiter ≠ .explicitBlock) :
    OpensNoExplicit progress (after.push position delimiter) where
  pending := opensNone.pending
  braced := by
    have same : (after.push position delimiter).stack.braced = after.stack.braced :=
      List.filter_cons_of_neg (by simpa using other)
    rw [same]
    exact opensNone.braced

theorem close (opensNone : OpensNoExplicit progress after) (count : Nat) :
    OpensNoExplicit progress (arrival.close after count) :=
  ⟨opensNone.pending, ((List.drop_suffix count _).filter _).trans opensNone.braced⟩

theorem collapse (opensNone : OpensNoExplicit progress after) (closing : Closing) :
    OpensNoExplicit progress (arrival.collapse after closing) :=
  opensNone.close _

theorem pop (opensNone : OpensNoExplicit progress after) : OpensNoExplicit progress after.pop :=
  ⟨opensNone.pending, ((List.tail_suffix _).filter _).trans opensNone.braced⟩

theorem popIf (opensNone : OpensNoExplicit progress after) (delimiters : List Delimiter) :
    OpensNoExplicit progress (after.popIf delimiters) := by
  unfold Progress.popIf
  split
  · exact opensNone.pop
  · exact opensNone

theorem separate (opensNone : OpensNoExplicit progress after) :
    OpensNoExplicit progress (arrival.separate after) := by
  simp only [Arrival.separate]
  split
  · split
    · exact opensNone.pop.emit _
    · exact opensNone.pop.emit _
    · exact (opensNone.emit _).push _ (by decide)
    · split
      · exact opensNone.emit _
      · exact opensNone
  · exact opensNone

/-! ## The rules -/

theorem plain (opensNone : OpensNoExplicit progress after) :
    OpensNoExplicit progress (arrival.plain after) :=
  (opensNone.collapse .offside).separate.emitToken

theorem label (opensNone : OpensNoExplicit progress after) :
    OpensNoExplicit progress (arrival.label after) :=
  opensNone.plain.popIf _

theorem keyword (opensNone : OpensNoExplicit progress after) {opening : Progress → Progress}
    (opens : ∀ {reached}, OpensNoExplicit progress reached →
      OpensNoExplicit progress (opening reached)) :
    OpensNoExplicit progress (arrival.keyword after opening) := by
  simp only [Arrival.keyword]
  split
  · exact opensNone.plain.pop
  · exact opens opensNone.plain

theorem declaration (opensNone : OpensNoExplicit progress after) {mask : Delimiter}
    (other : mask ≠ .explicitBlock) :
    OpensNoExplicit progress (arrival.declaration after mask) := by
  simp only [Arrival.declaration]
  split
  · exact opensNone.plain.push _ other
  · exact opensNone.plain.popIf _

theorem insertIn (opensNone : OpensNoExplicit progress after) :
    OpensNoExplicit progress (arrival.insertIn after) := by
  simp only [Arrival.insertIn]
  split
  · exact (opensNone.close _).emitToken
  · split
    · exact (opensNone.close _).emitToken
    · exact opensNone.label

theorem insertThen (opensNone : OpensNoExplicit progress after) :
    OpensNoExplicit progress (arrival.insertThen after) := by
  simp only [Arrival.insertThen]
  split
  · exact (opensNone.close _).emitToken.push _ (by decide)
  · exact opensNone.label

theorem insertElse (opensNone : OpensNoExplicit progress after) :
    OpensNoExplicit progress (arrival.insertElse after) := by
  simp only [Arrival.insertElse]
  split
  · exact (opensNone.close _).emitToken
  · split
    · exact (opensNone.collapse _).emitToken
    · exact (opensNone.collapse _).separate.emitToken.popIf _

theorem insertArrow (opensNone : OpensNoExplicit progress after) :
    OpensNoExplicit progress (arrival.insertArrow after) :=
  ((opensNone.collapse _).popIf _).emitToken

theorem insertEquals (opensNone : OpensNoExplicit progress after) :
    OpensNoExplicit progress (arrival.insertEquals after) := by
  simp only [Arrival.insertEquals]
  split
  · exact (opensNone.close _).emitToken
  · exact opensNone.plain

theorem insertPipe (opensNone : OpensNoExplicit progress after) :
    OpensNoExplicit progress (arrival.insertPipe after) := by
  simp only [Arrival.insertPipe]
  split
  · next mask guard =>
    have other : mask ≠ .explicitBlock := by
      rintro rfl
      revert guard
      cases (after.frameBelow _).delimiter <;> rintro ⟨⟩
    exact ((opensNone.close _).push _ other).emitToken
  · exact opensNone.plain

theorem insertOperator (opensNone : OpensNoExplicit progress after) :
    OpensNoExplicit progress (arrival.insertOperator after) :=
  (opensNone.collapse _).separate.emitToken

theorem insertTick (opensNone : OpensNoExplicit progress after) :
    OpensNoExplicit progress (arrival.insertTick after) := by
  simp only [Arrival.insertTick]
  split
  · exact (opensNone.close _).emitToken
  · exact opensNone.insertOperator.push _ (by decide)

theorem insertComma (opensNone : OpensNoExplicit progress after) :
    OpensNoExplicit progress (arrival.insertComma after) := by
  simp only [Arrival.insertComma]
  split
  · exact (opensNone.collapse _).emitToken.push _ (by decide)
  · exact (opensNone.collapse _).emitToken

theorem insertDot (opensNone : OpensNoExplicit progress after) :
    OpensNoExplicit progress (arrival.insertDot after) := by
  simp only [Arrival.insertDot]
  split
  · exact opensNone.plain.pop
  · exact opensNone.plain.push _ (by decide)

theorem insertOpening (opensNone : OpensNoExplicit progress after) {mask : Delimiter}
    (other : mask ≠ .explicitBlock) : OpensNoExplicit progress (arrival.insertOpening after mask) :=
  opensNone.plain.push _ other

theorem insertClosing (opensNone : OpensNoExplicit progress after) (mask : Delimiter) :
    OpensNoExplicit progress (arrival.insertClosing after mask) :=
  ((opensNone.collapse _).popIf _).emitToken

theorem insertRightBrace (opensNone : OpensNoExplicit progress after) :
    OpensNoExplicit progress (arrival.insertRightBrace after) := by
  simp only [Arrival.insertRightBrace]
  split
  · exact (opensNone.collapse _).pop.emitToken
  · exact (((opensNone.collapse _).popIf _).popIf _).emitToken

theorem insertSemicolon (opensNone : OpensNoExplicit progress after) :
    OpensNoExplicit progress (arrival.insertSemicolon after) := by
  simp only [Arrival.insertSemicolon]
  split
  · exact (opensNone.close _).emitToken
  · exact opensNone.plain

/-- A brace that opens a record. -/
theorem insertLeftBrace (opensNone : OpensNoExplicit progress after)
    (record : after.stack.pendingBlock = false) :
    OpensNoExplicit progress (arrival.insertLeftBrace after) := by
  have down : ¬(arrival.plain after).stack.pendingBlock = true := by
    rw [((refl after).plain).pending, record]
    exact Bool.false_ne_true
  simp only [Arrival.insertLeftBrace, if_neg down]
  exact (opensNone.plain.push _ (by decide)).push _ (by decide)

/-- No word but those that open blocks raises the flag, and nothing but a brace takes it down. -/
theorem insertKind (opensNone : OpensNoExplicit progress after) {kind : Kind}
    (noBlock : kind.startsBlock = false) (noBrace : kind ≠ .leftBrace) :
    OpensNoExplicit progress (arrival.insertKind after kind) := by
  unfold Arrival.insertKind
  split
  · exact opensNone.declaration (by decide)
  · exact opensNone.declaration (by decide)
  · cases noBlock
  · exact opensNone.insertIn
  · cases noBlock
  · cases noBlock
  · cases noBlock
  · exact opensNone.keyword fun reached => reached.push _ (by decide)
  · cases noBlock
  · exact opensNone.keyword fun reached => reached.push _ (by decide)
  · exact opensNone.insertThen
  · exact opensNone.insertElse
  · exact opensNone.keyword fun reached => reached.push _ (by decide)
  · exact opensNone.plain.push _ (by decide)
  · exact opensNone.insertArrow
  · exact opensNone.insertEquals
  · exact opensNone.insertPipe
  · exact opensNone.insertTick
  · exact opensNone.insertComma
  · exact opensNone.insertDot
  · exact opensNone.insertOpening (by decide)
  · exact absurd rfl noBrace
  · exact opensNone.insertOpening (by decide)
  · exact opensNone.insertClosing _
  · exact opensNone.insertRightBrace
  · exact opensNone.insertClosing _
  · exact opensNone.insertSemicolon
  · exact opensNone.insertOperator
  · split
    · exact opensNone.label
    · exact opensNone.plain

end OpensNoExplicit

/-! ## Words that open blocks -/

/-- The flag is left alone, or raised for the brace behind the token. -/
def Arrival.Settles (arrival : Arrival) (progress after : Progress) : Prop :=
  OpensNoExplicit progress after ∨ arrival.Awaits progress after

namespace OpensNoExplicit

theorem startBlock (opensNone : OpensNoExplicit progress after) {delimiter : Delimiter}
    (other : delimiter ≠ .explicitBlock) :
    arrival.Settles progress (arrival.startBlock after delimiter) := by
  simp only [Arrival.startBlock]
  split
  · next asks =>
    obtain ⟨allowed, next⟩ := Bool.and_eq_true_iff.mp asks
    exact .inr ⟨allowed, beq_iff_eq.mp next, rfl, opensNone.braced⟩
  · have opened := (opensNone.push arrival.next other).emit (.point .layoutStart arrival.next)
    refine .inl ?_
    cases after.stack.inner.find? Frame.isIndented with
    | none => exact opened
    | some enclosing =>
      dsimp only
      split
      · exact opened
      · exact opensNone

theorem keyword_block (opensNone : OpensNoExplicit progress after) {opening : Progress → Progress}
    (opens : ∀ {reached}, OpensNoExplicit progress reached →
      arrival.Settles progress (opening reached)) :
    arrival.Settles progress (arrival.keyword after opening) := by
  simp only [Arrival.keyword]
  split
  · exact .inl opensNone.plain.pop
  · exact opens opensNone.plain

theorem insertWhere (opensNone : OpensNoExplicit progress after) :
    arrival.Settles progress (arrival.insertWhere after) := by
  unfold Arrival.insertWhere
  split
  · exact opensNone.pop.emitToken.startBlock (by decide)
  · exact .inl opensNone.pop.emitToken
  · exact (opensNone.collapse _).emitToken.startBlock (by decide)

theorem insertLet (opensNone : OpensNoExplicit progress after) :
    arrival.Settles progress (arrival.insertLet after) := by
  refine opensNone.keyword_block fun reached => reached.startBlock ?_
  split <;> decide

/-- A brace in place of the branches comes with no binders. -/
theorem insertOf (opensNone : OpensNoExplicit progress after) :
    arrival.Settles progress (arrival.insertOf after) := by
  simp only [Arrival.insertOf]
  split
  · let closed := arrival.emitToken (arrival.close after (arrival.reach after .offside + 1))
    have passed : OpensNoExplicit progress closed := (opensNone.close _).emitToken
    have opened : arrival.Settles progress (arrival.startBlock closed .ofBlock) :=
      passed.startBlock (by decide)
    rcases opened with same | awaits
    · refine .inl ?_
      split
      · exact same
      · exact same.push _ (by decide)
    · rw [if_pos awaits.pending]
      exact .inr awaits
  · exact .inl (opensNone.close _).label

theorem insertKind_block (opensNone : OpensNoExplicit progress after) {kind : Kind}
    (isBlock : kind.startsBlock = true) :
    arrival.Settles progress (arrival.insertKind after kind) := by
  cases kind <;> try cases isBlock
  case kwWhere => exact opensNone.insertWhere
  case kwLet => exact opensNone.insertLet
  case kwOf => exact opensNone.insertOf
  case kwDo => exact opensNone.keyword_block fun reached => reached.startBlock (by decide)
  case kwAdo => exact opensNone.keyword_block fun reached => reached.startBlock (by decide)

end OpensNoExplicit

end Insertion

/-! ## The brace -/

theorem Stack.braced_cons {frame : Frame} {frames : List Frame} {pending : Bool}
    (other : frame.delimiter ≠ .explicitBlock) :
    Stack.braced ⟨frame :: frames, pending⟩ = Stack.braced ⟨frames, pending⟩ :=
  List.filter_cons_of_neg (by simpa using other)

namespace Arrival

/-- Only blocks end where a line stands left of them, and what braces hold is no such block. -/
theorem braced_collapse_offside (arrival : Arrival) (progress : Progress) :
    (arrival.collapse progress .offside).stack.braced = progress.stack.braced := by
  let closed := Closing.offside.closes arrival.position.column
  have none : (progress.stack.inner.takeWhile closed).filter (·.delimiter == .explicitBlock) =
      [] := by
    refine List.filter_eq_nil_iff.mpr fun frame member isBraced => ?_
    obtain ⟨isBlock, -⟩ := Bool.and_eq_true_iff.mp (List.mem_takeWhile_imp (p := closed) member)
    have noBlock : frame.isIndented = false := by
      rw [Frame.isIndented, beq_iff_eq.mp isBraced]
      rfl
    exact Bool.false_ne_true (noBlock.symm.trans isBlock)
  have split := List.takeWhile_append_dropWhile (p := closed) (l := progress.stack.inner)
  have rest : progress.stack.inner.drop (arrival.reach progress .offside) =
      progress.stack.inner.dropWhile closed := by
    conv_lhs => rw [← split]
    exact List.drop_left
  change (progress.stack.inner.drop _).filter _ = progress.stack.inner.filter _
  rw [rest]
  conv_rhs => rw [← split, List.filter_append, none, List.nil_append]

theorem braced_separate (arrival : Arrival) (progress : Progress) :
    (arrival.separate progress).stack.braced = progress.stack.braced := by
  have masked {delimiter : Delimiter} (top : progress.top.delimiter = delimiter)
      (other : delimiter ≠ .explicitBlock) : progress.pop.stack.braced = progress.stack.braced := by
    unfold Progress.pop Progress.top Stack.top Stack.braced at *
    cases frames : progress.stack.inner with
    | nil => rfl
    | cons frame rest =>
      rw [frames] at top
      exact (List.filter_cons_of_neg (by simpa [← top] using other)).symm
  simp only [separate]
  split
  · split
    · next top => exact masked top (by decide)
    · next top => exact masked top (by decide)
    · exact Stack.braced_cons Delimiter.noConfusion
    · split <;> rfl
  · rfl

theorem braced_plain (arrival : Arrival) (progress : Progress) :
    (arrival.plain progress).stack.braced = progress.stack.braced :=
  (arrival.braced_separate _).trans (arrival.braced_collapse_offside progress)

theorem insert_leftBrace (arrival : Arrival) (progress : Progress)
    (isBrace : arrival.unit.coreKind? = some .leftBrace) :
    arrival.insert progress = arrival.insertLeftBrace progress := by
  have plainName : isNameWhenQualified .leftBrace = false := by decide
  unfold insert
  simp only [isBrace, plainName, Bool.and_false, Bool.false_eq_true, if_false]
  rfl

/-- A brace that is awaited takes the flag down and puts its block on top of all that is there. -/
theorem insert_brace (arrival : Arrival) (progress : Progress)
    (isBrace : arrival.unit.coreKind? = some .leftBrace)
    (awaited : progress.stack.pendingBlock = true) :
    let after := (arrival.insert progress).stack
    after.pendingBlock = false ∧ after.top = ⟨arrival.position, .explicitBlock⟩ ∧
      after.braced = ⟨arrival.position, .explicitBlock⟩ :: progress.stack.braced := by
  have up : (arrival.plain progress).stack.pendingBlock = true :=
    (OpensNoExplicit.refl progress).plain.pending.trans awaited
  rw [arrival.insert_leftBrace progress isBrace]
  simp only [insertLeftBrace, if_pos up]
  exact ⟨rfl, rfl, congrArg (_ :: ·) (arrival.braced_plain progress)⟩

/-- With the flag down, a token leaves it alone or opens a block and raises it; no explicit block
begins. -/
theorem insert_settles (arrival : Arrival) (progress : Progress)
    (down : progress.stack.pendingBlock = false) :
    OpensNoExplicit progress (arrival.insert progress) ∨
      (∃ kind ∈ arrival.unit.coreKind?, kind.startsBlock = true) ∧
        arrival.Awaits progress (arrival.insert progress) := by
  have opensNone := OpensNoExplicit.refl progress
  by_cases isBrace : arrival.unit.coreKind? = some .leftBrace
  · rw [arrival.insert_leftBrace progress isBrace]
    exact .inl (opensNone.insertLeftBrace down)
  unfold insert
  split
  · exact .inl opensNone.plain
  · next kind isKind =>
    split
    · exact .inl opensNone.plain
    · cases isBlock : kind.startsBlock with
      | false =>
        exact .inl (opensNone.insertKind isBlock
          fun same => isBrace (isKind.trans (congrArg _ same)))
      | true =>
        have settled : arrival.Settles progress (arrival.insertKind progress kind) :=
          opensNone.insertKind_block isBlock
        rcases settled with same | awaits
        · exact .inl same
        · exact .inr ⟨⟨kind, isKind, isBlock⟩, awaits⟩

end Arrival

/-! ## Without the option -/

section Config

variable (config other : Config) (unit : Qualified) (next : Position) (nextKind? : Option Kind)

/-- Where no brace stands in place of a block, the option is not looked at. -/
theorem startBlock_config (noBrace : nextKind? ≠ some .leftBrace) (progress : Progress)
    (delimiter : Delimiter) :
    (Arrival.mk config unit next nextKind?).startBlock progress delimiter =
      (Arrival.mk other unit next nextKind?).startBlock progress delimiter := by
  have unasked (config : Config) :
      ¬(config.explicitBlocks && nextKind? == some .leftBrace) = true := by
    simp [noBrace]
  simp only [Arrival.startBlock]
  rw [if_neg (unasked config), if_neg (unasked other)]

/-- Nor where there is no explicit block that a semicolon could separate. -/
theorem insertSemicolon_config {progress : Progress} (none : progress.stack.braced = []) :
    (Arrival.mk config unit next nextKind?).insertSemicolon progress =
      (Arrival.mk other unit next nextKind?).insertSemicolon progress := by
  have unbraced (count : Nat) : (progress.frameBelow count).delimiter ≠ .explicitBlock := by
    intro isBraced
    unfold Progress.frameBelow at isBraced
    cases below : progress.stack.inner.drop count with
    | nil =>
      rw [below] at isBraced
      cases isBraced
    | cons frame rest =>
      rw [below] at isBraced
      have isThere : frame ∈ progress.stack.inner.drop count := by
        rw [below]
        exact List.mem_cons_self
      have member := List.mem_of_mem_drop isThere
      exact List.filter_eq_nil_iff.mp none frame member (beq_iff_eq.mpr isBraced)
  have unasked (config : Config) (count : Nat) : ¬(config.explicitBlocks &&
      (progress.frameBelow count).delimiter == .explicitBlock) = true := by
    simp [unbraced count]
  simp only [Arrival.insertSemicolon]
  rw [if_neg (unasked config _), if_neg (unasked other _)]
  rfl

theorem insertKind_config {progress : Progress} (none : progress.stack.braced = []) {kind : Kind}
    (unbraced : kind.startsBlock = true → nextKind? ≠ some .leftBrace) :
    (Arrival.mk config unit next nextKind?).insertKind progress kind =
      (Arrival.mk other unit next nextKind?).insertKind progress kind := by
  have same := startBlock_config config other unit next nextKind?
  cases kind
  case kwWhere =>
    simp only [Arrival.insertKind, Arrival.insertWhere, same (unbraced rfl)]
    rfl
  case kwLet =>
    simp only [Arrival.insertKind, Arrival.insertLet, same (unbraced rfl)]
    rfl
  case kwDo | kwAdo =>
    simp only [Arrival.insertKind, same (unbraced rfl)]
    rfl
  case kwOf =>
    simp only [Arrival.insertKind, Arrival.insertOf, same (unbraced rfl)]
    rfl
  case semicolon => exact insertSemicolon_config config other unit next nextKind? none
  all_goals rfl

theorem insert_config {progress : Progress} (none : progress.stack.braced = [])
    (unbraced : ∀ kind ∈ unit.coreKind?, kind.startsBlock = true → nextKind? ≠ some .leftBrace) :
    (Arrival.mk config unit next nextKind?).insert progress =
      (Arrival.mk other unit next nextKind?).insert progress := by
  cases isKind : unit.coreKind? with
  | none =>
    simp only [Arrival.insert, isKind]
    rfl
  | some kind =>
    have same := insertKind_config config other unit next nextKind? none (unbraced kind isKind)
    simp only [Arrival.insert, isKind, same]
    rfl

end Config

/-! ## A whole run -/

/-- A token that is fed in a run. -/
structure Step where
  before : Stack
  unit : Qualified
  next? : Option Qualified

/-- The stack behind the token, and what is emitted for it. -/
def Step.fed (config : Config) (step : Step) : Stack × List Qualified :=
  step.before.feed config step.unit step.unit.stop (step.next?.bind Qualified.firstKind?)

/-- The stack behind the token. -/
def Step.after (config : Config) (step : Step) : Stack := (step.fed config).1

/-- The steps of a run. -/
def stepsFrom (config : Config) (stack : Stack) : List Qualified → List Step
  | [] => []
  | unit :: rest =>
    let step : Step := ⟨stack, unit, rest.head?⟩
    step :: stepsFrom config (step.after config) rest

/-- The stack at the end of a run. -/
def finalFrom (config : Config) (stack : Stack) : List Qualified → Stack
  | [] => stack
  | unit :: rest => finalFrom config (Step.after config ⟨stack, unit, rest.head?⟩) rest

/-- The layout is what the steps emit, and the ends of what is open behind them. -/
theorem applyFrom_eq_steps (config : Config) (units : List Qualified) (stack : Stack)
    (stop : Position) :
    applyFrom config stack stop units =
      (stepsFrom config stack units).flatMap (fun step => (step.fed config).2) ++
        (finalFrom config stack units).unwind (units.getLast?.elim stop Qualified.stop) := by
  induction units generalizing stack stop with
  | nil => rfl
  | cons unit rest ih =>
    have last : (unit :: rest).getLast?.elim stop Qualified.stop =
        rest.getLast?.elim unit.stop Qualified.stop := by
      rw [List.getLast?_cons]
      cases rest.getLast? <;> rfl
    rw [last, stepsFrom, List.flatMap_cons, List.append_assoc]
    exact congrArg _ (ih _ _)

namespace Step

variable {config : Config} {step : Step}

/-- Whether the flag goes up. -/
def raises (config : Config) (step : Step) : Bool :=
  !step.before.pendingBlock && (step.after config).pendingBlock

/-- Whether an explicit block begins. -/
def begins (config : Config) (step : Step) : Bool :=
  step.before.braced.length < (step.after config).braced.length

/-- With the flag up, a step is a brace: the flag comes down and its block goes on top. -/
structure Takes (config : Config) (step : Step) : Prop where
  isBrace : step.unit.coreKind? = some .leftBrace
  down : (step.after config).pendingBlock = false
  top : (step.after config).top = ⟨step.unit.start, .explicitBlock⟩
  braced : (step.after config).braced = ⟨step.unit.start, .explicitBlock⟩ :: step.before.braced

/-- With the flag down, no explicit block begins, and the flag goes up only for a brace in place of
a block. -/
structure Keeps (config : Config) (step : Step) : Prop where
  /-- What explicit blocks there are were there before. -/
  braced : (step.after config).braced <:+ step.before.braced
  /-- The word that raises the flag wants a block, and a brace is next. -/
  isBraced : (step.after config).pendingBlock = true →
    config.explicitBlocks = true ∧ ∃ next ∈ step.next?, step.unit.IsBraced next

theorem takes (isBrace : step.unit.coreKind? = some .leftBrace)
    (awaited : step.before.pendingBlock = true) : step.Takes config := by
  let arrival : Arrival :=
    ⟨config, step.unit, step.unit.stop, step.next?.bind Qualified.firstKind?⟩
  obtain ⟨down, top, braced⟩ := arrival.insert_brace ⟨step.before, []⟩ isBrace awaited
  exact ⟨isBrace, down, top, braced⟩

theorem keeps (down : step.before.pendingBlock = false) : step.Keeps config := by
  let arrival : Arrival :=
    ⟨config, step.unit, step.unit.stop, step.next?.bind Qualified.firstKind?⟩
  rcases arrival.insert_settles ⟨step.before, []⟩ down with opensNone | ⟨isBlock, awaits⟩
  · refine ⟨opensNone.braced, fun up => ?_⟩
    cases up.symm.trans (opensNone.pending.trans down)
  · refine ⟨awaits.braced, fun _ => ⟨awaits.allowed, ?_⟩⟩
    obtain ⟨next, isNext, isBrace⟩ := Option.bind_eq_some_iff.mp awaits.next
    exact ⟨next, isNext, isBlock, isBrace⟩

/-- A flag that goes up or an explicit block that begins: each is paid for by the other, and a flag
that is up is the debt in between. -/
theorem raises_add (sound : step.before.pendingBlock = true → step.Takes config) :
    (if step.raises config then 1 else 0) + (if step.before.pendingBlock then 1 else 0) =
      (if step.begins config then 1 else 0) +
        if (step.after config).pendingBlock then 1 else 0 := by
  cases up : step.before.pendingBlock with
  | true =>
    obtain ⟨-, down, -, braced⟩ := sound up
    simp [raises, begins, up, down, braced]
  | false =>
    have kept : step.Keeps config := keeps up
    simp [raises, begins, up, kept.braced.length_le]

end Step

/-- Where the flag is up, a brace is next. -/
def Stack.Awaited (stack : Stack) (units : List Qualified) : Prop :=
  stack.pendingBlock = true → ∃ brace ∈ units.head?, brace.firstKind? = some .leftBrace

/-- With the flag up in front of a brace at most, every step is sound and the flag is down at the
end of input. -/
theorem stepsFrom_sound (config : Config) {units : List Qualified} (merged : IsMerged units)
    {stack : Stack} (awaited : stack.Awaited units) :
    (∀ step ∈ stepsFrom config stack units, step.before.pendingBlock = true → step.Takes config) ∧
      (finalFrom config stack units).pendingBlock = false := by
  induction units generalizing stack with
  | nil =>
    refine ⟨fun step member => (List.not_mem_nil member).elim, ?_⟩
    cases up : stack.pendingBlock with
    | false => exact up
    | true =>
      obtain ⟨brace, member, -⟩ := awaited up
      cases member
  | cons unit rest ih =>
    let step : Step := ⟨stack, unit, rest.head?⟩
    have takes (up : step.before.pendingBlock = true) : step.Takes config := by
      obtain ⟨brace, isFirst, isBrace⟩ := awaited up
      obtain rfl : unit = brace := Option.some.inj isFirst
      have isQualifier := merged.isQualifier unit List.mem_cons_self
      exact Step.takes (Qualified.coreKind?_of_firstKind? isQualifier isBrace) up
    have later : (step.after config).Awaited rest := by
      intro up
      cases was : step.before.pendingBlock with
      | true => cases up.symm.trans (takes was).down
      | false =>
        obtain ⟨-, next, isNext, isBraced⟩ := (Step.keeps was).isBraced up
        exact ⟨next, isNext, isBraced.2⟩
    obtain ⟨others, down⟩ := ih merged.of_cons later
    exact ⟨List.forall_mem_cons.mpr ⟨takes, others⟩, down⟩

theorem countP_raises_add (config : Config) (units : List Qualified) {stack : Stack}
    (sound : ∀ step ∈ stepsFrom config stack units,
      step.before.pendingBlock = true → step.Takes config) :
    (stepsFrom config stack units).countP (Step.raises config) +
        (if stack.pendingBlock then 1 else 0) =
      (stepsFrom config stack units).countP (Step.begins config) +
        if (finalFrom config stack units).pendingBlock then 1 else 0 := by
  induction units generalizing stack with
  | nil => rfl
  | cons unit rest ih =>
    obtain ⟨first, others⟩ := List.forall_mem_cons.mp sound
    have here := Step.raises_add first
    have there := ih others
    rw [stepsFrom, List.countP_cons, List.countP_cons, finalFrom]
    dsimp only at here there
    omega

/-- Where no brace stands in place of a block, the option changes nothing. -/
theorem applyFrom_config (config other : Config) {units : List Qualified}
    (unbraced : units.IsChain fun unit next => ¬unit.IsBraced next) {stack : Stack}
    (down : stack.pendingBlock = false) (none : stack.braced = []) (stop : Position) :
    applyFrom config stack stop units = applyFrom other stack stop units := by
  induction units generalizing stack stop with
  | nil => rfl
  | cons unit rest ih =>
    obtain ⟨first, others⟩ := List.isChain_cons.mp unbraced
    have noBrace : ∀ kind ∈ unit.coreKind?, kind.startsBlock = true →
        rest.head?.bind Qualified.firstKind? ≠ some .leftBrace := by
      intro kind isKind isBlock isBrace
      obtain ⟨next, isNext, isBrace⟩ := Option.bind_eq_some_iff.mp isBrace
      exact first next isNext ⟨⟨kind, isKind, isBlock⟩, isBrace⟩
    have same : stack.feed config unit unit.stop (rest.head?.bind Qualified.firstKind?) =
        stack.feed other unit unit.stop (rest.head?.bind Qualified.firstKind?) := by
      unfold Stack.feed
      rw [insert_config config other unit unit.stop _ none noBrace]
    let step : Step := ⟨stack, unit, rest.head?⟩
    have kept : step.Keeps other := Step.keeps down
    have stillDown : (step.after other).pendingBlock = false := by
      refine Bool.eq_false_iff.mpr fun up => ?_
      obtain ⟨-, next, isNext, isBraced⟩ := kept.isBraced up
      exact first next isNext isBraced
    have stillNone : (step.after other).braced = [] := List.suffix_nil.mp (none ▸ kept.braced)
    simp only [applyFrom, same]
    exact congrArg _ (ih others stillDown stillNone unit.stop)

/-- Explicit blocks are an extension that nobody notices who does not ask for them. Where no word
that opens a block has a brace behind it, the layout is the same with the option and without. With
the option, the flag goes up for a word that opens a block with a brace behind it, and that brace
takes it down and puts an explicit block on the stack. Nothing else puts one there, whatever else is
fed finds the flag down, and so does the end of input: there are as many explicit blocks as times
that the flag goes up. -/
theorem explicit_blocks_are_conservative (lexemes : List Lexeme) :
    let units := mergeQualifiers lexemes
    let config : Config := ⟨true⟩
    let steps := stepsFrom config .empty units
    let final := finalFrom config .empty units
    ((units.IsChain fun unit next => ¬unit.IsBraced next) →
        apply config units = apply .default units) ∧
      apply config units = steps.flatMap (fun step => (step.fed config).2) ++
        final.unwind (units.getLast?.elim .zero Qualified.stop) ∧
      (∀ step ∈ steps,
        (step.before.pendingBlock = true → step.unit.coreKind? = some .leftBrace ∧
          (step.after config).pendingBlock = false ∧
          (step.after config).top = ⟨step.unit.start, .explicitBlock⟩ ∧
          (step.after config).braced =
            ⟨step.unit.start, .explicitBlock⟩ :: step.before.braced) ∧
        (step.before.pendingBlock = false →
          (step.after config).braced <:+ step.before.braced ∧
          ((step.after config).pendingBlock = true →
            ∃ next ∈ step.next?, step.unit.IsBraced next))) ∧
      final.pendingBlock = false ∧
      steps.countP (Step.begins config) = steps.countP (Step.raises config) := by
  intro units config steps final
  have merged : IsMerged units := isMerged_mergeFrom .nil lexemes
  have awaited : Stack.empty.Awaited units := fun up => absurd up Bool.false_ne_true
  obtain ⟨sound, down⟩ := stepsFrom_sound config merged awaited
  have balance := countP_raises_add config units sound
  refine ⟨fun unbraced => applyFrom_config config .default unbraced rfl rfl .zero,
    applyFrom_eq_steps config units .empty .zero, fun step member => ⟨fun up => ?_, fun was => ?_⟩,
    down, ?_⟩
  · obtain ⟨isBrace, down, top, braced⟩ := sound step member up
    exact ⟨isBrace, down, top, braced⟩
  · have kept : step.Keeps config := Step.keeps was
    exact ⟨kept.braced, fun up => (kept.isBraced up).2⟩
  · rw [down] at balance
    exact balance.symm

/-- The brace behind `do` opens a block, the one in it a record. -/
example :
    let lexeme (kind : Kind) (column : Nat) : Lexeme :=
      .bare ⟨kind, ⟨0, column, column⟩, ⟨0, column + 1, column + 1⟩⟩
    let units := mergeQualifiers [lexeme .kwDo 0, lexeme .leftBrace 1, lexeme .leftBrace 2]
    (finalFrom ⟨true⟩ .empty units).inner.map Frame.delimiter =
      [.property, .brace, .explicitBlock] := by
  decide

end Layout

end Offside
