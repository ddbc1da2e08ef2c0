import Offside.Lex
import Offside.Proofs.Layout.Moves
import Offside.Proofs.Nesting
import Offside.Proofs.Token.Grouping
import Offside.Proofs.Token.Scan

/-! # Blocks are balanced

Every block on the stack has had its start token and still owes an end token, and nothing else on
the stack owes anything. Each move around a token keeps these accounts, so what is fed to the stack
comes out with as many start tokens ahead of end tokens as there are blocks on the stack.
-/

namespace Offside

open Source Token

/-- What a token does to the nesting of blocks. -/
def Token.Placed.role (token : Placed) : Role :=
  match token.kind with
  | .layoutStart => .opens
  | .layoutEnd => .closes
  | _ => .inside

/-- None of the tokens comes from the layout rule. -/
def Token.Qualified.IsPlain (unit : Qualified) : Prop :=
  ∀ token ∈ unit.tokens, token.kind.isLayout = false

instance (unit : Qualified) : Decidable unit.IsPlain :=
  inferInstanceAs (Decidable (∀ token ∈ unit.tokens, token.kind.isLayout = false))

namespace Layout

theorem role_of_plain {token : Placed} (plain : token.kind.isLayout = false) :
    token.role = .inside := by
  unfold Placed.role
  cases kind : token.kind <;> rw [kind] at plain <;> first | rfl | cases plain

theorem depthAfter_plain {tokens : List Placed}
    (plain : ∀ token ∈ tokens, token.kind.isLayout = false) (depth : Nat) :
    depthAfter Placed.role depth tokens = some depth :=
  depthAfter_of_forall_inside (fun token member => role_of_plain (plain token member)) depth

/-- Number of blocks among frames. -/
def blocks (frames : List Frame) : Nat := frames.countP Frame.isIndented

theorem blocks_cons_block {frame : Frame} (isBlock : frame.isIndented = true)
    (frames : List Frame) : blocks (frame :: frames) = blocks frames + 1 :=
  List.countP_cons_of_pos isBlock

theorem blocks_cons_mask {frame : Frame} (isMask : frame.isIndented = false)
    (frames : List Frame) : blocks (frame :: frames) = blocks frames :=
  List.countP_cons_of_neg (by simp only [isMask, Bool.false_eq_true, not_false_eq_true])

variable {arrival : Arrival} {before frames : List Frame} {phase : Phase}
  {emitted : List Qualified}

/-- The tokens emitted lead from the blocks that were open to those that are. -/
theorem Moved.depthAfter_emitted (plain : arrival.unit.IsPlain)
    (moved : Moved arrival before phase frames emitted) :
    depthAfter Placed.role (blocks before) (emitted.flatMap Qualified.tokens) =
      some (blocks frames) := by
  induction moved with
  | idle => rfl
  | close isBlock _ ih =>
    rw [List.flatMap_append, depthAfter_append, ih, blocks_cons_block isBlock]
    rfl
  | unmask isMask _ _ ih => rwa [blocks_cons_mask isMask] at ih
  | mask position isMask _ ih =>
    have frameIsMask : Frame.isIndented ⟨position, _⟩ = false :=
      Delimiter.isIndented_of_isMask isMask
    rwa [blocks_cons_mask frameIsMask]
  | separate _ _ _ _ ih =>
    rw [List.flatMap_append, depthAfter_append, ih]
    rfl
  | declare masks _ _ _ ih =>
    have frameIsMask : Frame.isIndented ⟨arrival.position, _⟩ = false :=
      Delimiter.isIndented_of_masksDeclaration masks
    rwa [blocks_cons_mask frameIsMask]
  | pass _ _ ih =>
    rw [List.flatMap_append, depthAfter_append, ih, List.flatMap_singleton]
    exact depthAfter_plain plain _
  | enter isBlock _ _ ih =>
    have frameIsBlock : Frame.isIndented ⟨arrival.next, _⟩ = true := isBlock
    rw [List.flatMap_append, depthAfter_append, ih, blocks_cons_block frameIsBlock]
    rfl

/-- No token puts another root on the stack. -/
theorem Moved.not_root (moved : Moved arrival before phase frames emitted)
    (rootless : ∀ frame ∈ before, frame.delimiter ≠ .root) :
    ∀ frame ∈ frames, frame.delimiter ≠ .root := by
  induction moved with
  | idle => exact rootless
  | close _ _ ih | unmask _ _ _ ih => exact (List.forall_mem_cons.mp ih).2
  | mask _ isMask _ ih =>
    exact List.forall_mem_cons.mpr ⟨Delimiter.ne_root_of_isMask isMask, ih⟩
  | declare masks _ _ _ ih =>
    exact List.forall_mem_cons.mpr ⟨Delimiter.ne_root_of_masksDeclaration masks, ih⟩
  | separate _ _ _ _ ih | pass _ _ ih => exact ih
  | @enter _ _ delimiter isBlock _ _ ih =>
    refine List.forall_mem_cons.mpr ⟨?_, ih⟩
    rintro rfl
    cases isBlock

/-! ## Tokens one by one -/

/-- A token that is fed to the stack, and what is told about the token behind it. -/
structure Feeding where
  unit : Qualified
  next : Position
  nextKind? : Option Kind

/-- Feeds tokens one by one: the stack behind the last, and everything emitted, in order. -/
def Stack.feedAll (config : Config) (stack : Stack) : List Feeding → Stack × List Qualified
  | [] => (stack, [])
  | feeding :: rest =>
    let (stack, emitted) := stack.feed config feeding.unit feeding.next feeding.nextKind?
    let (stack, more) := stack.feedAll config rest
    (stack, emitted ++ more)

theorem depthAfter_feed (stack : Stack) (config : Config) {unit : Qualified}
    (plain : unit.IsPlain) (next : Position) (nextKind? : Option Kind) :
    depthAfter Placed.role stack.openBlocks
        ((stack.feed config unit next nextKind?).2.flatMap Qualified.tokens) =
      some (stack.feed config unit next nextKind?).1.openBlocks := by
  obtain ⟨phase, -, moved⟩ := stack.feed_moved config unit next nextKind?
  exact moved.depthAfter_emitted plain

/-- Feeding plain tokens keeps the accounts. -/
theorem depthAfter_feedAll (config : Config) {feedings : List Feeding}
    (plain : ∀ feeding ∈ feedings, feeding.unit.IsPlain) (stack : Stack) :
    depthAfter Placed.role stack.openBlocks
        ((stack.feedAll config feedings).2.flatMap Qualified.tokens) =
      some (stack.feedAll config feedings).1.openBlocks := by
  induction feedings generalizing stack with
  | nil => rfl
  | cons feeding rest ih =>
    obtain ⟨first, others⟩ := List.forall_mem_cons.mp plain
    rw [Stack.feedAll, List.flatMap_append, depthAfter_append, depthAfter_feed stack config first]
    exact ih others _

theorem not_root_feedAll (config : Config) (feedings : List Feeding) {stack : Stack}
    (rootless : ∀ frame ∈ stack.inner, frame.delimiter ≠ .root) :
    ∀ frame ∈ (stack.feedAll config feedings).1.inner, frame.delimiter ≠ .root := by
  induction feedings generalizing stack with
  | nil => exact rootless
  | cons feeding rest ih =>
    obtain ⟨phase, -, moved⟩ :=
      stack.feed_moved config feeding.unit feeding.next feeding.nextKind?
    exact ih (moved.not_root rootless)

/-- Unwinding pays what the stack owes. -/
theorem depthAfter_unwind (stack : Stack) (stop : Position) :
    depthAfter Placed.role stack.openBlocks
      ((stack.unwind stop).flatMap Qualified.tokens) = some 0 := by
  change depthAfter Placed.role (blocks stack.inner) _ = some 0
  unfold Stack.unwind
  induction stack.inner with
  | nil => rfl
  | cons frame frames ih =>
    cases isBlock : frame.isIndented with
    | true =>
      rw [blocks_cons_block isBlock, List.filter_cons_of_pos isBlock]
      exact ih
    | false => rwa [blocks_cons_mask isBlock, List.filter_cons_of_neg (by simp [isBlock])]

/-! ## Whole lists of tokens -/

theorem depthAfter_applyFrom (config : Config) {units : List Qualified}
    (plain : ∀ unit ∈ units, unit.IsPlain) (stack : Stack) (stop : Position) :
    depthAfter Placed.role stack.openBlocks
      ((applyFrom config stack stop units).flatMap Qualified.tokens) = some 0 := by
  induction units generalizing stack stop with
  | nil => exact depthAfter_unwind stack stop
  | cons unit rest ih =>
    obtain ⟨first, others⟩ := List.forall_mem_cons.mp plain
    rw [applyFrom, List.flatMap_append, depthAfter_append, depthAfter_feed stack config first]
    exact ih others _ _

/-- Start and end tokens come in pairs, from the inside out. -/
def Balanced (tokens : List Placed) : Prop :=
  Nested Placed.role tokens ∧
    playing Placed.role .opens tokens = playing Placed.role .closes tokens

theorem balanced_of_depthAfter {tokens : List Placed}
    (leads : depthAfter Placed.role 0 tokens = some 0) : Balanced tokens := by
  have counted := playing_of_depthAfter leads
  exact ⟨nested_of_depthAfter leads, by omega⟩

theorem balanced_apply (config : Config) {units : List Qualified}
    (plain : ∀ unit ∈ units, unit.IsPlain) :
    Balanced ((apply config units).flatMap Qualified.tokens) :=
  balanced_of_depthAfter (depthAfter_applyFrom config plain .empty .zero)

theorem isLayout_of_mem_place {source : String} {raw : List Raw} {token : Placed}
    (plain : ∀ token ∈ raw, token.kind.isLayout = false) (member : token ∈ place source raw) :
    token.kind.isLayout = false := by
  have inside : token.kind ∈ raw.map Raw.kind := by
    rw [← map_kind_placeFrom source .zero raw]
    exact List.mem_map_of_mem member
  obtain ⟨rawToken, rawMember, same⟩ := List.mem_map.mp inside
  rw [← same]
  exact plain rawToken rawMember

/-- Of plain tokens, leading trivia and units are plain. -/
theorem plain_units (source : String) {raw : List Raw}
    (plain : ∀ token ∈ raw, token.kind.isLayout = false) :
    (∀ token ∈ (groupTrivia (place source raw)).1, token.kind.isLayout = false) ∧
      ∀ unit ∈ mergeQualifiers (groupTrivia (place source raw)).2, unit.IsPlain := by
  have placed : ∀ token ∈ place source raw, token.kind.isLayout = false :=
    fun token => isLayout_of_mem_place plain
  rw [← units_tokens (place source raw)] at placed
  obtain ⟨leading, others⟩ := List.forall_mem_append.mp placed
  exact ⟨leading, fun unit member token inside =>
    others token (List.mem_flatMap.mpr ⟨unit, member, inside⟩)⟩

theorem balanced_lexRaw (config : Config) (source : String) {raw : List Raw}
    (plain : ∀ token ∈ raw, token.kind.isLayout = false) :
    Balanced (lexRaw config source raw) := by
  obtain ⟨leading, units⟩ := plain_units source plain
  refine balanced_of_depthAfter ?_
  rw [lexRaw, depthAfter_append, depthAfter_plain leading]
  exact depthAfter_applyFrom config units .empty .zero

theorem balanced_lex (config : Config) (source : String) : Balanced (lex config source) :=
  balanced_lexRaw config source fun _ => isLayout_of_mem_scan

/-- The accounts of the layout rule. Whatever plain tokens are fed to it, the stack has one root,
at the bottom; no part of what is emitted ends more blocks than it starts; the blocks started and
not ended are those on the stack; and unwinding ends them. So blocks are balanced in the layout of
every list of plain tokens, and in every source as it is lexed. -/
theorem layout_keeps_accounts (config : Config) :
    (∀ (feedings : List Feeding) (stop : Position),
      (∀ feeding ∈ feedings, feeding.unit.IsPlain) →
        let fed := Stack.empty.feedAll config feedings
        let tokens := fed.2.flatMap Qualified.tokens
        fed.1.frames.head? = some rootFrame ∧
          fed.1.frames.filter (·.delimiter == .root) = [rootFrame] ∧
          (∀ front, front <+: tokens →
            playing Placed.role .closes front ≤ playing Placed.role .opens front) ∧
          playing Placed.role .opens tokens =
            playing Placed.role .closes tokens + fed.1.openBlocks ∧
          Balanced (tokens ++ (fed.1.unwind stop).flatMap Qualified.tokens)) ∧
      (∀ units : List Qualified, (∀ unit ∈ units, unit.IsPlain) →
        Balanced ((apply config units).flatMap Qualified.tokens)) ∧
      (∀ (source : String) (raw : List Raw), (∀ token ∈ raw, token.kind.isLayout = false) →
        Balanced (lexRaw config source raw)) ∧
      ∀ source : String, Balanced (lex config source) := by
  refine ⟨fun feedings stop plain => ?_, fun units => balanced_apply config,
    fun source raw => balanced_lexRaw config source, balanced_lex config⟩
  intro fed tokens
  have leads : depthAfter Placed.role 0 tokens = some fed.1.openBlocks :=
    depthAfter_feedAll config plain .empty
  have rootless : ∀ frame ∈ fed.1.inner, frame.delimiter ≠ .root :=
    not_root_feedAll config feedings (by simp [Stack.empty])
  have counted := playing_of_depthAfter leads
  refine ⟨rfl, ?_, fun front inFront => ?_, by omega, balanced_of_depthAfter ?_⟩
  · have none : fed.1.inner.reverse.filter (·.delimiter == .root) = [] :=
      List.filter_eq_nil_iff.mpr fun frame member => by
        simpa using rootless frame (List.mem_reverse.mp member)
    rw [Stack.frames, List.filter_cons, none]
    rfl
  · have bounded := playing_le_of_depthAfter leads inFront
    omega
  · rw [depthAfter_append, leads]
    exact depthAfter_unwind fed.1 stop

theorem layout_keeps_accounts_of_do :
    let unit := Qualified.plain (.bare ⟨.kwDo, .zero, ⟨0, 2, 2⟩⟩)
    let fed := Stack.empty.feedAll .default [⟨unit, ⟨1, 2, 5⟩, none⟩]
    unit.IsPlain ∧ fed.1.openBlocks = 1 ∧
      Balanced ((fed.2 ++ fed.1.unwind ⟨1, 3, 6⟩).flatMap Qualified.tokens) ∧
      Balanced ((apply .default [unit]).flatMap Qualified.tokens) ∧
      Balanced (lexRaw .default "do" [⟨.kwDo, 0, 2⟩]) := by
  obtain ⟨fed, units, raw, -⟩ := layout_keeps_accounts .default
  refine ⟨by decide, by decide, ?_, units _ (by decide), raw _ _ (by decide)⟩
  rw [List.flatMap_append]
  exact (fed _ _ (by decide)).2.2.2.2

end Layout

end Offside
