import Mathlib.Data.List.Basic
import Offside.Proofs.Token.Grouping

/-! # Tokens end to end

Placed tokens lie end to end from the start of the source on, at offsets that never decrease and
never leave the source, whatever ranges they were given. Units of such tokens start and end where
their tokens do.
-/

namespace Offside.Token

open Source

/-- Each token starts where the one before it ends, the first at `start`, and the last ends at
`stop`. -/
def Tiles (start : Position) : List Placed → Position → Prop
  | [], stop => start = stop
  | token :: rest, stop => token.start = start ∧ Tiles token.stop rest stop

theorem tiles_append {start stop : Position} {tokens more : List Placed} :
    Tiles start (tokens ++ more) stop ↔
      ∃ middle, Tiles start tokens middle ∧ Tiles middle more stop := by
  induction tokens generalizing start with
  | nil => simp [Tiles]
  | cons token rest ih => simp only [List.cons_append, Tiles, ih, and_assoc, exists_and_left]

/-- Tokens without width lie end to end where they are. -/
theorem tiles_of_forall_at {position : Position} {tokens : List Placed}
    (at_ : ∀ token ∈ tokens, token.start = position ∧ token.stop = position) :
    Tiles position tokens position := by
  induction tokens with
  | nil => rfl
  | cons token rest ih =>
    obtain ⟨first, others⟩ := List.forall_mem_cons.mp at_
    refine ⟨first.1, ?_⟩
    rw [first.2]
    exact ih others

namespace Tiles

variable {start stop : Position} {tokens : List Placed}

theorem start_eq (tiles : Tiles start tokens stop) {first : Placed}
    (leads : tokens.head? = some first) : first.start = start := by
  cases tokens with
  | nil => cases leads
  | cons token rest =>
    cases leads
    exact tiles.1

theorem stop_eq (tiles : Tiles start tokens stop) {last : Placed}
    (ends : tokens.getLast? = some last) : last.stop = stop := by
  obtain ⟨before, rfl⟩ := List.getLast?_eq_some_iff.mp ends
  obtain ⟨middle, -, -, same⟩ := tiles_append.mp tiles
  exact same

/-- Every token starts where the one before it ends. -/
theorem start_eq_stop (tiles : Tiles start tokens stop) {before after : List Placed}
    {token next : Placed} (split : tokens = before ++ token :: next :: after) :
    next.start = token.stop := by
  subst split
  obtain ⟨middle, -, -, same, -⟩ := tiles_append.mp tiles
  exact same

/-- What every token keeps from its start to its end holds at all of their ends. -/
theorem forall_ends (tiles : Tiles start tokens stop) (holds : Position → Prop)
    (first : holds start) (onward : ∀ token ∈ tokens, holds token.start → holds token.stop) :
    ∀ token ∈ tokens, holds token.start ∧ holds token.stop := by
  induction tokens generalizing start with
  | nil => simp
  | cons token rest ih =>
    obtain ⟨rfl, tiles⟩ := tiles
    obtain ⟨keeps, others⟩ := List.forall_mem_cons.mp onward
    have last := keeps first
    exact List.forall_mem_cons.mpr ⟨⟨first, last⟩, ih tiles last others⟩

/-- If no token goes back or leaves the source from where it starts, then none does. -/
theorem within (tiles : Tiles start tokens stop) {size : Nat} (inside : start.offset ≤ size)
    (onward : ∀ token ∈ tokens, token.start.offset ≤ size →
      token.start.offset ≤ token.stop.offset ∧ token.stop.offset ≤ size) :
    ∀ token ∈ tokens, token.start.offset ≤ token.stop.offset ∧ token.stop.offset ≤ size := by
  have ends := tiles.forall_ends (fun position => position.offset ≤ size) inside
    fun token member reached => (onward token member reached).2
  exact fun token member => onward token member (ends token member).1

/-- Offsets never decrease from one end of a token to the next. -/
theorem offsets_sorted (tiles : Tiles start tokens stop)
    (onward : ∀ token ∈ tokens, token.start.offset ≤ token.stop.offset) :
    (start.offset :: tokens.flatMap fun token => [token.start.offset, token.stop.offset]).Pairwise
      (· ≤ ·) := by
  induction tokens generalizing start with
  | nil => exact List.pairwise_singleton ..
  | cons token rest ih =>
    obtain ⟨same, tiles⟩ := tiles
    obtain ⟨first, others⟩ := List.forall_mem_cons.mp onward
    have sorted := ih tiles others
    have later := (List.pairwise_cons.mp sorted).1
    have fromStart : ∀ offset ∈ token.stop.offset ::
        rest.flatMap (fun token => [token.start.offset, token.stop.offset]),
        token.start.offset ≤ offset :=
      List.forall_mem_cons.mpr ⟨first, fun offset member => Nat.le_trans first (later _ member)⟩
    rw [← same, List.flatMap_cons]
    refine List.pairwise_cons.mpr ⟨List.forall_mem_cons.mpr ⟨Nat.le_refl _, fromStart⟩, ?_⟩
    exact List.pairwise_cons.mpr ⟨fromStart, sorted⟩

/-- If no token goes back to an earlier line, then all of them together do not. -/
theorem line_le (tiles : Tiles start tokens stop)
    (onward : ∀ token ∈ tokens, token.start.line ≤ token.stop.line) : start.line ≤ stop.line := by
  induction tokens generalizing start with
  | nil => exact Nat.le_of_eq (congrArg Position.line tiles)
  | cons token rest ih =>
    obtain ⟨same, tiles⟩ := tiles
    obtain ⟨first, others⟩ := List.forall_mem_cons.mp onward
    rw [← same]
    exact Nat.le_trans first (ih tiles others)

end Tiles

/-! ## Placed tokens -/

theorem offset_advance (source : String) (start : Position) (offset : Nat) :
    (advance source start offset).offset =
      max start.offset (min offset source.utf8ByteSize) := by
  simp only [advance, positionAfter]
  split <;> rfl

theorem line_le_advance (source : String) (start : Position) (offset : Nat) :
    start.line ≤ (advance source start offset).line := by
  simp only [advance, positionAfter]
  split
  · exact Nat.le_refl _
  · exact Nat.le_add_right ..

/-- Whatever their ranges, no token ends on a line before the one it starts on. -/
theorem line_le_placeFrom (source : String) (start : Position) (raw : List Raw) :
    ∀ token ∈ placeFrom source start raw, token.start.line ≤ token.stop.line := by
  induction raw generalizing start with
  | nil => simp [placeFrom]
  | cons token rest ih =>
    exact List.forall_mem_cons.mpr ⟨line_le_advance source start token.stop, ih _⟩

/-- Any tokens are placed end to end. -/
theorem tiles_placeFrom (source : String) (start : Position) (raw : List Raw) :
    ∃ stop, Tiles start (placeFrom source start raw) stop := by
  induction raw generalizing start with
  | nil => exact ⟨start, rfl⟩
  | cons token rest ih =>
    obtain ⟨stop, tiles⟩ := ih (advance source start token.stop)
    exact ⟨stop, rfl, tiles⟩

/-- Whatever their ranges, tokens are placed at offsets that the source has. -/
theorem within_placeFrom {source : String} {start : Position} (raw : List Raw)
    (inside : start.offset ≤ source.utf8ByteSize) :
    ∀ token ∈ placeFrom source start raw, token.start.offset ≤ token.stop.offset ∧
      token.stop.offset ≤ source.utf8ByteSize := by
  induction raw generalizing start with
  | nil => simp [placeFrom]
  | cons token rest ih =>
    have moved := offset_advance source start token.stop
    have onward : start.offset ≤ (advance source start token.stop).offset := by omega
    have inside : (advance source start token.stop).offset ≤ source.utf8ByteSize := by omega
    exact List.forall_mem_cons.mpr ⟨⟨onward, inside⟩, ih inside⟩

/-! ## Units -/

theorem Lexeme.getLast?_tokens (lexeme : Lexeme) :
    lexeme.tokens.getLast?.map Placed.stop = some lexeme.stop := by
  unfold Lexeme.tokens Lexeme.stop
  rw [List.getLast?_cons]
  cases lexeme.trailing.getLast? <;> rfl

namespace Qualified

variable {unit : Qualified} {start stop : Position}

/-- A unit starts where its tokens do. -/
theorem start_of_tiles (some : unit.lexemes ≠ []) (tiles : Tiles start unit.tokens stop) :
    unit.start = start := by
  obtain ⟨lexeme, rest, lexemes⟩ := List.exists_cons_of_ne_nil some
  have leads : unit.tokens.head? = Option.some lexeme.token := by
    rw [tokens, lexemes]
    rfl
  rw [← tiles.start_eq leads, Qualified.start, lexemes]
  rfl

/-- A unit ends where its tokens do. -/
theorem stop_of_tiles (some : unit.lexemes ≠ []) (tiles : Tiles start unit.tokens stop) :
    unit.stop = stop := by
  obtain ⟨lexeme, ends⟩ := Option.isSome_iff_exists.mp (List.getLast?_isSome.mpr some)
  obtain ⟨before, lexemes⟩ := List.getLast?_eq_some_iff.mp ends
  have split : unit.tokens = before.flatMap Lexeme.tokens ++ lexeme.tokens := by
    rw [tokens, lexemes, List.flatMap_append, List.flatMap_singleton]
  obtain ⟨last, found, same⟩ := Option.map_eq_some_iff.mp lexeme.getLast?_tokens
  have lastOfAll : unit.tokens.getLast? = Option.some last := by
    rw [split, List.getLast?_append, found]
    rfl
  rw [← tiles.stop_eq lastOfAll, same, Qualified.stop, ends]

end Qualified

end Offside.Token
