import Offside.Proofs.Layout.Balance
import Offside.Proofs.Layout.Emission
import Offside.Proofs.Token.Tiling

/-! # Lexing is conservative

The layout rule only inserts tokens without width, each where a token starts or ends. Leaving them
out gives back the placed tokens, and with them the tokens still lie end to end.
-/

namespace Offside

open Source Token Layout

/-! ## Tokens of the layout rule -/

/-- The tokens of layout units at a position. -/
def AreInserted (position : Position) (units : List Qualified) : Prop :=
  ∀ token ∈ units.flatMap Qualified.tokens,
    token.kind.isLayout = true ∧ token.start = position ∧ token.stop = position

theorem areInserted_points {position : Position} {units : List Qualified}
    (points : ∀ unit ∈ units, ∃ kind : Kind, kind.isLayout = true ∧ unit = .point kind position) :
    AreInserted position units := by
  intro token member
  obtain ⟨unit, inside, member⟩ := List.mem_flatMap.mp member
  obtain ⟨kind, isLayout, rfl⟩ := points unit inside
  obtain rfl : token = .point kind position := List.mem_singleton.mp member
  exact ⟨isLayout, rfl, rfl⟩

/-- What is emitted for a token besides the token itself is inserted around it. -/
theorem feed_inserted (stack : Stack) (config : Config) (unit : Qualified) (next : Position)
    (nextKind? : Option Kind) :
    ∃ front behind, (stack.feed config unit next nextKind?).2 = front ++ unit :: behind ∧
      AreInserted unit.start front ∧ AreInserted next behind := by
  obtain ⟨ends, separates, opens, emitted⟩ := stack.feed_emitted config unit next nextKind?
  refine ⟨_, _, emitted, areInserted_points fun inserted member => ?_,
    areInserted_points fun inserted member => ?_⟩
  · rcases List.mem_append.mp member with ending | separator
    · exact ⟨.layoutEnd, rfl, List.eq_of_mem_replicate ending⟩
    · cases separates with
      | true => exact ⟨.layoutSep, rfl, List.mem_singleton.mp separator⟩
      | false => cases separator
  · cases opens with
    | true => exact ⟨.layoutStart, rfl, List.mem_singleton.mp member⟩
    | false => cases member

theorem areInserted_unwind (stack : Stack) (stop : Position) :
    AreInserted stop (stack.unwind stop) := by
  refine areInserted_points fun unit member => ?_
  obtain ⟨frame, -, rfl⟩ := List.mem_map.mp member
  exact ⟨.layoutEnd, rfl, rfl⟩

namespace AreInserted

variable {position : Position} {units : List Qualified}

theorem filter_eq_nil (inserted : AreInserted position units) :
    (units.flatMap Qualified.tokens).filter (fun token => !token.kind.isLayout) = [] :=
  List.filter_eq_nil_iff.mpr fun token member => by simp [(inserted token member).1]

theorem tiles (inserted : AreInserted position units) :
    Tiles position (units.flatMap Qualified.tokens) position :=
  tiles_of_forall_at fun token member => (inserted token member).2

theorem start_eq_stop (inserted : AreInserted position units) {token : Placed}
    (member : token ∈ units.flatMap Qualified.tokens) : token.start = token.stop :=
  (inserted token member).2.1.trans (inserted token member).2.2.symm

end AreInserted

/-! ## The layout of tokens end to end -/

variable {config : Config} {units : List Qualified}

/-- Leaving layout tokens out gives the tokens back. -/
theorem filter_applyFrom (plain : ∀ unit ∈ units, unit.IsPlain) (stack : Stack)
    (stop : Position) :
    ((applyFrom config stack stop units).flatMap Qualified.tokens).filter
        (fun token => !token.kind.isLayout) = units.flatMap Qualified.tokens := by
  induction units generalizing stack stop with
  | nil => exact (areInserted_unwind stack stop).filter_eq_nil
  | cons unit rest ih =>
    obtain ⟨first, others⟩ := List.forall_mem_cons.mp plain
    obtain ⟨front, behind, emitted, inFront, after⟩ :=
      feed_inserted stack config unit unit.stop (rest.head?.bind Qualified.firstKind?)
    have kept : unit.tokens.filter (fun token => !token.kind.isLayout) = unit.tokens :=
      List.filter_eq_self.mpr fun token member => by simp [first token member]
    rw [applyFrom, List.flatMap_append, List.filter_append, ih others, emitted,
      List.flatMap_append, List.flatMap_cons, List.filter_append, List.filter_append,
      inFront.filter_eq_nil, kept, after.filter_eq_nil, List.flatMap_cons, List.nil_append,
      List.append_nil]

/-- Layout tokens have no width. -/
theorem start_eq_stop_of_applyFrom (plain : ∀ unit ∈ units, unit.IsPlain) (stack : Stack)
    (stop : Position) {token : Placed}
    (member : token ∈ (applyFrom config stack stop units).flatMap Qualified.tokens)
    (isLayout : token.kind.isLayout = true) : token.start = token.stop := by
  induction units generalizing stack stop with
  | nil => exact (areInserted_unwind stack stop).start_eq_stop member
  | cons unit rest ih =>
    obtain ⟨first, others⟩ := List.forall_mem_cons.mp plain
    obtain ⟨front, behind, emitted, inFront, after⟩ :=
      feed_inserted stack config unit unit.stop (rest.head?.bind Qualified.firstKind?)
    rw [applyFrom, List.flatMap_append, emitted, List.flatMap_append, List.flatMap_cons] at member
    rcases List.mem_append.mp member with here | later
    · rcases List.mem_append.mp here with frontMember | here
      · exact inFront.start_eq_stop frontMember
      · rcases List.mem_append.mp here with own | behindMember
        · cases (first token own).symm.trans isLayout
        · exact after.start_eq_stop behindMember
    · exact ih others _ _ later

/-- Tokens that lie end to end still do with layout tokens between them. -/
theorem tiles_applyFrom (some : ∀ unit ∈ units, unit.lexemes ≠ []) (stack : Stack)
    {start last stop : Position} (tiles : Tiles start (units.flatMap Qualified.tokens) last)
    (reached : stop = start ∨ stack.openBlocks = 0) :
    Tiles start ((applyFrom config stack stop units).flatMap Qualified.tokens) last := by
  induction units generalizing stack start stop with
  | nil =>
    obtain rfl : start = last := tiles
    rcases reached with rfl | none
    · exact (areInserted_unwind stack stop).tiles
    · have nothing : stack.inner.filter Frame.isIndented = [] := by
        rwa [← List.length_eq_zero_iff, ← List.countP_eq_length_filter]
      simp [applyFrom, Stack.unwind, nothing, Tiles]
  | cons unit rest ih =>
    obtain ⟨first, others⟩ := List.forall_mem_cons.mp some
    obtain ⟨middle, own, onward⟩ := tiles_append.mp tiles
    obtain ⟨front, behind, emitted, inFront, after⟩ :=
      feed_inserted stack config unit unit.stop (rest.head?.bind Qualified.firstKind?)
    obtain rfl := Qualified.start_of_tiles first own
    obtain rfl := Qualified.stop_of_tiles first own
    rw [applyFrom, List.flatMap_append, emitted, List.flatMap_append, List.flatMap_cons]
    refine tiles_append.mpr ⟨unit.stop, ?_, ih others _ onward (.inl rfl)⟩
    exact tiles_append.mpr ⟨unit.start, inFront.tiles,
      tiles_append.mpr ⟨unit.stop, own, after.tiles⟩⟩

/-! ## Lexing -/

section

variable {source : String} {raw : List Raw}

/-- The tokens lie end to end from the start of the source on. -/
theorem exists_tiles_lexRaw (config : Config) (source : String) (raw : List Raw) :
    ∃ last, Tiles .zero (lexRaw config source raw) last := by
  obtain ⟨last, tiles⟩ := tiles_placeFrom source .zero raw
  rw [← place, ← units_tokens (place source raw)] at tiles
  obtain ⟨middle, front, onward⟩ := tiles_append.mp tiles
  exact ⟨last, tiles_append.mpr ⟨middle, front,
    tiles_applyFrom (fun _ => lexemes_ne_nil) .empty onward (.inr rfl)⟩⟩

variable (config : Config) (plain : ∀ token ∈ raw, token.kind.isLayout = false)

include plain

/-- Without layout tokens they are the placed tokens. -/
theorem filter_lexRaw :
    (lexRaw config source raw).filter (fun token => !token.kind.isLayout) = place source raw := by
  obtain ⟨leadingPlain, unitsPlain⟩ := plain_units source plain
  have leadingKept : (groupTrivia (place source raw)).1.filter
      (fun token => !token.kind.isLayout) = (groupTrivia (place source raw)).1 :=
    List.filter_eq_self.mpr fun token member => by simp [leadingPlain token member]
  rw [lexRaw, List.filter_append, leadingKept, apply, filter_applyFrom unitsPlain, units_tokens]

theorem start_eq_stop_of_lexRaw {token : Placed} (member : token ∈ lexRaw config source raw)
    (isLayout : token.kind.isLayout = true) : token.start = token.stop := by
  obtain ⟨leadingPlain, unitsPlain⟩ := plain_units source plain
  rcases List.mem_append.mp member with inFront | later
  · cases (leadingPlain token inFront).symm.trans isLayout
  · exact start_eq_stop_of_applyFrom unitsPlain .empty .zero later isLayout

/-- None of them ends before it starts or behind the source. -/
theorem within_lexRaw : ∀ token ∈ lexRaw config source raw,
    token.start.offset ≤ token.stop.offset ∧ token.stop.offset ≤ source.utf8ByteSize := by
  obtain ⟨last, tiles⟩ := exists_tiles_lexRaw config source raw
  refine tiles.within (Nat.zero_le _) fun token member inside => ?_
  cases isLayout : token.kind.isLayout with
  | true =>
    have same := start_eq_stop_of_lexRaw config plain member isLayout
    exact ⟨Nat.le_of_eq (congrArg Position.offset same), same ▸ inside⟩
  | false =>
    have placed : token ∈ place source raw := by
      rw [← filter_lexRaw config plain]
      exact List.mem_filter.mpr ⟨member, by simp [isLayout]⟩
    exact within_placeFrom raw (Nat.zero_le _) token placed

theorem offsets_sorted_lexRaw : ((lexRaw config source raw).flatMap fun token =>
    [token.start.offset, token.stop.offset]).Pairwise (· ≤ ·) := by
  obtain ⟨last, tiles⟩ := exists_tiles_lexRaw config source raw
  have sorted := tiles.offsets_sorted fun token member =>
    (within_lexRaw config plain token member).1
  exact (List.pairwise_cons.mp sorted).2

end

/-- Lexing only inserts layout tokens. Leaving them out gives back the placed tokens in order, so
there are no fewer tokens than before; they have no width; the tokens lie end to end from the start
of the source on; and their offsets never decrease and never leave the source. -/
theorem lexRaw_conservative (config : Config) (source : String) (raw : List Raw)
    (plain : ∀ token ∈ raw, token.kind.isLayout = false) :
    let tokens := lexRaw config source raw
    tokens.filter (fun token => !token.kind.isLayout) = place source raw ∧
      raw.length ≤ tokens.length ∧
      (∀ token ∈ tokens, token.kind.isLayout = true → token.start = token.stop) ∧
      (∀ token, tokens.head? = some token → token.start = .zero) ∧
      (∀ before token next after, tokens = before ++ token :: next :: after →
        next.start = token.stop) ∧
      (tokens.flatMap fun token => [token.start.offset, token.stop.offset]).Pairwise (· ≤ ·) ∧
      ∀ token ∈ tokens, token.stop.offset ≤ source.utf8ByteSize := by
  intro tokens
  have kept : tokens.filter (fun token => !token.kind.isLayout) = place source raw :=
    filter_lexRaw config plain
  obtain ⟨last, tiles⟩ := exists_tiles_lexRaw config source raw
  refine ⟨kept, ?_, fun _ => start_eq_stop_of_lexRaw config plain,
    fun _ leads => tiles.start_eq leads, fun _ _ _ _ split => tiles.start_eq_stop split,
    offsets_sorted_lexRaw config plain,
    fun token member => (within_lexRaw config plain token member).2⟩
  have placed : (place source raw).length = raw.length := by
    have kinds := congrArg List.length (map_kind_placeFrom source .zero raw)
    simpa only [place, List.length_map] using kinds
  rw [← placed, ← kept]
  exact List.length_filter_le ..

theorem lexRaw_conservative_of_backwards :
    let raw : List Raw := [⟨.kwDo, 0, 2⟩, ⟨.whitespace, 2, 9⟩, ⟨.lowerName, 4, 1⟩]
    let tokens := lexRaw .default "do é" raw
    (∀ token ∈ raw, token.kind.isLayout = false) ∧
      tokens.filter (fun token => !token.kind.isLayout) = place "do é" raw ∧
      (tokens.flatMap fun token => [token.start.offset, token.stop.offset]).Pairwise (· ≤ ·) := by
  have plain : ∀ token ∈ [⟨.kwDo, 0, 2⟩, ⟨.whitespace, 2, 9⟩, ⟨.lowerName, 4, 1⟩],
      Kind.isLayout (Raw.kind token) = false := by decide
  obtain ⟨kept, -, -, -, -, sorted, -⟩ := lexRaw_conservative .default "do é" _ plain
  exact ⟨plain, kept, sorted⟩

end Offside
