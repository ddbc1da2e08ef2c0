import Mathlib.Data.List.TakeWhile
import Offside.Parse.Event
import Offside.Proofs.Sorting

/-! # What splicing comes to

Wraps are sorted by place before they are put into the log, and those of one place stay in order.
So every event has in front of it the nodes opened at its place, the last of them outermost,
whatever was opened elsewhere.
-/

namespace Offside.Parse

/-- The nodes opened in front of the event at a place, the last of them outermost. -/
def opened (wraps : List Wrap) (place : Nat) : List Event :=
  (wraps.filter (·.place == place)).reverse.map fun wrap => .start wrap.kind

/-- The events from `base` on, each behind the nodes opened in front of it. -/
def inserted (wraps : List Wrap) (base : Nat) : List Event → List Event
  | [] => []
  | event :: rest => opened wraps base ++ event :: inserted wraps (base + 1) rest

theorem opened_append (wraps more : List Wrap) (place : Nat) :
    opened (wraps ++ more) place = opened more place ++ opened wraps place := by
  simp only [opened, List.filter_append, List.reverse_append, List.map_append]

theorem opened_eq_nil {wraps : List Wrap} {place : Nat}
    (elsewhere : ∀ wrap ∈ wraps, wrap.place ≠ place) : opened wraps place = [] := by
  have none : wraps.filter (·.place == place) = [] :=
    List.filter_eq_nil_iff.mpr fun wrap member => by simpa using elsewhere wrap member
  simp only [opened, none, List.reverse_nil, List.map_nil]

/-- A node opened later starts further out. -/
theorem opened_concat (wraps : List Wrap) (place : Nat) (kind : Syntax.Kind) :
    opened (wraps ++ [⟨place, kind⟩]) place = .start kind :: opened wraps place := by
  simp [opened]

theorem opened_concat_of_ne (wraps : List Wrap) {place other : Nat} (kind : Syntax.Kind)
    (elsewhere : other ≠ place) : opened (wraps ++ [⟨place, kind⟩]) other = opened wraps other := by
  rw [opened_append, opened_eq_nil (by simpa using elsewhere.symm), List.nil_append]

@[simp] theorem count_token_opened (wraps : List Wrap) (place : Nat) :
    (opened wraps place).count .token = 0 := by
  refine List.count_eq_zero.mpr fun member => ?_
  obtain ⟨wrap, -, impossible⟩ := List.mem_map.mp member
  cases impossible

theorem inserted_nil (base : Nat) (events : List Event) : inserted [] base events = events := by
  induction events generalizing base with
  | nil => rfl
  | cons event rest ih => exact congrArg (event :: ·) (ih _)

theorem inserted_append (wraps : List Wrap) (base : Nat) (events later : List Event) :
    inserted wraps base (events ++ later) =
      inserted wraps base events ++ inserted wraps (base + events.length) later := by
  induction events generalizing base with
  | nil => rfl
  | cons event rest ih =>
    rw [List.cons_append, inserted, inserted, ih, List.append_assoc, List.cons_append,
      List.length_cons, Nat.add_right_comm, Nat.add_assoc]

/-- Only nodes opened in front of the events themselves matter. -/
theorem inserted_congr {wraps other : List Wrap} {base : Nat} {events : List Event}
    (same : ∀ place, base ≤ place → place < base + events.length →
      opened wraps place = opened other place) :
    inserted wraps base events = inserted other base events := by
  induction events generalizing base with
  | nil => rfl
  | cons event rest ih =>
    rw [List.length_cons] at same
    rw [inserted, inserted, same base (Nat.le_refl base) (by omega),
      ih fun place low high => same place (by omega) (by omega)]

/-- How many nodes are opened has nothing to do with what the events are. -/
theorem length_inserted_congr (wraps : List Wrap) (base : Nat) {events other : List Event}
    (same : events.length = other.length) :
    (inserted wraps base events).length = (inserted wraps base other).length := by
  induction events generalizing base other with
  | nil => rw [List.eq_nil_of_length_eq_zero same.symm]
  | cons event rest ih =>
    cases other with
    | nil => cases same
    | cons first others =>
      simp only [inserted, List.length_append, List.length_cons, ih _ (Nat.succ.inj same)]

/-- A node opened in front of the first event starts in front of all there is. -/
theorem inserted_concat (wraps : List Wrap) (base : Nat) (kind : Syntax.Kind) {events : List Event}
    (some : events ≠ []) :
    inserted (wraps ++ [⟨base, kind⟩]) base events = .start kind :: inserted wraps base events := by
  cases events with
  | nil => cases some rfl
  | cons event rest =>
    have onward : inserted (wraps ++ [⟨base, kind⟩]) (base + 1) rest =
        inserted wraps (base + 1) rest :=
      inserted_congr fun place behind _ => opened_concat_of_ne wraps kind (Nat.ne_of_gt behind)
    rw [inserted, inserted, opened_concat, onward, List.cons_append]

/-- A node opened behind the events is not among them. -/
theorem inserted_concat_of_le (wraps : List Wrap) {base place : Nat} (kind : Syntax.Kind)
    {events : List Event} (behind : base + events.length ≤ place) :
    inserted (wraps ++ [⟨place, kind⟩]) base events = inserted wraps base events :=
  inserted_congr fun _ _ before =>
    opened_concat_of_ne wraps kind (Nat.ne_of_lt (Nat.lt_of_lt_of_le before behind))

/-- Taking a word is never opened after the fact. -/
theorem count_token_inserted (wraps : List Wrap) (base : Nat) (events : List Event) :
    (inserted wraps base events).count .token = events.count .token := by
  induction events generalizing base with
  | nil => rfl
  | cons event rest ih =>
    rw [inserted, List.count_append, count_token_opened, Nat.zero_add, List.count_cons,
      List.count_cons, ih]

/-! ## Sorting by place -/

/-- Of pending wraps sorted by place, the first few are those of the first place. -/
private theorem opened_pending {pending : List Wrap} {index : Nat}
    (sorted : pending.Pairwise fun first second => first.place ≤ second.place)
    (ahead : ∀ wrap ∈ pending, index ≤ wrap.place) :
    opened pending.reverse index =
        (pending.takeWhile (·.place == index)).map (fun wrap => .start wrap.kind) ∧
      ∀ wrap ∈ pending.dropWhile (·.place == index), index < wrap.place := by
  induction pending with
  | nil => simp [opened]
  | cons wrap rest ih =>
    obtain ⟨first, sorted⟩ := List.pairwise_cons.mp sorted
    obtain ⟨here, ahead⟩ := List.forall_mem_cons.mp ahead
    rw [List.reverse_cons, opened_append]
    cases same : wrap.place == index with
    | true =>
      obtain ⟨taken, dropped⟩ := ih sorted ahead
      simp only [taken, List.takeWhile_cons, List.dropWhile_cons, same, ↓reduceIte]
      exact ⟨by simp [opened, same], dropped⟩
    | false =>
      have later : index < wrap.place :=
        Nat.lt_of_le_of_ne here fun equal => by simp [equal] at same
      have laterAll : ∀ other ∈ rest, index < other.place := fun other member =>
        Nat.lt_of_lt_of_le later (first other member)
      have none : opened rest.reverse index = [] := opened_eq_nil fun other member =>
        Nat.ne_of_gt (laterAll other (List.mem_reverse.mp member))
      simp only [none, List.takeWhile_cons, List.dropWhile_cons, same, Bool.false_eq_true,
        ↓reduceIte]
      exact ⟨by simp [opened, same], List.forall_mem_cons.mpr ⟨later, laterAll⟩⟩

private theorem spliceFrom_eq {pending : List Wrap} {index : Nat} {events : List Event}
    (sorted : pending.Pairwise fun first second => first.place ≤ second.place)
    (bounds : ∀ wrap ∈ pending, index ≤ wrap.place ∧ wrap.place ≤ index + events.length) :
    spliceFrom index pending events =
      inserted pending.reverse index events ++ opened pending.reverse (index + events.length) := by
  induction events generalizing pending index with
  | nil =>
    have here : ∀ wrap ∈ pending.reverse, (wrap.place == index) = true := by
      intro wrap member
      have bound := bounds wrap (List.mem_reverse.mp member)
      rw [List.length_nil] at bound
      exact beq_iff_eq.mpr (by omega)
    simp only [spliceFrom, inserted, opened, List.length_nil, Nat.add_zero, List.nil_append,
      List.filter_eq_self.mpr here, List.reverse_reverse]
  | cons event rest ih =>
    obtain ⟨here, later⟩ := opened_pending sorted fun wrap member => (bounds wrap member).1
    have onward : ∀ place, index + 1 ≤ place →
        opened (pending.dropWhile (·.place == index)).reverse place =
          opened pending.reverse place := by
      intro place low
      have whole : (pending.dropWhile (·.place == index)).reverse ++
          (pending.takeWhile (·.place == index)).reverse = pending.reverse := by
        rw [← List.reverse_append, List.takeWhile_append_dropWhile]
      have earlier : opened (pending.takeWhile (·.place == index)).reverse place = [] :=
        opened_eq_nil fun wrap member => by
          have here := List.mem_takeWhile_imp (List.mem_reverse.mp member)
          rw [beq_iff_eq] at here
          omega
      rw [← whole, opened_append, earlier, List.nil_append]
    have inBounds : ∀ wrap ∈ pending.dropWhile (·.place == index),
        index + 1 ≤ wrap.place ∧ wrap.place ≤ index + 1 + rest.length := by
      intro wrap member
      have bound := bounds wrap (List.dropWhile_sublist _ |>.subset member)
      rw [List.length_cons] at bound
      have behind := later wrap member
      omega
    rw [spliceFrom, inserted, here, ih (sorted.sublist (List.dropWhile_sublist _)) inBounds,
      inserted_congr fun place low _ => onward place low, onward _ (by omega),
      List.length_cons, Nat.add_assoc, Nat.add_comm 1, List.append_assoc, List.cons_append]

/-- Every event has in front of it the nodes opened at its place. Those opened behind all events
come last. -/
theorem splice_eq {events : List Event} {wraps : List Wrap}
    (places : ∀ wrap ∈ wraps, wrap.place ≤ events.length) :
    splice events wraps = inserted wraps 0 events ++ opened wraps events.length := by
  have sorted := pairwise_mergeSort_key Wrap.place wraps.reverse
  have same : ∀ place,
      opened (wraps.reverse.mergeSort fun first second => first.place ≤ second.place).reverse
        place = opened wraps place := by
    intro place
    simp only [opened, List.filter_reverse, filter_mergeSort_key Wrap.place,
      List.reverse_reverse]
  rw [splice, spliceFrom_eq sorted, same, inserted_congr fun place _ _ => same place, Nat.zero_add]
  intro wrap member
  have place := places wrap (List.mem_reverse.mp (List.mem_mergeSort.mp member))
  omega

/-- Where every node has an event behind it, that is all there is. -/
theorem splice_eq_inserted {events : List Event} {wraps : List Wrap}
    (places : ∀ wrap ∈ wraps, wrap.place < events.length) :
    splice events wraps = inserted wraps 0 events := by
  have none : opened wraps events.length = [] :=
    opened_eq_nil fun wrap member => Nat.ne_of_lt (places wrap member)
  rw [splice_eq fun wrap member => Nat.le_of_lt (places wrap member), none, List.append_nil]

end Offside.Parse
