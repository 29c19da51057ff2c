import Caseload.Window

/-!
# Moving windows

Where windows come from and what moving them does.  A window is reached from an accepted offset and
limit by moves, none of which changes the limit, so the limit of a reached window is a signed word.
Only the offset can run against the end of the words: as long as the sum of offset and limit is one,
the next window begins where this one ends (`next_offset`) and its previous window is this one
(`previous_next`).  The other way round, a window that begins with less than a page in front of it
is not the next one of its previous window (`next_previous_iff`).
-/

namespace Caseload.Window

/-- Windows that a request can begin with, and where moving leads from them. -/
inductive Reached : Window → Prop
  | start {offset limit : Int64} {w : Window} : ofRequest offset limit = .ok w → Reached w
  | next {w : Window} : Reached w → Reached w.next
  | previous {w : Window} : Reached w → Reached w.previous
  | first {w : Window} : Reached w → Reached w.first

theorem ofRequest_eq_ok_iff {offset limit : Int64} {w : Window} :
    ofRequest offset limit = .ok w ↔
      0 ≤ offset.toInt ∧ 1 ≤ limit.toInt ∧ w.offset = offset.toInt.toNat ∧
        w.limit = limit.toInt.toNat := by
  obtain ⟨o, l, _, _, _⟩ := w
  unfold ofRequest
  split
  next negative =>
    refine iff_of_false (by simp) fun accepted => ?_
    exact absurd accepted.1 (by omega)
  next nonnegative =>
    split
    next noRoom =>
      refine iff_of_false (by simp) fun accepted => ?_
      exact absurd accepted.2.1 (by omega)
    next room =>
      simp only [Except.ok.injEq, Window.mk.injEq]
      constructor
      · rintro ⟨rfl, rfl⟩
        exact ⟨by omega, by omega, rfl, rfl⟩
      · rintro ⟨-, -, rfl, rfl⟩
        exact ⟨rfl, rfl⟩

theorem ofRequest_eq_error_iff {offset limit : Int64} {e : Error} :
    ofRequest offset limit = .error e ↔
      offset.toInt < 0 ∧ e = .negativeOffset offset ∨
        0 ≤ offset.toInt ∧ limit.toInt < 1 ∧ e = .limitBelowOne limit := by
  unfold ofRequest
  split
  next negative => simp [negative, Int.not_le.mpr negative, eq_comm]
  next nonnegative =>
    split
    next noRoom => simp [nonnegative, Int.not_lt.mp nonnegative, noRoom, eq_comm]
    next room => simp [nonnegative, room]

theorem exists_ofRequest_eq_ok_iff {offset limit : Int64} :
    (∃ w, ofRequest offset limit = .ok w) ↔ 0 ≤ offset.toInt ∧ 1 ≤ limit.toInt := by
  constructor
  · rintro ⟨w, accepted⟩
    obtain ⟨nonnegative, room, -⟩ := ofRequest_eq_ok_iff.mp accepted
    exact ⟨nonnegative, room⟩
  · rintro ⟨nonnegative, room⟩
    simp [ofRequest, Int.not_lt.mpr nonnegative, Int.not_lt.mpr room]

/-- No move changes the limit, and the one to begin with is a signed word. -/
theorem Reached.limit_le {w : Window} (reached : w.Reached) : w.limit ≤ maxSigned := by
  induction reached with
  | @start offset limit w accepted =>
    obtain ⟨-, -, -, eq⟩ := ofRequest_eq_ok_iff.mp accepted
    have bound := limit.toInt_lt
    rw [eq, maxSigned]
    omega
  | next _ ih | previous _ ih | first _ ih => exact ih

/-! ## The next window -/

theorem hasNext_iff (w : Window) {total : Nat} (word : total ≤ maxWord) :
    w.hasNext total = true ↔ w.offset + w.limit < total := by
  rw [hasNext, decide_eq_true_eq, nextOffset]
  omega

theorem next_offset {w : Window} (fits : w.offset + w.limit ≤ maxWord) :
    w.next.offset = w.offset + w.limit :=
  Nat.min_eq_left fits

theorem next_limit (w : Window) : w.next.limit = w.limit :=
  rfl

theorem previous_next {w : Window} (fits : w.offset + w.limit ≤ maxWord) :
    w.next.previous = w := by
  have offset : w.next.previous.offset = w.offset := by
    change w.next.offset - w.limit = w.offset
    rw [next_offset fits]
    omega
  obtain ⟨o, l, _, _, _⟩ := w
  rw [Window.mk.injEq]
  exact ⟨offset, rfl⟩

theorem hasPrevious_next {w : Window} (fits : w.offset + w.limit ≤ maxWord) :
    w.next.hasPrevious = true := by
  have room := w.limit_pos
  rw [hasPrevious, decide_eq_true_eq, next_offset fits]
  omega

theorem pageNumber_next {w : Window} (fits : w.offset + w.limit ≤ maxWord) :
    w.next.pageNumber = w.pageNumber + 1 := by
  rw [pageNumber, next_offset fits, next_limit, Nat.add_div_right _ w.limit_pos]
  rfl

/-! ## The previous window -/

theorem next_previous_iff (w : Window) : w.previous.next = w ↔ w.limit ≤ w.offset := by
  obtain ⟨o, l, word, _, room⟩ := w
  simp only [previous, next, nextOffset, Window.mk.injEq, and_true]
  omega

theorem pageNumber_previous {w : Window} (positive : 0 < w.pageNumber) :
    w.previous.pageNumber = w.pageNumber - 1 := by
  have whole : w.limit ≤ w.offset := (Nat.div_pos_iff.mp positive).2
  have back : w.pageNumber = (w.offset - w.limit) / w.limit + 1 :=
    Nat.div_eq_sub_div w.limit_pos whole
  rw [back]
  rfl

theorem hasPrevious_eq_false_iff (w : Window) : w.hasPrevious = false ↔ w = w.first := by
  obtain ⟨o, l, _, _, _⟩ := w
  simp [hasPrevious, first]

/-! ## Moves -/

/-- A way from a window to another one. -/
inductive Move
  | next
  | previous
  | first

def move (w : Window) : Move → Window
  | .next => w.next
  | .previous => w.previous
  | .first => w.first

/-- The window at the end of some moves. -/
def after (w : Window) (moves : List Move) : Window :=
  moves.foldl move w

theorem Reached.after {w : Window} (reached : w.Reached) (moves : List Move) :
    (w.after moves).Reached := by
  induction moves generalizing w with
  | nil => exact reached
  | cons m rest ih =>
    apply ih
    cases m with
    | next => exact reached.next
    | previous => exact reached.previous
    | first => exact reached.first

theorem limit_after (w : Window) (moves : List Move) : (w.after moves).limit = w.limit := by
  induction moves generalizing w with
  | nil => rfl
  | cons m rest ih =>
    have kept : (w.move m).limit = w.limit := by cases m <;> rfl
    exact (ih (w.move m)).trans kept

/-! ## Cutting lists -/

/-- A page and all that comes after its window are what its window begins with. -/
theorem cut_append_drop {α : Type} (w : Window) (items : List α) :
    w.cut items ++ items.drop (w.offset + w.limit) = items.drop w.offset := by
  rw [cut, ← List.drop_drop]
  exact List.take_append_drop _ _

theorem cut_map {α β : Type} (w : Window) (f : α → β) (items : List α) :
    w.cut (items.map f) = (w.cut items).map f := by
  rw [cut, cut, ← List.map_drop, ← List.map_take]

/-- The last page is all that is left. -/
theorem cut_of_length_le {α : Type} {w : Window} {items : List α}
    (all : items.length ≤ w.offset + w.limit) : w.cut items = items.drop w.offset := by
  rw [cut]
  refine List.take_of_length_le ?_
  rw [List.length_drop]
  omega

end Caseload.Window
