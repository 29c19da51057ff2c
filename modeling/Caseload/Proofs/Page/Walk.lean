import Caseload.Proofs.Page.Window
import Caseload.Search
import Mathlib.Data.List.Basic

/-!
# Walking through pages

Whoever wants to see all that a search finds asks for the first window, and for the next one as long
as something follows.  `Walk` is that loop and `Retreat` the way back; both say when it ends, so a
walk that is there has ended.

Where every window shows its page of one listing whose length is a word, the walk from any window
ends and shows what the listing has from there on, nothing twice (`walk_of_shows`).  What carries
the induction is the number of tasks that the windows so far have not shown.
-/

namespace Caseload

variable {α : Type}

/-- Asking for a window and then for the next one as long as something follows.  It visits some
windows and ends; `shows` says what is found at which window. -/
inductive Walk (shows : Window → SearchResult α → Prop) :
    Window → List (Window × SearchResult α) → Prop
  | last {w : Window} {found : SearchResult α} :
    shows w found → w.hasNext found.total = false → Walk shows w [(w, found)]
  | onward {w : Window} {found : SearchResult α} {visited : List (Window × SearchResult α)} :
    shows w found → w.hasNext found.total = true → Walk shows w.next visited →
      Walk shows w ((w, found) :: visited)

/-- Stepping back to the previous window as long as there is one. -/
inductive Retreat : Window → List Window → Prop
  | stop {w : Window} : w.hasPrevious = false → Retreat w [w]
  | back {w : Window} {visited : List Window} :
    w.hasPrevious = true → Retreat w.previous visited → Retreat w (w :: visited)

variable {shows : Window → SearchResult α → Prop} {w : Window}
  {visited : List (Window × SearchResult α)}

/-- If what is found depends on the window alone, there is one walk only. -/
theorem Walk.unique (functional : ∀ w a b, shows w a → shows w b → a = b)
    (walk : Walk shows w visited) {others : List (Window × SearchResult α)}
    (other : Walk shows w others) : visited = others := by
  induction walk generalizing others with
  | last found ends =>
    cases other with
    | last found' _ => rw [functional _ _ _ found found']
    | onward found' follows _ =>
      rw [functional _ _ _ found found', follows] at ends
      cases ends
  | onward found follows _ ih =>
    cases other with
    | last found' ends =>
      rw [functional _ _ _ found found', ends] at follows
      cases follows
    | onward found' _ rest => rw [functional _ _ _ found found', ih rest]

theorem Retreat.unique {windows others : List Window} (retreat : Retreat w windows)
    (other : Retreat w others) : windows = others := by
  induction retreat generalizing others with
  | stop first =>
    cases other with
    | stop _ => rfl
    | back earlier _ =>
      rw [first] at earlier
      cases earlier
  | back earlier _ ih =>
    cases other with
    | stop first =>
      rw [first] at earlier
      cases earlier
    | back _ rest => rw [ih rest]

/-! ## What a walk shows -/

/-- What a walk from a window has to do: show all of a listing from there on in as few windows as
have room for it, each time with the same total, and lead back the way it came. -/
structure Walk.Complete (items : List α) (w : Window)
    (visited : List (Window × SearchResult α)) : Prop where
  length : visited.length = max 1 ((items.length - w.offset + w.limit - 1) / w.limit)
  tasks : visited.flatMap (·.2.tasks) = items.drop w.offset
  total : ∀ page ∈ visited, page.2.total = items.length
  retreats : ∀ before, Retreat w (w :: before) →
    ∃ last ∈ visited.getLast?, Retreat last.1 ((visited.map Prod.fst).reverse ++ before)

variable {items : List α}

/-- A window after which nothing follows completes a walk. -/
theorem Walk.complete_last (ends : items.length ≤ w.offset + w.limit) :
    Walk.Complete items w [(w, ⟨w.cut items, items.length⟩)] where
  length := by
    have room := w.limit_pos
    have few : (items.length - w.offset + w.limit - 1) / w.limit < 2 :=
      Nat.div_lt_of_lt_mul (by omega)
    rw [Nat.max_eq_left (Nat.le_of_lt_succ few)]
    rfl
  tasks := by
    rw [List.flatMap_singleton, Window.cut_of_length_le ends]
  total page mem := by rw [List.mem_singleton.mp mem]
  retreats before retreat := ⟨_, rfl, retreat⟩

/-- A window before a complete walk completes the longer walk. -/
theorem Walk.complete_onward (word : items.length ≤ maxWord)
    (follows : w.offset + w.limit < items.length) (rest : Walk.Complete items w.next visited) :
    Walk.Complete items w ((w, ⟨w.cut items, items.length⟩) :: visited) := by
  have fits : w.offset + w.limit ≤ maxWord := by omega
  have room := w.limit_pos
  refine ⟨?length, ?tasks, ?total, fun before retreat => ?retreats⟩
  case length =>
    -- one window takes `limit` off what is left, so one page less has room for the rest
    have left : items.length - w.offset + w.limit - 1 =
        items.length - (w.offset + w.limit) + w.limit - 1 + w.limit := by omega
    have more : 1 ≤ (items.length - (w.offset + w.limit) + w.limit - 1) / w.limit :=
      (Nat.one_le_div_iff room).mpr (by omega)
    rw [List.length_cons, rest.length, Window.next_offset fits, w.next_limit, left,
      Nat.add_div_right _ room, Nat.max_eq_right more, Nat.max_eq_right (by omega)]
  case tasks =>
    rw [List.flatMap_cons, rest.tasks, Window.next_offset fits]
    exact w.cut_append_drop items
  case total =>
    exact List.forall_mem_cons.mpr ⟨rfl, rest.total⟩
  case retreats =>
    -- the next window leads back to this one, and from there the way back is known
    have step : Retreat w.next (w.next :: w :: before) :=
      .back (Window.hasPrevious_next fits) (by rwa [Window.previous_next fits])
    obtain ⟨last, isLast, back⟩ := rest.retreats _ step
    refine ⟨last, ?_, by simpa using back⟩
    rw [List.getLast?_cons, isLast]
    rfl

/-- Where each window shows its page of one listing, the walk from any window ends and is
complete. -/
theorem walk_of_shows (word : items.length ≤ maxWord)
    (each : ∀ w : Window, shows w ⟨w.cut items, items.length⟩) (w : Window) :
    ∃ visited, Walk shows w visited ∧ Walk.Complete items w visited := by
  by_cases follows : w.offset + w.limit < items.length
  · have further : items.length - w.next.offset < items.length - w.offset := by
      have room := w.limit_pos
      rw [Window.next_offset (by omega)]
      omega
    obtain ⟨visited, walk, complete⟩ := walk_of_shows word each w.next
    refine ⟨_, .onward (each w) ?_ walk, Walk.complete_onward word follows complete⟩
    exact (w.hasNext_iff word).mpr follows
  · refine ⟨_, .last (each w) ?_, Walk.complete_last (by omega)⟩
    exact Bool.eq_false_iff.mpr (mt (w.hasNext_iff word).mp follows)
termination_by items.length - w.offset

end Caseload
