import Caseload.Proofs.Store.Wording

/-!
# Pages are exact up to the limits of their words

A window is made from two signed words, moved as an unsigned one and sent as two signed ones.  No
move changes the limit, so it fits everywhere, and only the offset can leave a range: beyond the
unsigned words a move stops, and beyond the signed ones no listing is sent
(`pages_exact_within_words`).
-/

namespace Caseload

open Sql (Server Statement)

/-- The arithmetic of a window whose limit was asked for as some number. -/
structure Window.Exact (w : Window) (limit : Int) : Prop where
  limit_eq : w.limit = limit
  limit_ne_zero : w.limit ≠ 0
  hasNext_iff : ∀ total ≤ maxWord, w.hasNext total = true ↔ w.offset + w.limit < total
  previous_next : w.offset + w.limit ≤ maxWord → w.next.previous = w
  pageNumber_next : w.offset + w.limit ≤ maxWord → w.next.pageNumber = w.pageNumber + 1
  next_previous_iff : w.previous.next = w ↔ w.limit ≤ w.offset
  pageNumber_previous : 0 < w.pageNumber → w.previous.pageNumber = w.pageNumber - 1
  hasPrevious_iff : w.hasPrevious = false ↔ w = w.first

theorem Window.exact_after {offset limit : Int64} {start : Window}
    (accepted : ofRequest offset limit = .ok start) (moves : List Move) :
    (start.after moves).Exact limit.toInt := by
  obtain ⟨-, room, -, asked⟩ := ofRequest_eq_ok_iff.mp accepted
  have kept := start.limit_after moves
  exact {
    limit_eq := by omega
    limit_ne_zero := by omega
    hasNext_iff := fun total word => hasNext_iff _ word
    previous_next := Window.previous_next
    pageNumber_next := Window.pageNumber_next
    next_previous_iff := Window.next_previous_iff _
    pageNumber_previous := Window.pageNumber_previous
    hasPrevious_iff := hasPrevious_eq_false_iff _ }

namespace DatabaseStore

/-- A listing for a window binds the numbers of the window, and those only, to its page. -/
structure Pages (w : Window) (p : Predicate) (order : SortOrder) : Prop where
  binds : w.offset ≤ maxSigned → ∃ (s : Statement) (front : String),
    (list ⟨p, order, some w⟩).Begins s ∧
    s.text = front ++ Statement.pageText p.comparands.length ∧
    s.values = p.comparands ++ [.integer w.limit, .integer w.offset]
  refuses : maxSigned < w.offset → ∃ e : Error, e.kind = .validation ∧
    e.message = "validation error: invalid task query offset: " ++
      "number too large to fit in target type" ∧
    ∀ server : Server, (list ⟨p, order, some w⟩).run.run server [] = ([], .error e)

variable {w : Window} {p : Predicate} {order : SortOrder}

theorem pages_of_reached (reached : w.Reached) : Pages w p order where
  binds offset := by
    exact ⟨listing p order w, _, begins_list (mapM_toLimit_eq_ok reached offset), text_listing,
      values_listing reached offset⟩
  refuses offset := by
    exact ⟨.offsetTooLarge, rfl, rfl, fun server => run_list_of_beyond reached offset⟩

/-- Pages are exact up to the limits of their words.  A window is made exactly of an offset that is
not negative and a limit that is positive.  Wherever moves lead from it, its arithmetic is that of
unbounded numbers as long as nothing exceeds the words, and a listing binds its numbers or, where
the offset is no signed word, is not sent. -/
theorem pages_exact_within_words (offset limit : Int64) :
    ((∃ w, Window.ofRequest offset limit = .ok w) ↔ 0 ≤ offset.toInt ∧ 1 ≤ limit.toInt) ∧
      ∀ start, Window.ofRequest offset limit = .ok start →
        (start.offset : Int) = offset.toInt ∧
        ∀ moves, (start.after moves).Exact limit.toInt ∧
          ∀ p order, Pages (start.after moves) p order := by
  refine ⟨Window.exists_ofRequest_eq_ok_iff, fun start accepted => ?_⟩
  obtain ⟨nonnegative, -, asked, -⟩ := Window.ofRequest_eq_ok_iff.mp accepted
  refine ⟨by omega, fun moves => ⟨Window.exact_after accepted moves, fun p order => ?_⟩⟩
  exact pages_of_reached (Window.Reached.start accepted |>.after moves)

/-- From the largest signed words, one move leads to a window that leads back, and two moves to the
last word, after which nothing follows and for which nothing is sent. -/
theorem pages_exact_at_last_word :
    let start : Window := ⟨maxSigned, maxSigned, by decide, by decide, by decide⟩
    let last := start.after [.next, .next]
    let q : Query := ⟨.equals .state "ASSIGNED", .taskDefault, some last⟩
    Window.ofRequest Int64.maxValue Int64.maxValue = .ok start ∧ start.next.previous = start ∧
      start.next.pageNumber = 2 ∧ last.offset = maxWord ∧ last.hasNext maxWord = false ∧
      ∃ e : Error, e.kind = .validation ∧
        ∀ server : Server, (list q).run.run server [] = ([], .error e) := by
  intro start last q
  have accepted : Window.ofRequest Int64.maxValue Int64.maxValue = .ok start := rfl
  obtain ⟨-, exact⟩ := pages_exact_within_words Int64.maxValue Int64.maxValue
  obtain ⟨-, after⟩ := exact start accepted
  have begins : start.Exact _ := (after []).1
  obtain ⟨ends, pages⟩ := after [.next, .next]
  obtain ⟨e, kind, -, refused⟩ := (pages q.predicate q.order).refuses (by decide)
  refine ⟨accepted, begins.previous_next (by decide), ?_, by decide, ?_, e, kind, refused⟩
  · exact (begins.pageNumber_next (by decide)).trans (by decide)
  · have beyond : ¬ last.offset + last.limit < maxWord := by decide
    exact Bool.eq_false_iff.mpr (mt (ends.hasNext_iff maxWord le_rfl).mp beyond)

end DatabaseStore

end Caseload
