import Caseload.Proofs.Page.Window
import Caseload.Proofs.Sql.Dialogue
import Caseload.Proofs.Sql.Listing
import Caseload.Store.Database
import Caseload.Store.Memory

/-!
# A database lists what memory lists

What a store sends to list tasks is read by the database as a selection in the order of the query
with its page (`text_lists_in_order`).  Where the database holds the tasks that a store in memory
holds, it can give one list of rows, and those are the rows of what the store in memory lists: the
order leaves no two stored tasks level, so no page tears.
-/

namespace Caseload

open Sql (Database OrderTerm Row Select SortTerm Statement Token Value taskScope)

/-! ## Pages in statements -/

theorem toInt_ofNat_of_le {n : Nat} (le : n ≤ maxSigned) : (Int64.ofNat n).toInt = n := by
  refine Int64.toInt_ofNat_of_lt ?_
  simp only [maxSigned] at le
  omega

/-- A page that callers can ask for and whose offset is a signed word becomes a limit of the same
numbers. -/
theorem Window.exists_toLimit_eq {w : Window} (reached : w.Reached)
    (offset : w.offset ≤ maxSigned) :
    ∃ l, w.toLimit = .ok l ∧ l.limit.toInt = w.limit ∧ l.offset.toInt = w.offset := by
  have limit := reached.limit_le
  refine ⟨⟨Int64.ofNat w.limit, Int64.ofNat w.offset⟩, ?_, toInt_ofNat_of_le limit,
    toInt_ofNat_of_le offset⟩
  rw [toLimit, if_neg (by omega), if_neg (by omega)]

namespace Query

/-- The part of some items that the query is about: those of its page, or all of them. -/
def cut {α : Type} (q : Query) (items : List α) : List α :=
  match q.page with
  | none => items
  | some w => w.cut items

theorem cut_map {α β : Type} (q : Query) (f : α → β) (items : List α) :
    q.cut (items.map f) = (q.cut items).map f := by
  unfold cut
  cases q.page with
  | none => rfl
  | some w => exact w.cut_map f items

theorem list_eq_cut (s : MemoryStore) (q : Query) :
    s.list q = q.cut (q.order.sort (s.tasks.filter q.predicate.matchesTask)) := by
  obtain ⟨p, order, page⟩ := q
  cases page <;> rfl

/-- The page of the query is one that callers can ask for, and its offset is a signed word. -/
def Sendable (q : Query) : Prop :=
  ∀ w ∈ q.page, w.Reached ∧ w.offset ≤ maxSigned

/-- The page of a query that can be sent becomes a limit, which cuts what the page cuts. -/
theorem Sendable.exists_limit {q : Query} (sendable : q.Sendable) :
    ∃ limit : Option Sql.Limit, q.page.mapM Window.toLimit = .ok limit ∧
      ∀ (s : Select) {α : Type} (items : List α),
        (s.withPage (Statement.pageOf limit)).cut? items = some (q.cut items) := by
  obtain ⟨p, order, page⟩ := q
  cases page with
  | none => exact ⟨none, rfl, fun s α items => rfl⟩
  | some w =>
    obtain ⟨reached, fits⟩ := sendable w rfl
    obtain ⟨l, converted, limit, offset⟩ := w.exists_toLimit_eq reached fits
    refine ⟨some l, ?_, fun s α items => ?_⟩
    · simp [converted]
    · simp [Select.cut?, Select.withPage, Statement.pageOf, limit, offset, cut, Window.cut]

end Query

namespace DatabaseStore

theorem head?_run_list {server : Sql.Server} {q : Query} {limit : Option Sql.Limit}
    (page : q.page.mapM Window.toLimit = .ok limit) :
    ((list q).run.run server []).1.head? =
      some (.listTasks (.ofPredicate q.predicate) (OrderTerm.ofOrder q.order) limit) := by
  rw [list, page]
  exact Sql.Session.head?_run_send

/-- A database lists what memory lists.  The text of an order is read to terms that compare the rows
of any two tasks as the order compares the tasks, however the database compares text without a
collation.  And where the database stores the tasks of a store in memory, the statement that is
first sent for a query allows a single list of rows: those of the tasks that the store in memory
lists for the query, in the same order. -/
theorem text_lists_in_order (order : SortOrder) :
    (∃ terms, SortTerm.ofText? (Token.spell (Sql.orderTokens (OrderTerm.ofOrder order)))
        (Token.values (Sql.orderTokens (OrderTerm.ofOrder order))) = some terms ∧
      ∀ (locale : String → String → Ordering) (a b : Task),
        SortTerm.compareAll? locale terms (taskScope a) (taskScope b) = some (order.compare a b)) ∧
    ∀ (s : MemoryStore) (db : Database) (p : Predicate) (page : Option Window),
      db.Stores s.tasks → (∀ w ∈ page, w.Reached ∧ w.offset ≤ maxSigned) →
      ∃ (statement : Statement) (select : Select) (rows : List Row),
        (∀ server, ((list ⟨p, order, page⟩).run.run server []).1.head? = some statement) ∧
        Select.ofText? statement.text statement.values = some select ∧
        (∀ (locale : String → String → Ordering) (given : List Row),
          select.Gives locale db given ↔ given = rows) ∧
        rows = (s.list ⟨p, order, page⟩).map Task.cells ∧
        rows.map (Row.get · "task_id") = (s.list ⟨p, order, page⟩).map fun t => .text t.id := by
  refine ⟨⟨_, ofText?_orderTokens order, fun locale a b => compareAll?_ofOrder locale order a b⟩,
    fun s db p page stores sendable => ?_⟩
  obtain ⟨limit, converted, cuts⟩ := Query.Sendable.exists_limit (q := ⟨p, order, page⟩) sendable
  have nonempty : OrderTerm.ofOrder order ≠ [] := by simp [OrderTerm.ofOrder]
  refine ⟨_, _, _, fun server => head?_run_list converted,
    Statement.ofText?_listTasks p nonempty (Statement.readable_ofOrder order),
    fun locale given => ?_, rfl, ?_⟩
  · rw [Query.list_eq_cut]
    refine gives_listing_iff locale stores p order fun tasks => ?_
    rw [cuts, Query.cut_map]
  · simp only [List.map_map]
    rfl

/-- Of three tasks by descending titles, those after the first one: `Zoo` comes before `alpha` by
code points, so `alpha` is listed first, and the task without a title is listed last. -/
theorem text_lists_after_first :
    let task (id : String) (title : Option String) : Task :=
      { Task.bare id "review" .unassigned "IA" "1" "Asylum" with
        title, roles := [{ role := "clerk" }] }
    let a := task "a" (some "Zoo")
    let b := task "b" none
    let c := task "c" (some "alpha")
    let order : SortOrder := ⟨[⟨.title, .descending⟩]⟩
    ∃ w, Window.ofRequest 1 2 = .ok w ∧ (Database.ofTasks [a, b, c]).Stores [a, b, c] ∧
      w.Reached ∧ w.offset ≤ maxSigned ∧
      ∃ (statement : Statement) (select : Select),
        (∀ server, ((list ⟨.constant true, order, some w⟩).run.run server []).1.head? =
          some statement) ∧
        Select.ofText? statement.text statement.values = some select ∧
        ∀ (locale : String → String → Ordering) (given : List Row),
          select.Gives locale (Database.ofTasks [a, b, c]) given ↔ given = [a.cells, b.cells] := by
  intro task a b c order
  have distinct : ([a, b, c].map Task.id).Nodup := by decide
  have stores : (Database.ofTasks [a, b, c]).Stores [a, b, c] := Database.stores_ofTasks distinct
  let w : Window := ⟨1, 2, by decide, by decide, by decide⟩
  have accepted : Window.ofRequest 1 2 = .ok w := rfl
  have offset : w.offset ≤ maxSigned := by decide
  obtain ⟨-, lists⟩ := text_lists_in_order order
  obtain ⟨statement, select, rows, sent, read, gives, shown, -⟩ :=
    lists ⟨[a, b, c], distinct⟩ _ (.constant true) (some w) stores
      (by simpa using ⟨.start accepted, offset⟩)
  have sorted : order.sort [a, b, c] = [c, a, b] := by
    have perm : ([c] ++ [a, b]).Perm ([a, b] ++ [c]) := List.perm_append_comm
    exact (order.eq_sort_of_pairwise_isLE perm distinct (by decide)).symm
  have page : rows = [a.cells, b.cells] := by
    rw [shown, Query.list_eq_cut]
    change (w.cut (order.sort [a, b, c])).map Task.cells = _
    rw [sorted]
    rfl
  rw [page] at gives
  exact ⟨w, accepted, stores, .start accepted, offset, statement, select, sent, read, gives⟩

end DatabaseStore

end Caseload
