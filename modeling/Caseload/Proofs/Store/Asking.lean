import Caseload.Proofs.Access.Never
import Caseload.Proofs.Store.Run

/-!
# When a store is asked

The operations of a caller look at a condition before they ask a store, and ask nothing where it is
the predicate that never holds.  A store that notes each question before it answers
(`TaskStore.noting`) shows when that is: whatever the answers are, faults among them, a store is
left out exactly where nothing can be found (`never_exactly_when_inactive`).
-/

namespace Caseload

/-- Something that a store is asked. -/
inductive Question
  | list (q : Query)
  | count (p : Predicate)
  | rows (p : Predicate)

/-- A computation during which it is noted what a store is asked. -/
abbrev Noting (α : Type) :=
  ExceptT Error (StateM (List Question)) α

namespace Noting

variable {α β : Type}

/-- Notes a question before it is answered. -/
def note (question : Question) (answer : Except Error α) : Noting α := do
  modify (· ++ [question])
  MonadExcept.ofExcept answer

/-- What a store is asked during a computation. -/
def asked (computation : Noting α) : List Question :=
  (computation.run []).2

/-- What is made of an answer does not change what was asked. -/
theorem asked_bind_pure (computation : Noting α) (f : α → β) :
    asked (do return f (← computation)) = asked computation := by
  rw [asked, MemoryStore.run_bind_pure, asked]

theorem asked_note_ne_nil (question : Question) (answer : Except Error α) :
    asked (note question answer) ≠ [] := by
  cases answer <;> exact List.cons_ne_nil _ _

/-- The short cut of the operations, which ask only where the predicate may hold. -/
theorem asked_unless_never_eq_nil_iff {p : Predicate} {instead : α} {asks : Noting α}
    (some : asked asks ≠ []) :
    asked (if p.isNever then pure instead else asks) = [] ↔ p = .constant false := by
  rw [← Predicate.isNever_iff]
  split
  next never => exact iff_of_true rfl never
  next possible => exact iff_of_false some possible

end Noting

open Noting

namespace TaskStore

/-- The store that notes what it is asked and answers as another one does. -/
def noting (store : TaskStore (Except Error)) : TaskStore Noting where
  list q := note (.list q) (store.list q)
  count p := note (.count p) (store.count p)
  rows p := note (.rows p) (store.rows p)

variable (store : TaskStore (Except Error)) {c : Caller} {r : SearchRequest}
  {required : List Permission} {page : Window}

theorem asked_listPage_eq_nil_iff (p : Predicate) (order : SortOrder) (page : Window) :
    asked (store.noting.listPage p order page) = [] ↔ p = .constant false := by
  refine asked_unless_never_eq_nil_iff ?_
  simp only [noting, note]
  cases store.count p with
  | error e => exact List.cons_ne_nil _ _
  | ok total => cases store.list ⟨p, order, some page⟩ <;> exact List.cons_ne_nil _ _

theorem asked_search_eq_nil_iff :
    asked (store.noting.search c r required page) = [] ↔
      r.hasFilter = false ∨ c.searchCondition r required = .constant false := by
  unfold search SearchRequest.requireFilter
  cases r.hasFilter with
  | false => exact iff_of_true rfl (.inl rfl)
  | true =>
    rw [or_iff_right Bool.noConfusion]
    exact store.asked_listPage_eq_nil_iff _ _ page

theorem asked_searchSummaries_eq_nil_iff :
    asked (store.noting.searchSummaries c r required page) = [] ↔
      r.hasFilter = false ∨ c.searchCondition r required = .constant false := by
  unfold searchSummaries SearchRequest.requireFilter
  cases r.hasFilter with
  | false => exact iff_of_true rfl (.inl rfl)
  | true =>
    rw [or_iff_right Bool.noConfusion, ← store.asked_listPage_eq_nil_iff _ r.summaryOrder page]
    exact iff_of_eq (congrArg (· = []) (asked_bind_pure _ _))

theorem asked_get?_eq_nil_iff {id : String} :
    asked (store.noting.get? c id required) = [] ↔
      c.taskCondition id required = .constant false := by
  refine asked_unless_never_eq_nil_iff ?_
  rw [asked_bind_pure]
  exact asked_note_ne_nil _ _

theorem asked_completable_eq_nil_iff {caseId : String} {types : List String} :
    asked (store.noting.completable c caseId types) = [] ↔
      c.completableCondition caseId types Permission.toComplete = .constant false :=
  asked_unless_never_eq_nil_iff (asked_note_ne_nil _ _)

theorem asked_visibleRows_eq_nil_iff {id : String} :
    asked (store.noting.visibleRows c id) = [] ↔ c.rowsCondition id = .constant false :=
  asked_unless_never_eq_nil_iff (asked_note_ne_nil _ _)

end TaskStore

/-- A condition of access is the predicate that never holds exactly where no role of the caller is
in force, or, for what can be completed on a case, where no type of task is asked for; otherwise it
is folded.  In those cases, and where a search is refused since it filters nothing, a store is not
asked, whatever it would answer; in all other cases it is. -/
theorem Caller.never_exactly_when_inactive (c : Caller) :
    (∀ r required, (c.searchCondition r required).NeverWhen c.Inactive) ∧
    (∀ id required, (c.taskCondition id required).NeverWhen c.Inactive) ∧
    (∀ id, (c.rowsCondition id).NeverWhen c.Inactive) ∧
    (∀ caseId types required,
      (c.completableCondition caseId types required).NeverWhen (c.Inactive ∨ types = [])) ∧
    ∀ store : TaskStore (Except Error),
      (∀ r required page,
        asked (store.noting.search c r required page) = [] ↔ r.Unfiltered ∨ c.Inactive) ∧
      (∀ r required page,
        asked (store.noting.searchSummaries c r required page) = [] ↔ r.Unfiltered ∨ c.Inactive) ∧
      (∀ id required, asked (store.noting.get? c id required) = [] ↔ c.Inactive) ∧
      (∀ caseId types,
        asked (store.noting.completable c caseId types) = [] ↔ c.Inactive ∨ types = []) ∧
      ∀ id, asked (store.noting.visibleRows c id) = [] ↔ c.Inactive := by
  refine ⟨c.neverWhen_searchCondition, c.neverWhen_taskCondition,
    fun id => c.neverWhen_taskCondition id [], c.neverWhen_completableCondition,
    fun store => ⟨fun r required page => ?_, fun r required page => ?_, fun id required => ?_,
      fun caseId types => ?_, fun id => ?_⟩⟩
  · rw [store.asked_search_eq_nil_iff, SearchRequest.hasFilter_eq_false_iff,
      (c.neverWhen_searchCondition r required).never_iff]
  · rw [store.asked_searchSummaries_eq_nil_iff, SearchRequest.hasFilter_eq_false_iff,
      (c.neverWhen_searchCondition r required).never_iff]
  · rw [store.asked_get?_eq_nil_iff, (c.neverWhen_taskCondition id required).never_iff]
  · rw [store.asked_completable_eq_nil_iff,
      (c.neverWhen_completableCondition caseId types _).never_iff]
  · rw [store.asked_visibleRows_eq_nil_iff, Caller.rowsCondition,
      (c.neverWhen_taskCondition id []).never_iff]

end Caseload
