import Caseload.Proofs.Sort.Order
import Caseload.Search
import Caseload.Store.Memory

/-!
# Runs of a store in memory

A store in memory is saved to and asked, in any order.  `Operation` lists what can be done with it
and `MemoryStore.shared` is the store that all of it works on, so that whether asking leaves a trace
is a question and not a convention.  After any run the store holds, for each id, the task saved last
under it (`mem_after`), and a search shows a page of the one listing of what matches
(`search_after_run`).
-/

namespace Caseload

/-- Something that is done with a store in memory. -/
inductive Operation
  | save (t : Task)
  | search (c : Caller) (r : SearchRequest) (required : List Permission) (page : Window)
  | searchSummaries (c : Caller) (r : SearchRequest) (required : List Permission) (page : Window)
  | get (c : Caller) (id : String) (required : List Permission)
  | completable (c : Caller) (caseId : String) (types : List String)
  | visibleRows (c : Caller) (id : String)
  | list (q : Query)
  | count (p : Predicate)
  | rows (p : Predicate)

/-- The task that an operation saves, if it saves one. -/
def Operation.saved? : Operation → Option Task
  | save t => some t
  | _ => none

namespace MemoryStore

/-- A computation that works on one store.  Where it ends in an error, the store stays as it is
then. -/
abbrev Process (α : Type) :=
  ExceptT Error (StateM MemoryStore) α

/-- The store that a process works on, asked as it is at that moment. -/
def shared : TaskStore Process where
  list q := do return (← get).list q
  count p := do return (← get).count p
  rows p := do return (← get).rows p

/-- Does an operation; its answer is dropped. -/
def perform : Operation → Process Unit
  | .save t => modify (·.save t)
  | .search c r required page => discard (shared.search c r required page)
  | .searchSummaries c r required page => discard (shared.searchSummaries c r required page)
  | .get c id required => discard (shared.get? c id required)
  | .completable c caseId types => discard (shared.completable c caseId types)
  | .visibleRows c id => discard (shared.visibleRows c id)
  | .list q => discard (shared.list q)
  | .count p => discard (shared.count p)
  | .rows p => discard (shared.rows p)

/-- The store after one operation. -/
def next (s : MemoryStore) (op : Operation) : MemoryStore :=
  ((perform op).run s).2

/-- The store after some operations. -/
def after (s : MemoryStore) (ops : List Operation) : MemoryStore :=
  ops.foldl next s

/-- What is made of an answer touches neither a fault nor what is kept on the way. -/
theorem run_bind_pure {σ α β : Type} (computation : ExceptT Error (StateM σ) α) (f : α → β)
    (s : σ) :
    (do return f (← computation) : ExceptT Error (StateM σ) β).run s =
      ((computation.run s).1.map f, (computation.run s).2) := by
  change (ExceptT.run (do return f (← computation))).run s = _
  rw [ExceptT.run_bind, StateT.run_bind]
  change _ = ((computation.run.run s).1.map f, (computation.run.run s).2)
  obtain ⟨result, kept⟩ := computation.run.run s
  cases result <;> rfl

/-! ## Asking leaves the store as it is -/

theorem matching_of_isNever (s : MemoryStore) {p : Predicate} (never : p.isNever = true) :
    s.matching p = [] := by
  unfold Predicate.isNever at never
  split at never
  · simp [matching, Predicate.matchesTask, Predicate.holds]
  · contradiction

theorem list_of_isNever (s : MemoryStore) {q : Query} (never : q.predicate.isNever = true) :
    s.list q = [] := by
  unfold list
  rw [s.matching_of_isNever never]
  cases q.page <;> simp [SortOrder.sort, Window.cut]

/-- Not asking for what can never match gives the page that asking would give. -/
theorem listPage_shared (s : MemoryStore) (p : Predicate) (order : SortOrder) (page : Window) :
    (shared.listPage p order page).run s =
      (.ok ⟨s.list ⟨p, order, some page⟩, s.count p⟩, s) := by
  unfold TaskStore.listPage
  split
  next never =>
    rw [s.list_of_isNever never, count, s.matching_of_isNever never]
    rfl
  · rfl

theorem search_shared (s : MemoryStore) {c : Caller} {r : SearchRequest}
    {required : List Permission} {page : Window} :
    (shared.search c r required page).run s =
      if r.hasFilter then
        (shared.listPage (c.searchCondition r required) r.taskOrder page).run s
      else
        (.error .noFilter, s) := by
  unfold TaskStore.search SearchRequest.requireFilter
  split <;> rfl

/-- An operation that saves nothing leaves the store as it is. -/
theorem next_of_saved?_eq_none (s : MemoryStore) {op : Operation} (asks : op.saved? = none) :
    s.next op = s := by
  cases op with
  | save t => cases asks
  -- every answer is computed from the store, whichever way the short cuts of the service go
  | search c r required page =>
    simp only [next, perform]
    unfold TaskStore.search SearchRequest.requireFilter TaskStore.listPage
    split <;> split <;> rfl
  | searchSummaries c r required page =>
    simp only [next, perform]
    unfold TaskStore.searchSummaries SearchRequest.requireFilter TaskStore.listPage
    split <;> split <;> rfl
  | get c id required =>
    simp only [next, perform, TaskStore.get?]
    split <;> rfl
  | completable c caseId types =>
    simp only [next, perform, TaskStore.completable]
    split <;> rfl
  | visibleRows c id =>
    simp only [next, perform, TaskStore.visibleRows]
    split <;> rfl
  | list q | count p | rows p => rfl

end MemoryStore

/-! ## The last task saved under an id -/

/-- The task was saved, and nothing with its id was saved after it. -/
def LastSaved (history : List Task) (t : Task) : Prop :=
  ∃ earlier later, history = earlier ++ t :: later ∧ ∀ u ∈ later, u.id ≠ t.id

theorem lastSaved_concat {history : List Task} {u t : Task} :
    LastSaved (history ++ [u]) t ↔ t = u ∨ LastSaved history t ∧ t.id ≠ u.id := by
  constructor
  · rintro ⟨earlier, later, split, others⟩
    -- the new task is either the one in question or the last of those that came after it
    rcases List.eq_nil_or_concat' later with rfl | ⟨between, last, rfl⟩
    · exact .inl (List.singleton_inj.mp (List.append_inj' split rfl).2).symm
    · rw [← List.cons_append, ← List.append_assoc] at split
      obtain ⟨rfl, last⟩ := List.append_inj' split rfl
      obtain rfl := List.singleton_inj.mp last
      refine .inr ⟨⟨earlier, between, rfl, fun v mem => others v ?_⟩, (others u ?_).symm⟩
      · exact List.mem_append_left _ mem
      · exact List.mem_append_right _ (List.mem_singleton_self u)
  · rintro (rfl | ⟨⟨earlier, later, rfl, others⟩, ne⟩)
    · exact ⟨history, [], rfl, by simp⟩
    · refine ⟨earlier, later ++ [u], by simp, fun v mem => ?_⟩
      rcases List.mem_append.mp mem with old | new
      · exact others v old
      · rw [List.mem_singleton.mp new]
        exact ne.symm

theorem mem_putTask {u t : Task} {tasks : List Task} (distinct : (tasks.map Task.id).Nodup) :
    t ∈ putTask u tasks ↔ t = u ∨ t ∈ tasks ∧ t.id ≠ u.id := by
  induction tasks with
  | nil => simp [putTask]
  | cons v rest ih =>
    rw [List.map_cons, List.nodup_cons] at distinct
    by_cases same : v.id = u.id
    · -- no other task of the list has the id, so all of them stay
      have others : t ∈ rest → t.id ≠ u.id := fun mem eq =>
        distinct.1 (same ▸ eq ▸ List.mem_map_of_mem mem)
      rw [putTask, if_pos same, List.mem_cons, List.mem_cons]
      grind
    · rw [putTask, if_neg same, List.mem_cons, List.mem_cons, ih distinct.2]
      grind

namespace MemoryStore

/-- The store holds what was saved last under each id, and nothing else. -/
def HoldsLast (s : MemoryStore) (history : List Task) : Prop :=
  ∀ t, t ∈ s.tasks ↔ LastSaved history t

theorem HoldsLast.save {s : MemoryStore} {history : List Task} (holds : s.HoldsLast history)
    (u : Task) : (s.save u).HoldsLast (history ++ [u]) := by
  intro t
  rw [lastSaved_concat, ← holds t]
  exact mem_putTask s.distinct

theorem HoldsLast.saveAll {s : MemoryStore} {history : List Task} (holds : s.HoldsLast history)
    (tasks : List Task) : (tasks.foldl MemoryStore.save s).HoldsLast (history ++ tasks) := by
  induction tasks generalizing s history with
  | nil => simpa using holds
  | cons u rest ih => simpa using ih (holds.save u)

theorem holdsLast_ofList (tasks : List Task) : (ofList tasks).HoldsLast tasks := by
  -- loading saves one task after the other, beginning with nothing
  have nothing : empty.HoldsLast [] := by
    intro t
    simp [empty, LastSaved]
  exact nothing.saveAll tasks

/-- Step by step, a run keeps the store in line with what has been saved. -/
theorem HoldsLast.after {s : MemoryStore} {history : List Task} (holds : s.HoldsLast history)
    (ops : List Operation) :
    (s.after ops).HoldsLast (history ++ ops.filterMap Operation.saved?) := by
  -- the store and what has been saved so far both change with each operation
  induction ops generalizing s history with
  | nil => simpa [MemoryStore.after] using holds
  | cons op rest ih =>
    cases saved : op.saved? with
    | none =>
      have same : s.next op = s := s.next_of_saved?_eq_none saved
      simpa [MemoryStore.after, same, saved] using ih holds
    | some u =>
      obtain rfl : op = .save u := by cases op <;> simp_all [Operation.saved?]
      have new : s.next (.save u) = s.save u := rfl
      simpa [MemoryStore.after, Operation.saved?, new] using ih (holds.save u)

/-! ## Searching -/

/-- The one listing of the stored tasks with a role row for which the predicate holds: all of them,
in order. -/
structure Lists (s : MemoryStore) (p : Predicate) (order : SortOrder) (listing : List Task) :
    Prop where
  mem : ∀ t, t ∈ listing ↔ t ∈ s.tasks ∧ ∃ row ∈ t.roles, p.holds t row = true
  ordered : listing.Pairwise order.Before

theorem mem_matching {s : MemoryStore} {p : Predicate} {t : Task} :
    t ∈ s.matching p ↔ t ∈ s.tasks ∧ ∃ row ∈ t.roles, p.holds t row = true := by
  simp [matching, Predicate.matchesTask]

theorem nodup_ids_matching (s : MemoryStore) (p : Predicate) :
    ((s.matching p).map Task.id).Nodup :=
  s.distinct.sublist (List.filter_sublist.map Task.id)

theorem lists_sort_matching (s : MemoryStore) (p : Predicate) (order : SortOrder) :
    s.Lists p order (order.sort (s.matching p)) where
  mem t := by rw [SortOrder.mem_sort, mem_matching]
  ordered := order.pairwise_before_sort (s.nodup_ids_matching p)

end MemoryStore

theorem Window.getElem?_cut (w : Window) {α : Type} (items : List α) (i : Nat) :
    (w.cut items)[i]? = if i < w.limit then items[w.offset + i]? else none := by
  simp [Window.cut, List.getElem?_take]

/-- Every list of accepted values is empty. -/
structure SearchRequest.Unfiltered (r : SearchRequest) : Prop where
  jurisdictions : r.jurisdictions = []
  states : r.states = []
  locations : r.locations = []
  regions : r.regions = []
  caseIds : r.caseIds = []
  users : r.users = []
  workTypes : r.workTypes = []
  roleCategories : r.roleCategories = []
  taskTypes : r.taskTypes = []
  taskIds : r.taskIds = []

theorem SearchRequest.hasFilter_eq_false_iff {r : SearchRequest} :
    r.hasFilter = false ↔ r.Unfiltered := by
  simp only [hasFilter, Bool.not_eq_false', Bool.and_eq_true, List.isEmpty_iff]
  constructor
  · rintro ⟨⟨⟨⟨⟨⟨⟨⟨⟨jurisdictions, states⟩, locations⟩, regions⟩, caseIds⟩, users⟩, workTypes⟩,
      roleCategories⟩, taskTypes⟩, taskIds⟩
    exact { jurisdictions, states, locations, regions, caseIds, users, workTypes, roleCategories,
            taskTypes, taskIds }
  · rintro ⟨jurisdictions, states, locations, regions, caseIds, users, workTypes, roleCategories,
      taskTypes, taskIds⟩
    exact ⟨⟨⟨⟨⟨⟨⟨⟨⟨jurisdictions, states⟩, locations⟩, regions⟩, caseIds⟩, users⟩, workTypes⟩,
      roleCategories⟩, taskTypes⟩, taskIds⟩

namespace MemoryStore

/-- What a search answers: a request without any value is refused, and any other one gets the page
of the listing of what matches, each task with its role rows and none of them twice. -/
theorem search_of_hasFilter (s : MemoryStore) {c : Caller} {r : SearchRequest}
    {required : List Permission} {page : Window} (filtered : r.hasFilter = true) :
    (shared.search c r required page).run s =
      (.ok ⟨page.cut (r.taskOrder.sort (s.matching (c.searchCondition r required))),
        (s.matching (c.searchCondition r required)).length⟩, s) := by
  rw [search_shared, if_pos filtered, listPage_shared]
  rfl

theorem search_of_not_hasFilter (s : MemoryStore) {c : Caller} {r : SearchRequest}
    {required : List Permission} {page : Window} (refused : r.hasFilter = false) :
    (shared.search c r required page).run s = (.error .noFilter, s) := by
  rw [search_shared, refused]
  rfl

/-- Search over any run: whatever tasks a store begins with and whatever is then done with it, it
holds for each id the task saved last, and asking changes nothing.  In the store so reached a search
is refused exactly when all of its lists are empty; otherwise it gives the number of matching tasks
and, of their one listing, those at the ranks of the page.  Leaving the store out where nothing can
match gives what asking it gives. -/
theorem search_after_run (tasks : List Task) (ops : List Operation) :
    let s := (ofList tasks).after ops
    (∀ t, t ∈ s.tasks ↔ LastSaved (tasks ++ ops.filterMap Operation.saved?) t) ∧
    (s.tasks.map Task.id).Nodup ∧
    (∀ op, op.saved? = none → s.next op = s) ∧
    (∀ c r required page, r.Unfiltered →
      (shared.search c r required page).run s = (.error .noFilter, s) ∧
        Error.noFilter.kind = .validation) ∧
    (∀ c r required page, ¬ r.Unfiltered → ∃ listing found,
      s.Lists (c.searchCondition r required) r.taskOrder listing ∧
      (shared.search c r required page).run s = (.ok found, s) ∧
      found.total = listing.length ∧
      (∀ i, found.tasks[i]? = if i < page.limit then listing[page.offset + i]? else none) ∧
      (found.tasks.map Task.id).Nodup) ∧
    ∀ p order page,
      (shared.listPage p order page).run s =
        (do
          let total ← shared.count p
          return ⟨← shared.list ⟨p, order, some page⟩, total⟩ : Process _).run s := by
  intro s
  refine ⟨(holdsLast_ofList tasks).after ops, s.distinct, fun op => s.next_of_saved?_eq_none,
    ?refused, ?answered, fun p order page => s.listPage_shared p order page⟩
  case refused =>
    intro c r required page unfiltered
    rw [search_shared, SearchRequest.hasFilter_eq_false_iff.mpr unfiltered]
    exact ⟨rfl, rfl⟩
  case answered =>
    intro c r required page filtered
    rw [← SearchRequest.hasFilter_eq_false_iff, Bool.not_eq_false] at filtered
    let p := c.searchCondition r required
    refine ⟨r.taskOrder.sort (s.matching p), _, s.lists_sort_matching p r.taskOrder,
      s.search_of_hasFilter filtered, ?_, page.getElem?_cut _, ?_⟩
    · exact (r.taskOrder.sort_perm _).length_eq.symm
    · -- a page is a part of the listing, so it has no id that the listing has not, nor more often
      have distinct : ((r.taskOrder.sort (s.matching p)).map Task.id).Nodup :=
        ((r.taskOrder.sort_perm _).map Task.id).nodup_iff.mpr (s.nodup_ids_matching p)
      have part : (page.cut (r.taskOrder.sort (s.matching p))).Sublist _ :=
        (List.take_sublist _ _).trans (List.drop_sublist _ _)
      exact distinct.sublist (part.map Task.id)

end MemoryStore

end Caseload
