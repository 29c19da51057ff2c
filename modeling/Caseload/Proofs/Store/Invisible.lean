import Caseload.Proofs.Access.Decision
import Caseload.Proofs.Sort.Order
import Caseload.Search
import Caseload.Store.Memory
import Mathlib.Data.List.Nodup

/-!
# Tasks that a caller does not see

Nothing that a caller can ask depends on tasks that the caller does not see: two stores that differ
in such tasks only give the same answers.  Every condition of access entails that the caller sees
the task by the row (`Predicate.Entails`), and whatever is read from a store by a predicate that
entails this is the same for both stores.
-/

namespace Caseload

/-! ## Entailment -/

/-- Whenever the first predicate holds, so does the second one. -/
def Predicate.Entails (p q : Predicate) : Prop :=
  ∀ t row, p.holds t row = true → q.holds t row = true

theorem Predicate.entails_of_mem {q : Predicate} {parts : List Predicate} (mem : q ∈ parts) :
    (all parts).Entails q :=
  fun _ _ holds => holds_all.mp holds q mem

theorem Predicate.Entails.trans {p q r : Predicate} (pq : p.Entails q) (qr : q.Entails r) :
    p.Entails r :=
  fun t row holds => qr t row (pq t row holds)

namespace Caller

variable {c : Caller}

/-- Asking for permissions only narrows what a caller sees. -/
theorem visibility_entails (c : Caller) (required : List Permission) :
    (c.visibility required).Entails (c.visibility []) := by
  intro t row holds
  rw [holds_visibility] at holds ⊢
  exact ⟨holds.1, by simp⟩

theorem searchCondition_entails (c : Caller) (r : SearchRequest) (required : List Permission) :
    (c.searchCondition r required).Entails (c.visibility []) :=
  (Predicate.entails_of_mem (by simp)).trans (c.visibility_entails required)

theorem taskCondition_entails (c : Caller) (id : String) (required : List Permission) :
    (c.taskCondition id required).Entails (c.visibility []) :=
  (Predicate.entails_of_mem (by simp)).trans (c.visibility_entails required)

theorem completableCondition_entails (c : Caller) (caseId : String) (types : List String)
    (required : List Permission) :
    (c.completableCondition caseId types required).Entails (c.visibility []) :=
  (Predicate.entails_of_mem (by simp)).trans (c.visibility_entails required)

/-- The caller sees the task by one of its role rows, whatever the row allows. -/
def SeesTask (c : Caller) (t : Task) : Prop :=
  ∃ row ∈ t.roles, (c.visibility []).holds t row = true

/-- The tasks that the caller sees are the same in both stores; all others may differ. -/
def SameVisible (c : Caller) (s u : MemoryStore) : Prop :=
  ∀ t, c.SeesTask t → (t ∈ s.tasks ↔ t ∈ u.tasks)

end Caller

/-! ## What is read from stores with the same visible tasks -/

namespace MemoryStore

variable {c : Caller} {s u : MemoryStore} {p : Predicate}

theorem matching_perm_of_sameVisible (same : c.SameVisible s u)
    (entails : p.Entails (c.visibility [])) : (s.matching p).Perm (u.matching p) := by
  -- neither list has a task twice, so it is enough that both have the same members
  have nodup (v : MemoryStore) : (v.matching p).Nodup := (List.Nodup.of_map _ v.distinct).filter _
  refine (List.perm_ext_iff_of_nodup (nodup s) (nodup u)).mpr fun t => ?_
  simp only [matching, List.mem_filter]
  refine and_congr_left fun holds => same t ?_
  obtain ⟨row, mem, holds⟩ := List.any_eq_true.mp holds
  exact ⟨row, mem, entails t row holds⟩

theorem count_eq_of_sameVisible (same : c.SameVisible s u)
    (entails : p.Entails (c.visibility [])) : s.count p = u.count p :=
  (matching_perm_of_sameVisible same entails).length_eq

theorem list_eq_of_sameVisible (same : c.SameVisible s u)
    (entails : p.Entails (c.visibility [])) {order : SortOrder} {page : Option Window} :
    s.list ⟨p, order, page⟩ = u.list ⟨p, order, page⟩ := by
  have sorted : order.sort (s.matching p) = order.sort (u.matching p) :=
    order.sort_eq_of_perm (matching_perm_of_sameVisible same entails)
      (s.distinct.sublist (List.filter_sublist.map Task.id))
  simp only [list, sorted]

/-- A task without a matching row adds nothing to the rows that are listed. -/
theorem rows_eq_flatMap_matching (s : MemoryStore) (p : Predicate) :
    s.rows p = (SortOrder.sort ⟨[]⟩ (s.matching p)).flatMap p.matchingRows := by
  -- the rows are listed from all tasks in order, so the tasks that match are picked after sorting
  rw [rows, matching, ← SortOrder.filter_sort _ _ s.distinct]
  generalize SortOrder.sort ⟨[]⟩ s.tasks = tasks
  induction tasks with
  | nil => rfl
  | cons t rest ih =>
    by_cases matched : p.matchesTask t = true
    · simp [matched, ih]
    · have none : p.matchingRows t = [] := by
        simpa [Predicate.matchesTask, Predicate.matchingRows] using matched
      simp [matched, none, ih]

theorem rows_eq_of_sameVisible (same : c.SameVisible s u)
    (entails : p.Entails (c.visibility [])) : s.rows p = u.rows p := by
  have sorted : SortOrder.sort ⟨[]⟩ (s.matching p) = SortOrder.sort ⟨[]⟩ (u.matching p) :=
    SortOrder.sort_eq_of_perm _ (matching_perm_of_sameVisible same entails)
      (s.distinct.sublist (List.filter_sublist.map Task.id))
  rw [rows_eq_flatMap_matching, rows_eq_flatMap_matching, sorted]

/-- No operation of the caller tells the two stores apart. -/
structure Alike (m : Type → Type) [Monad m] [MonadExcept Error m] (c : Caller)
    (s u : MemoryStore) : Prop where
  search : ∀ r required page,
    (s.toTaskStore : TaskStore m).search c r required page =
      u.toTaskStore.search c r required page
  searchSummaries : ∀ r required page,
    (s.toTaskStore : TaskStore m).searchSummaries c r required page =
      u.toTaskStore.searchSummaries c r required page
  get? : ∀ id required,
    (s.toTaskStore : TaskStore m).get? c id required = u.toTaskStore.get? c id required
  completable : ∀ caseId types,
    (s.toTaskStore : TaskStore m).completable c caseId types =
      u.toTaskStore.completable c caseId types
  visibleRows : ∀ id,
    (s.toTaskStore : TaskStore m).visibleRows c id = u.toTaskStore.visibleRows c id

theorem listPage_eq_of_sameVisible {m : Type → Type} [Monad m] (same : c.SameVisible s u)
    (entails : p.Entails (c.visibility [])) {order : SortOrder} {page : Window} :
    (s.toTaskStore : TaskStore m).listPage p order page = u.toTaskStore.listPage p order page := by
  simp only [TaskStore.listPage, toTaskStore, count_eq_of_sameVisible same entails,
    list_eq_of_sameVisible same entails]

/-- Noninterference of invisible tasks: where two stores hold the same tasks that the caller sees,
no operation of that caller tells them apart, however much they differ in all other tasks. -/
theorem alike_of_sameVisible {m : Type → Type} [Monad m] [MonadExcept Error m]
    (same : c.SameVisible s u) : Alike m c s u where
  search r required page := by
    simp only [TaskStore.search,
      listPage_eq_of_sameVisible same (c.searchCondition_entails r required)]
  searchSummaries r required page := by
    simp only [TaskStore.searchSummaries,
      listPage_eq_of_sameVisible same (c.searchCondition_entails r required)]
  get? id required := by
    simp only [TaskStore.get?, toTaskStore,
      list_eq_of_sameVisible same (c.taskCondition_entails id required)]
  completable caseId types := by
    simp only [TaskStore.completable, toTaskStore,
      list_eq_of_sameVisible same (c.completableCondition_entails caseId types _)]
  visibleRows id := by
    simp only [TaskStore.visibleRows, toTaskStore,
      rows_eq_of_sameVisible (p := c.rowsCondition id) same (c.taskCondition_entails id [])]

/-- A clerk cannot tell whether there is a second task, which is for judges, nor what its state
is. -/
theorem alike_for_clerk :
    let clerk : RoleAssignment :=
      { actor := "7", scope := .organisation, role := "clerk", grant := .standard }
    let c : Caller := ⟨[clerk], ⟨⟨2026, 3, 1, by decide⟩, 0, 0, by decide⟩⟩
    let seen := (Task.bare "b" "review" .unassigned "IA" "1" "Asylum").withRole { role := "clerk" }
    let hidden (state : TaskState) :=
      (Task.bare "a" "decide" state "IA" "1" "Asylum").withRole { role := "judge" }
    c.SeesTask seen ∧ Alike (Except Error) c (ofList [hidden .assigned, seen]) (ofList [seen]) ∧
      Alike (Except Error) c (ofList [hidden .assigned, seen])
        (ofList [seen, hidden .completed]) := by
  intro clerk c seen hidden
  -- the only role of the caller has another name than the only row of the hidden task
  have unseen (state : TaskState) : ¬ c.SeesTask (hidden state) := by
    rintro ⟨row, mem, holds⟩
    obtain ⟨a, held, sees⟩ := (Caller.holds_visibility.mp holds).1
    obtain rfl : a = clerk := by simpa [c] using held
    obtain rfl : row = { role := "judge" } := by simpa [hidden, Task.withRole, Task.bare] using mem
    exact absurd sees.covers.role (by decide)
  have unlimited (key : Attribute) (value : Option String) : clerk.Confines key value := by
    intro text kept
    simp [clerk] at kept
  have covers : clerk.Covers seen { role := "clerk" } := {
    role := rfl
    level := by decide
    reaches := .unguarded (by simp [clerk])
      ⟨unlimited _ _, unlimited _ _, unlimited _ _, unlimited _ _, unlimited _ _⟩ (.inl rfl) }
  have sees : clerk.Sees c.now seen { role := "clerk" } :=
    ⟨⟨by simp [clerk], by simp [clerk]⟩, covers⟩
  refine ⟨⟨_, List.mem_singleton_self _, Caller.holds_visibility.mpr ?_⟩,
    alike_of_sameVisible fun t visible => ?_, alike_of_sameVisible fun t visible => ?_⟩
  · exact ⟨⟨clerk, List.mem_singleton_self _, sees⟩, by simp⟩
  · have ne : t ≠ hidden .assigned := fun eq => unseen _ (eq ▸ visible)
    have first : (ofList [hidden .assigned, seen]).tasks = [hidden .assigned, seen] := rfl
    have second : (ofList [seen]).tasks = [seen] := rfl
    simp [first, second, ne]
  · have ne (state : TaskState) : t ≠ hidden state := fun eq => unseen state (eq ▸ visible)
    have first : (ofList [hidden .assigned, seen]).tasks = [hidden .assigned, seen] := rfl
    have second : (ofList [seen, hidden .completed]).tasks = [seen, hidden .completed] := rfl
    simp [first, second, ne]

end MemoryStore

end Caseload
