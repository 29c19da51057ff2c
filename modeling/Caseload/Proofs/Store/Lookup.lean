import Caseload.Proofs.Store.Invisible
import Caseload.Proofs.Store.Run

/-!
# Looking tasks up

A caller can look up the rows by which a task is seen, the task itself, and what is completable on
a case.  Each of the three is compiled and run in a way of its own: as a listing of rows, as a page
of one task and as a listing without a page.  They agree all the same (`lookups_agree`): the rows of
the first lookup decide what the second one finds, and the second one decides what the third lists.

What carries the proof is that a store has at most one task with an id, so that a condition on the
id picks out what `MemoryStore.find?` finds.
-/

namespace Caseload

/-! ## What the conditions ask for -/

theorem Predicate.matchesTask_iff {p : Predicate} {t : Task} :
    p.matchesTask t = true ↔ ∃ row ∈ t.roles, p.holds t row = true :=
  List.any_eq_true

namespace Caller

variable {c : Caller} {t : Task} {row : RoleRow} {required : List Permission}

/-- Required permissions are asked of the same row by which the task is seen. -/
theorem holds_visibility_iff_grants (c : Caller) (required : List Permission) :
    (c.visibility required).holds t row = true ↔
      (c.visibility []).holds t row = true ∧ ∀ p ∈ required, row.grants p = true := by
  rw [holds_visibility, holds_visibility]
  simp

theorem holds_taskCondition {id : String} :
    (c.taskCondition id required).holds t row = true ↔
      t.id = id ∧ (c.visibility required).holds t row = true := by
  simp [taskCondition, Field.value?]

theorem matchesTask_taskCondition {id : String} :
    (c.taskCondition id required).matchesTask t =
      (decide (t.id = id) && (c.visibility required).matchesTask t) := by
  rw [Bool.eq_iff_iff, Bool.and_eq_true, decide_eq_true_eq, Predicate.matchesTask_iff,
    Predicate.matchesTask_iff]
  simp only [holds_taskCondition]
  constructor
  · rintro ⟨row, mem, same, seen⟩
    exact ⟨same, row, mem, seen⟩
  · rintro ⟨same, row, mem, seen⟩
    exact ⟨row, mem, same, seen⟩

/-- Of the task with the id, the rows that satisfy the condition are those by which it is seen. -/
theorem matchingRows_taskCondition :
    (c.taskCondition t.id required).matchingRows t = (c.visibility required).matchingRows t := by
  refine List.filter_congr fun row _ => ?_
  rw [Bool.eq_iff_iff, holds_taskCondition]
  exact and_iff_right rfl

theorem mem_completable_iff {s : TaskState} :
    s ∈ TaskState.completable ↔ s = .assigned ∨ s = .unassigned := by
  simp [TaskState.completable]

theorem holds_completableCondition {caseId : String} {types : List String} :
    (c.completableCondition caseId types required).holds t row = true ↔
      t.caseId = caseId ∧ (t.state = .assigned ∨ t.state = .unassigned) ∧ t.type ∈ types ∧
        (c.visibility required).holds t row = true := by
  have state : (Predicate.member .state (TaskState.completable.map TaskState.name)).holds t row =
      true ↔ t.state = .assigned ∨ t.state = .unassigned := by
    rw [Predicate.holds_member, ← mem_completable_iff]
    constructor
    · rintro ⟨_, mem, same⟩
      obtain ⟨s, listed, rfl⟩ := List.mem_map.mp mem
      rwa [TaskState.name_injective (Option.some.inj same)]
    · intro listed
      exact ⟨t.state.name, List.mem_map_of_mem listed, rfl⟩
  have type : (Predicate.member .taskType types).holds t row = true ↔ t.type ∈ types := by
    simp [Field.value?]
  rw [completableCondition, Predicate.holds_all]
  simp only [List.forall_mem_cons, List.not_mem_nil, false_implies, implies_true, and_true, state,
    type, Predicate.holds_equals, Field.value?, Option.some_inj]

end Caller

/-! ## The task with an id -/

theorem filter_id_eq_toList_find? {tasks : List Task} (distinct : (tasks.map Task.id).Nodup)
    (id : String) :
    tasks.filter (fun t => t.id = id) = (tasks.find? fun t => t.id = id).toList := by
  induction tasks with
  | nil => rfl
  | cons t rest ih =>
    obtain ⟨fresh, distinct⟩ := List.nodup_cons.mp distinct
    by_cases same : t.id = id
    · -- the id does not come again
      have others : rest.filter (fun u => u.id = id) = [] := by
        refine List.filter_eq_nil_iff.mpr fun u mem found => fresh ?_
        rw [same, ← of_decide_eq_true found]
        exact List.mem_map_of_mem mem
      rw [List.filter_cons_of_pos (by simpa using same), others,
        List.find?_cons_of_pos (by simpa using same)]
      rfl
    · rw [List.filter_cons_of_neg (by simpa using same), ih distinct,
        List.find?_cons_of_neg (by simpa using same)]

namespace SortOrder

theorem sort_nil (order : SortOrder) : order.sort [] = [] :=
  (order.sort_perm []).eq_nil

theorem sort_toList (order : SortOrder) (found : Option Task) :
    order.sort found.toList = found.toList := by
  cases found with
  | none => exact order.sort_nil
  | some t => exact List.perm_singleton.mp (order.sort_perm [t])

end SortOrder

namespace MemoryStore

variable {s : MemoryStore} {c : Caller} {required : List Permission}

theorem find?_eq_some_iff {id : String} {t : Task} :
    s.find? id = some t ↔ t ∈ s.tasks ∧ t.id = id := by
  have found : t ∈ (s.find? id).toList ↔ t ∈ s.tasks ∧ t.id = id := by
    rw [find?, ← filter_id_eq_toList_find? s.distinct id]
    simp
  rw [← found, Option.mem_toList]

theorem find?_id {t : Task} (mem : t ∈ s.tasks) : s.find? t.id = some t :=
  find?_eq_some_iff.mpr ⟨mem, rfl⟩

theorem matching_taskCondition (s : MemoryStore) (c : Caller) (id : String)
    (required : List Permission) :
    s.matching (c.taskCondition id required) =
      ((s.find? id).filter (c.visibility required).matchesTask).toList := by
  have split : s.matching (c.taskCondition id required) =
      (s.tasks.filter fun t => t.id = id).filter (c.visibility required).matchesTask := by
    rw [matching, List.filter_filter]
    refine List.filter_congr fun t _ => ?_
    rw [Caller.matchesTask_taskCondition, Bool.and_comm]
  rw [split, filter_id_eq_toList_find? s.distinct id, find?, Option.toList_filter]

/-! ## What lookups find -/

/-- The rows by which a caller sees the task with an id, whatever they allow. -/
def seenRows (s : MemoryStore) (c : Caller) (id : String) : List RoleRow :=
  match s.find? id with
  | none => []
  | some t => t.roles.filter fun row => (c.visibility []).holds t row

theorem rows_rowsCondition (s : MemoryStore) (c : Caller) (id : String) :
    s.rows (c.rowsCondition id) = s.seenRows c id := by
  rw [rows_eq_flatMap_matching, Caller.rowsCondition, matching_taskCondition, SortOrder.sort_toList,
    seenRows]
  cases found : s.find? id with
  | none => rfl
  | some t =>
    obtain ⟨-, rfl⟩ := find?_eq_some_iff.mp found
    cases seen : (c.visibility []).matchesTask t with
    | true =>
      rw [Option.filter_some_pos seen, Option.toList_some, List.flatMap_singleton]
      exact Caller.matchingRows_taskCondition
    | false =>
      -- no row of the task satisfies the condition, so both lists are empty
      rw [Option.filter_some_neg seen]
      refine (List.filter_eq_nil_iff.mpr fun row mem holds => ?_).symm
      rw [Predicate.matchesTask_iff.mpr ⟨row, mem, holds⟩] at seen
      cases seen

theorem visibleRows_shared (s : MemoryStore) (c : Caller) (id : String) :
    (shared.visibleRows c id).run s = (.ok (s.seenRows c id), s) := by
  rw [← rows_rowsCondition]
  simp only [TaskStore.visibleRows]
  split
  next never =>
    rw [rows_eq_flatMap_matching, s.matching_of_isNever never, SortOrder.sort_nil]
    rfl
  next => rfl

theorem get?_shared (s : MemoryStore) (c : Caller) (id : String) (required : List Permission) :
    (shared.get? c id required).run s =
      (.ok ((s.find? id).filter (c.visibility required).matchesTask), s) := by
  have page (found : Option Task) : (Window.single.cut found.toList).head? = found := by
    cases found <;> rfl
  have listed : (s.list ⟨c.taskCondition id required, .taskDefault, some .single⟩).head? =
      (s.find? id).filter (c.visibility required).matchesTask := by
    rw [list, matching_taskCondition, SortOrder.sort_toList, page]
  rw [← listed]
  simp only [TaskStore.get?]
  split
  next never =>
    rw [s.list_of_isNever never]
    rfl
  next => rfl

theorem completable_shared (s : MemoryStore) (c : Caller) (caseId : String) (types : List String) :
    (shared.completable c caseId types).run s =
      (.ok (SortOrder.taskDefault.sort
        (s.matching (c.completableCondition caseId types Permission.toComplete))), s) := by
  simp only [TaskStore.completable]
  split
  next never =>
    rw [s.matching_of_isNever never, SortOrder.sort_nil]
    rfl
  next => rfl

/-- A stored task is found by its id exactly where one of its rows lets the caller see it and allows
what is required. -/
theorem get?_shared_eq_some_iff {t : Task} (mem : t ∈ s.tasks) :
    (∃ found, (shared.get? c t.id required).run s = (.ok (some found), s)) ↔
      ∃ row ∈ t.roles, (c.visibility required).holds t row = true := by
  rw [get?_shared, find?_id mem, ← Predicate.matchesTask_iff]
  cases seen : (c.visibility required).matchesTask t with
  | true =>
    rw [Option.filter_some_pos seen]
    exact iff_of_true ⟨t, rfl⟩ rfl
  | false =>
    rw [Option.filter_some_neg seen]
    refine iff_of_false ?_ Bool.false_ne_true
    rintro ⟨found, ⟨⟩⟩

/-- The lookups agree with each other.  The rows by which a caller sees a task are those rows of the
stored task, in their order, by which the task is visible; the task is found exactly where one of
them allows all that is required; and on a case just those open tasks of the types are completable
that are found with the permissions to own and execute them, each once and in order. -/
theorem lookups_agree (s : MemoryStore) (c : Caller) :
    (∀ id, (shared.visibleRows c id).run s =
      (.ok (match s.find? id with
        | none => []
        | some t => t.roles.filter fun row => (c.visibility []).holds t row), s)) ∧
    (∀ id required, ∃ rows, (shared.visibleRows c id).run s = (.ok rows, s) ∧
      (shared.get? c id required).run s =
        (.ok (if ∃ row ∈ rows, ∀ p ∈ required, row.grants p = true then s.find? id else none),
          s)) ∧
    ∀ caseId types, ∃ listing, (shared.completable c caseId types).run s = (.ok listing, s) ∧
      (listing.map Task.id).Nodup ∧ listing.Pairwise SortOrder.taskDefault.Before ∧
      ∀ t, t ∈ listing ↔ t ∈ s.tasks ∧ t.caseId = caseId ∧
        (t.state = .assigned ∨ t.state = .unassigned) ∧ t.type ∈ types ∧
        ∃ found, (shared.get? c t.id [.own, .execute]).run s = (.ok (some found), s) := by
  refine ⟨s.visibleRows_shared c, fun id required => ?got, fun caseId types => ?completable⟩
  case got =>
    refine ⟨_, s.visibleRows_shared c id, ?_⟩
    rw [get?_shared, seenRows]
    cases found : s.find? id with
    | none => simp
    | some t =>
      -- one row has to do both: to show the task and to allow what is required
      have sameRow : (c.visibility required).matchesTask t = true ↔
          ∃ row ∈ t.roles.filter fun row => (c.visibility []).holds t row,
            ∀ p ∈ required, row.grants p = true := by
        rw [Predicate.matchesTask_iff]
        simp only [c.holds_visibility_iff_grants required, List.mem_filter, and_assoc]
      cases seen : (c.visibility required).matchesTask t with
      | true => rw [Option.filter_some_pos seen, if_pos (sameRow.mp seen)]
      | false => rw [Option.filter_some_neg seen, if_neg (mt sameRow.mpr (Bool.eq_false_iff.mp seen))]
  case completable =>
    let p := c.completableCondition caseId types Permission.toComplete
    have distinct := s.nodup_ids_matching p
    refine ⟨_, s.completable_shared c caseId types, ?_, ?_, fun t => ?_⟩
    · exact ((SortOrder.taskDefault.sort_perm _).map Task.id).nodup_iff.mpr distinct
    · exact SortOrder.taskDefault.pairwise_before_sort distinct
    · rw [SortOrder.mem_sort, mem_matching]
      refine and_congr_right fun mem => ?_
      rw [get?_shared_eq_some_iff mem]
      simp only [Caller.holds_completableCondition]
      constructor
      · rintro ⟨row, inRoles, onCase, isOpen, type, seen⟩
        exact ⟨onCase, isOpen, type, row, inRoles, seen⟩
      · rintro ⟨onCase, isOpen, type, row, inRoles, seen⟩
        exact ⟨row, inRoles, onCase, isOpen, type, seen⟩

end MemoryStore

end Caseload
