import Caseload.Proofs.Sort.Compose
import Caseload.Proofs.Store.Pages

/-!
# Tasks and their summaries

A search gives tasks or their summaries.  Both views refuse the same requests and count the same
tasks, and where the caller asks for an order, they show the same tasks in it.  Only where no
instruction names a key do they differ, in their order alone: tasks come by their due dates
(`Task.DueBefore`) and summaries by their rank (`TaskSummary.RankedBefore`).  These two orders are
said here without keys and directions, and it is proved that the keys amount to them.
-/

namespace Caseload

/-! ## The two orders -/

/-- The first value is on the right side of the second one, which may be missing; a value that is
missing itself is before none. -/
def Ahead {α : Type} (below : α → α → Prop) : Option α → Option α → Prop
  | some v, some w => below v w
  | some _, none => True
  | none, _ => False

/-- The first task is due later, or both are due alike and the first one has the lower id. -/
def Task.DueBefore (a b : Task) : Prop :=
  Ahead (· > ·) a.due b.due ∨ a.due = b.due ∧ a.id < b.id

/-- The first summary has the lower rank: by the first number, then by the date, then by the second
number, and by the id where all of them are the same. -/
def TaskSummary.RankedBefore (a b : TaskSummary) : Prop :=
  Ahead (· < ·) a.majorPriority b.majorPriority ∨ a.majorPriority = b.majorPriority ∧
    (Ahead (· < ·) a.priorityDate b.priorityDate ∨ a.priorityDate = b.priorityDate ∧
      (Ahead (· < ·) a.minorPriority b.minorPriority ∨ a.minorPriority = b.minorPriority ∧
        a.id < b.id))

namespace SortOrder

variable {a b : Task}

theorem compareBy_nil_eq_lt_iff : compareBy [] a b = .lt ↔ a.id < b.id :=
  compareOfLessAndEq_eq_lt

/-- A key in front compares what is in its field as `below` does, provided that all values there are
of one kind. -/
theorem compareBy_cons_eq_lt_iff {α : Type} {k : SortKey} {keys : List SortKey}
    {value : Task → Option α} {kind : α → SortValue} {below : α → α → Prop}
    (field : ∀ t, t.sortValue? k.field = (value t).map kind) (injective : Function.Injective kind)
    (agree : ∀ v w, k.direction.compare (some (kind v)) (some (kind w)) = .lt ↔ below v w) :
    compareBy (k :: keys) a b = .lt ↔
      Ahead below (value a) (value b) ∨ value a = value b ∧ compareBy keys a b = .lt := by
  have first : k.compare a b = .lt ↔ Ahead below (value a) (value b) := by
    rw [SortKey.compare, field, field]
    cases value a with
    | none => cases value b <;> simp [SortDirection.compare, Ahead]
    | some v =>
      cases value b with
      | none => simp [SortDirection.compare, Ahead]
      | some w => exact agree v w
  have level : k.compare a b = .eq ↔ value a = value b := by
    rw [SortKey.compare_eq_iff, field, field, (Option.map_injective injective).eq_iff]
  rw [compareBy, Ordering.then_eq_lt, first, level]

theorem instant_injective : Function.Injective SortValue.instant :=
  fun _ _ => SortValue.instant.inj

theorem number_injective : Function.Injective SortValue.number :=
  fun _ _ => SortValue.number.inj

theorem compare_number_eq_lt_iff {v w : Int32} :
    SortDirection.ascending.compare (some (.number v)) (some (.number w)) = .lt ↔ v < w :=
  Int.compare_eq_lt.trans Int32.lt_iff_toInt_lt.symm

theorem before_taskDefault_iff : taskDefault.Before a b ↔ a.DueBefore b := by
  refine (compareBy_cons_eq_lt_iff (fun _ => rfl) instant_injective
    fun v w => Int.compare_eq_lt).trans ?_
  rw [compareBy_nil_eq_lt_iff]
  rfl

theorem before_summaryDefault_iff :
    summaryDefault.Before a b ↔ a.summary.RankedBefore b.summary := by
  refine (compareBy_cons_eq_lt_iff (fun _ => rfl) number_injective
    fun v w => compare_number_eq_lt_iff).trans (or_congr_right (and_congr_right' ?_))
  refine (compareBy_cons_eq_lt_iff (fun _ => rfl) instant_injective
    fun v w => Int.compare_eq_lt).trans (or_congr_right (and_congr_right' ?_))
  refine (compareBy_cons_eq_lt_iff (fun _ => rfl) number_injective
    fun v w => compare_number_eq_lt_iff).trans (or_congr_right (and_congr_right' ?_))
  exact compareBy_nil_eq_lt_iff

end SortOrder

/-! ## Which order a request gets -/

namespace SearchRequest

open SortOrder (named)

variable {r : SearchRequest}

theorem orders_eq_of_named (some : named r.sorting ≠ []) : r.summaryOrder = r.taskOrder := by
  rw [summaryOrder, taskOrder, SortOrder.compose_eq, SortOrder.compose_eq, if_neg some, if_neg some]

/-- Where nothing else is asked for, tasks are listed by their due dates. -/
theorem pairwise_dueBefore_sort (none : named r.sorting = []) {tasks : List Task}
    (distinct : (tasks.map Task.id).Nodup) : (r.taskOrder.sort tasks).Pairwise Task.DueBefore := by
  rw [taskOrder, SortOrder.compose_eq, if_pos none]
  exact (SortOrder.taskDefault.pairwise_before_sort distinct).imp SortOrder.before_taskDefault_iff.mp

/-- Where nothing else is asked for, summaries are listed by their rank. -/
theorem pairwise_rankedBefore_sort (none : named r.sorting = []) {tasks : List Task}
    (distinct : (tasks.map Task.id).Nodup) :
    ((r.summaryOrder.sort tasks).map Task.summary).Pairwise TaskSummary.RankedBefore := by
  rw [summaryOrder, SortOrder.compose_eq, if_pos none, List.pairwise_map]
  exact (SortOrder.summaryDefault.pairwise_before_sort distinct).imp
    SortOrder.before_summaryDefault_iff.mp

end SearchRequest

/-! ## Both views of a search -/

/-- What was found, as summaries. -/
def SearchResult.summarised (found : SearchResult Task) : SearchResult TaskSummary :=
  ⟨found.tasks.map Task.summary, found.total⟩

namespace MemoryStore

variable {s : MemoryStore} {c : Caller} {r : SearchRequest} {required : List Permission}

/-- A search of the store finds summaries at a window, and leaves the store as it is. -/
def FindsSummaries (s : MemoryStore) (c : Caller) (r : SearchRequest) (required : List Permission)
    (w : Window) (found : SearchResult TaskSummary) : Prop :=
  (shared.searchSummaries c r required w).run s = (.ok found, s)

theorem searchSummaries_shared (s : MemoryStore) {c : Caller} {r : SearchRequest}
    {required : List Permission} {page : Window} :
    (shared.searchSummaries c r required page).run s =
      if r.hasFilter then
        let p := c.searchCondition r required
        (.ok (SearchResult.summarised ⟨s.list ⟨p, r.summaryOrder, some page⟩, s.count p⟩), s)
      else
        (.error .noFilter, s) := by
  unfold TaskStore.searchSummaries SearchRequest.requireFilter
  split
  next =>
    refine (run_bind_pure (shared.listPage (c.searchCondition r required) r.summaryOrder page)
      SearchResult.summarised s).trans ?_
    rw [listPage_shared]
    rfl
  next => rfl

/-- Each window shows its page of the summaries of all that matches. -/
theorem findsSummaries_cut (filtered : r.hasFilter = true) {listing : List Task}
    (sorted : listing = r.summaryOrder.sort (s.matching (c.searchCondition r required)))
    (w : Window) :
    s.FindsSummaries c r required w ⟨w.cut (listing.map Task.summary), listing.length⟩ := by
  have length : listing.length = (s.matching (c.searchCondition r required)).length := by
    rw [sorted]
    exact (r.summaryOrder.sort_perm _).length_eq
  rw [FindsSummaries, searchSummaries_shared, if_pos filtered, length, sorted, Window.cut_map]
  rfl

/-- The two views of a search agree.  They fail together and for the same reason, and otherwise give
the same total.  Where an instruction of the request names a key, the summaries are those of the
tasks, in the same order.  Where none does, the pages of both views are cut from two listings of the
same tasks, the tasks by their due dates and the summaries by their rank, and walking through the
pages of either view shows its listing. -/
theorem views_agree (s : MemoryStore) (c : Caller) (r : SearchRequest)
    (required : List Permission) :
    (∀ page, ((shared.search c r required page).run s).1.map SearchResult.total =
      ((shared.searchSummaries c r required page).run s).1.map SearchResult.total) ∧
    ((∃ i ∈ r.sorting, ∃ k, i.resolve? = some k) → ∀ page,
      ((shared.searchSummaries c r required page).run s).1 =
        ((shared.search c r required page).run s).1.map SearchResult.summarised) ∧
    ((∀ i ∈ r.sorting, i.resolve? = none) → ¬ r.Unfiltered →
      ∃ (tasks : List Task) (summaries : List TaskSummary),
        (∀ page, s.Finds c r required page ⟨page.cut tasks, tasks.length⟩ ∧
          s.FindsSummaries c r required page ⟨page.cut summaries, summaries.length⟩) ∧
        summaries.Perm (tasks.map Task.summary) ∧
        tasks.Pairwise Task.DueBefore ∧ summaries.Pairwise TaskSummary.RankedBefore ∧
        ∀ first : Window, first.offset = 0 → tasks.length ≤ maxWord →
          ∃ taskPages summaryPages,
            Walk (s.Finds c r required) first taskPages ∧
            taskPages.flatMap (·.2.tasks) = tasks ∧
            Walk (s.FindsSummaries c r required) first summaryPages ∧
            summaryPages.flatMap (·.2.tasks) = summaries) := by
  let matched := s.matching (c.searchCondition r required)
  let tasks := r.taskOrder.sort matched
  let ranked := r.summaryOrder.sort matched
  have distinct : (matched.map Task.id).Nodup := s.nodup_ids_matching _
  have same : ranked.Perm tasks :=
    (r.summaryOrder.sort_perm matched).trans (r.taskOrder.sort_perm matched).symm
  refine ⟨fun page => ?totals, fun some page => ?ordered, fun none filtered => ?unordered⟩
  case totals =>
    -- the order has no part in whether a search fails and in how many tasks it counts
    rw [search_shared, listPage_shared, searchSummaries_shared]
    split <;> rfl
  case ordered =>
    obtain ⟨i, mem, k, resolves⟩ := some
    have some : SortOrder.named r.sorting ≠ [] :=
      List.ne_nil_of_mem (List.mem_filterMap.mpr ⟨i, mem, resolves⟩)
    rw [search_shared, listPage_shared, searchSummaries_shared,
      SearchRequest.orders_eq_of_named some]
    split <;> rfl
  case unordered =>
    have none : SortOrder.named r.sorting = [] := List.filterMap_eq_nil_iff.mpr none
    rw [← SearchRequest.hasFilter_eq_false_iff, Bool.not_eq_false] at filtered
    have finds (page : Window) : s.Finds c r required page ⟨page.cut tasks, tasks.length⟩ :=
      finds_cut filtered rfl page
    have findsSummaries (page : Window) : s.FindsSummaries c r required page
        ⟨page.cut (ranked.map Task.summary), (ranked.map Task.summary).length⟩ := by
      rw [List.length_map]
      exact findsSummaries_cut filtered rfl page
    refine ⟨tasks, ranked.map Task.summary, fun page => ⟨finds page, findsSummaries page⟩,
      same.map Task.summary, SearchRequest.pairwise_dueBefore_sort none distinct,
      SearchRequest.pairwise_rankedBefore_sort none distinct, fun first beginning short => ?_⟩
    have alsoShort : (ranked.map Task.summary).length ≤ maxWord := by
      rwa [List.length_map, same.length_eq]
    obtain ⟨taskPages, walk, complete⟩ := walk_of_shows short finds first
    obtain ⟨summaryPages, summaryWalk, alsoComplete⟩ :=
      walk_of_shows alsoShort findsSummaries first
    refine ⟨taskPages, summaryPages, walk, ?_, summaryWalk, ?_⟩
    · rw [complete.tasks, beginning, List.drop_zero]
    · rw [alsoComplete.tasks, beginning, List.drop_zero]

end MemoryStore

end Caseload
