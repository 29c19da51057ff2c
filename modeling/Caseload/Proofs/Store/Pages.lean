import Caseload.Proofs.Access.Decision
import Caseload.Proofs.Page.Walk
import Caseload.Proofs.Store.Run
import Mathlib.Data.List.Nodup

/-!
# All pages of a search

A caller who walks through the pages of a search of a store in memory sees all that it finds, and
sees it once: every search of the walk shows its page of one listing and gives its length as the
total.  A total is a word of 64 bits, and that it fits is what the walk needs to end.
-/

namespace Caseload.MemoryStore

/-- A search of the store finds something at a window, and leaves the store as it is. -/
def Finds (s : MemoryStore) (c : Caller) (r : SearchRequest) (required : List Permission)
    (w : Window) (found : SearchResult Task) : Prop :=
  (shared.search c r required w).run s = (.ok found, s)

variable {s : MemoryStore} {c : Caller} {r : SearchRequest} {required : List Permission}

theorem finds_unique (s : MemoryStore) (c : Caller) (r : SearchRequest)
    (required : List Permission) :
    ∀ w found other, s.Finds c r required w found → s.Finds c r required w other →
      found = other := by
  intro w found other finds also
  have same := finds.symm.trans also
  rw [Prod.mk.injEq, Except.ok.injEq] at same
  exact same.1

/-- Each window shows its page of the listing of all that matches. -/
theorem finds_cut (filtered : r.hasFilter = true) {listing : List Task}
    (sorted : listing = r.taskOrder.sort (s.matching (c.searchCondition r required)))
    (w : Window) : s.Finds c r required w ⟨w.cut listing, listing.length⟩ := by
  have length : listing.length = (s.matching (c.searchCondition r required)).length := by
    rw [sorted]
    exact (r.taskOrder.sort_perm _).length_eq
  rw [Finds, s.search_of_hasFilter filtered, length, sorted]

/-- Walking the pages enumerates the result.  From the window at the beginning, with room for any
number of tasks that a signed word can say, the walk that goes on as long as something follows ends
in one way, after as many searches as pages are needed, but at least one.  The tasks that it shows
are, one after the other, the whole listing of what matches, each once; every search gives the same
total; and stepping back from the last window visits the same windows in reverse and stops at the
first. -/
theorem walk_enumerates (s : MemoryStore) (c : Caller) (r : SearchRequest)
    (required : List Permission) (limit : Int64) (filtered : ¬ r.Unfiltered)
    (room : 1 ≤ limit.toInt) (word : s.count (c.searchCondition r required) ≤ maxWord) :
    ∃ first visited last listing,
      Window.ofRequest 0 limit = .ok first ∧
      Walk (s.Finds c r required) first visited ∧
      (∀ others, Walk (s.Finds c r required) first others → others = visited) ∧
      s.Lists (c.searchCondition r required) r.taskOrder listing ∧
      (listing.map Task.id).Nodup ∧
      visited.length =
        max 1 ((listing.length + limit.toInt.toNat - 1) / limit.toInt.toNat) ∧
      visited.flatMap (·.2.tasks) = listing ∧
      (∀ page ∈ visited, page.2.total = listing.length) ∧
      visited.getLast? = some last ∧
      Retreat last.1 (visited.map Prod.fst).reverse ∧
      ∀ others, Retreat last.1 others → others = (visited.map Prod.fst).reverse := by
  rw [← SearchRequest.hasFilter_eq_false_iff, Bool.not_eq_false] at filtered
  let p := c.searchCondition r required
  let listing := r.taskOrder.sort (s.matching p)
  have perm : listing.Perm (s.matching p) := r.taskOrder.sort_perm _
  have short : listing.length ≤ maxWord := perm.length_eq ▸ word
  obtain ⟨first, accepted⟩ : ∃ first, Window.ofRequest 0 limit = .ok first := by
    unfold Window.ofRequest
    rw [if_neg (by decide), dif_neg (by omega)]
    exact ⟨_, rfl⟩
  obtain ⟨-, -, offset, size⟩ := Window.ofRequest_eq_ok_iff.mp accepted
  have beginning : first.offset = 0 := offset
  obtain ⟨visited, walk, complete⟩ := walk_of_shows short (finds_cut filtered rfl) first
  -- nothing comes before the first window, so the way back ends there
  have stop : Retreat first [first] := .stop (by rw [Window.hasPrevious, beginning]; rfl)
  obtain ⟨last, isLast, back⟩ := complete.retreats [] stop
  rw [List.append_nil] at back
  refine ⟨first, visited, last, listing, accepted, walk, fun others other => ?_,
    s.lists_sort_matching p r.taskOrder, ?_, ?_, ?_, complete.total, isLast, back,
    fun others other => other.unique back⟩
  · exact other.unique (finds_unique s c r required) walk
  · exact (perm.map Task.id).nodup_iff.mpr (s.nodup_ids_matching p)
  · rw [complete.length, beginning, size, Nat.sub_zero]
  · rw [complete.tasks, beginning, List.drop_zero]

/-- Three tasks on pages of two: the walk of a clerk ends after the second page. -/
theorem walk_of_clerk :
    let clerk : RoleAssignment :=
      { actor := "7", scope := .organisation, role := "clerk", grant := .excluded }
    let c : Caller := ⟨[clerk], ⟨⟨2026, 3, 1, by decide⟩, 0, 0, by decide⟩⟩
    let task (id : String) :=
      (Task.bare id "review" .unassigned "IA" "1" "Asylum").withRole { role := "clerk" }
    let s := ofList [task "c", task "a", task "b"]
    let r : SearchRequest := { jurisdictions := ["IA"] }
    ¬ r.Unfiltered ∧ 1 ≤ (2 : Int64).toInt ∧ s.count (c.searchCondition r []) ≤ maxWord ∧
      ∃ first visited, Window.ofRequest 0 2 = .ok first ∧
        Walk (s.Finds c r []) first visited ∧ visited.length = 2 ∧
        visited.flatMap (·.2.tasks) = [task "a", task "b", task "c"] := by
  intro clerk c task s r
  have filtered : ¬ r.Unfiltered := fun none => absurd none.jurisdictions (by decide)
  have sees (id : String) : clerk.Sees c.now (task id) { role := "clerk" } := {
    inForce := ⟨by simp [clerk], by simp [clerk]⟩
    covers := {
      role := rfl
      level := Nat.le_refl _
      reaches := .excluded rfl fun text kept => by simp [clerk] at kept } }
  have accepts (id : String) : r.Accepts (task id) := {
    jurisdiction := .inr ⟨"IA", List.mem_singleton_self _, rfl⟩
    state := .inl rfl
    location := .inl rfl
    region := .inl rfl
    caseId := .inl rfl
    user := .inl rfl
    workType := .inl rfl
    roleCategory := .inl rfl
    taskType := .inl rfl
    taskId := .inl rfl }
  have matched (id : String) : (c.searchCondition r []).matchesTask (task id) = true := by
    refine List.any_eq_true.mpr ⟨{ role := "clerk" }, List.mem_singleton_self _, ?_⟩
    rw [Caller.searchCondition, Predicate.holds_all, List.forall_mem_cons,
      List.forall_mem_singleton, SearchRequest.holds_filters, Caller.holds_visibility]
    exact ⟨accepts id, ⟨clerk, List.mem_singleton_self _, sees id⟩, by simp⟩
  have all : s.matching (c.searchCondition r []) = [task "c", task "a", task "b"] := by
    refine List.filter_eq_self.mpr fun t mem => ?_
    have stored : t ∈ [task "c", task "a", task "b"] := mem
    simp only [List.mem_cons, List.not_mem_nil, or_false] at stored
    obtain rfl | rfl | rfl := stored <;> exact matched _
  have word : s.count (c.searchCondition r []) ≤ maxWord := by
    rw [count, all]
    decide
  obtain ⟨first, visited, last, listing, accepted, walk, -, lists, distinct, length, tasks, -⟩ :=
    walk_enumerates s c r [] 2 filtered (by decide) word
  -- none of the tasks has a due date, so they are listed by their ids
  have before (x y : String) (lt : compare x y = .lt) : r.taskOrder.Before (task x) (task y) := lt
  have ordered : [task "a", task "b", task "c"].Pairwise r.taskOrder.Before := by
    simp only [List.pairwise_cons, List.forall_mem_cons, List.not_mem_nil, false_implies,
      implies_true, List.Pairwise.nil, and_true]
    exact ⟨⟨before _ _ (by decide), before _ _ (by decide)⟩, before _ _ (by decide)⟩
  have sorted : listing = [task "a", task "b", task "c"] := by
    have nodup : [task "a", task "b", task "c"].Nodup :=
      .of_map Task.id (by decide : ["a", "b", "c"].Nodup)
    refine r.taskOrder.eq_of_perm_of_listed ?_ lists.ordered ordered
    refine (List.perm_ext_iff_of_nodup (.of_map _ distinct) nodup).mpr fun t => ?_
    rw [lists.mem, ← mem_matching, all]
    simp only [List.mem_cons, List.not_mem_nil, or_false]
    grind
  refine ⟨filtered, by decide, word, first, visited, accepted, walk, ?_, ?_⟩
  · have two : (2 : Int64).toInt.toNat = 2 := by decide
    rw [length, sorted, two]
    change max 1 ((3 + 2 - 1) / 2) = 2
    decide
  · rw [tasks, sorted]

end Caseload.MemoryStore
