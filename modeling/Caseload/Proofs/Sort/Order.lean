import Caseload.Sort.Order
import Mathlib.Data.List.Basic

/-!
# Sorted listings

Comparing tasks by any keys is a total order in which only tasks of one id are level.  So tasks of
which no two have the same id can be listed in one way only: `eq_of_perm_of_listed`.  Sorting gives
that listing, whatever order the tasks came in, and it commutes with leaving tasks out.
-/

namespace Caseload

/-! ## The comparison is a total order -/

instance : Std.TransOrd Instant where
  eq_swap {a b} := Std.OrientedOrd.eq_swap (a := a.place) (b := b.place)
  isLE_trans {a b c} := Std.TransOrd.isLE_trans (a := a.place) (b := b.place) (c := c.place)

instance : Std.TransCmp SortValue.compare where
  eq_swap {a b} := by
    cases a <;> cases b <;> simp only [SortValue.compare, Ordering.swap]
    all_goals exact Std.OrientedOrd.eq_swap
  isLE_trans {a b c} ab bc := by
    cases a <;> cases b <;> cases c <;> simp only [SortValue.compare] at ab bc ⊢
    all_goals first | rfl | contradiction | exact Std.TransOrd.isLE_trans ab bc

instance {d : SortDirection} : Std.TransCmp d.compare where
  eq_swap {a b} := by
    cases a <;> cases b <;> cases d <;> simp only [SortDirection.compare, Ordering.swap]
    all_goals exact Std.OrientedCmp.eq_swap
  isLE_trans {a b c} ab bc := by
    cases a <;> cases b <;> cases c <;> cases d <;> simp only [SortDirection.compare] at ab bc ⊢
    all_goals first
      | rfl
      | contradiction
      | exact Std.TransCmp.isLE_trans ab bc
      | exact Std.TransCmp.isLE_trans bc ab

instance {k : SortKey} : Std.TransCmp k.compare where
  eq_swap := Std.OrientedCmp.eq_swap (α := Option SortValue)
  isLE_trans ab bc := Std.TransCmp.isLE_trans (α := Option SortValue) ab bc

namespace SortOrder

/-- Comparing by several keys inherits both laws from the keys, the ids coming last. -/
theorem transCmp_compareBy (keys : List SortKey) : Std.TransCmp (compareBy keys) := by
  induction keys with
  | nil => exact inferInstanceAs (Std.TransCmp (compareOn Task.id))
  | cons k keys ih => exact inferInstanceAs (Std.TransCmp (compareLex k.compare (compareBy keys)))

instance {order : SortOrder} : Std.TransCmp order.compare :=
  transCmp_compareBy order.keys

theorem id_eq_of_compareBy_eq {keys : List SortKey} {a b : Task}
    (level : compareBy keys a b = .eq) : a.id = b.id := by
  induction keys with
  | nil => exact Std.LawfulEqOrd.eq_of_compare level
  | cons k keys ih => exact ih (Ordering.then_eq_eq.mp level).2

theorem compare_swap (order : SortOrder) (a b : Task) :
    order.compare a b = (order.compare b a).swap :=
  Std.OrientedCmp.eq_swap

/-- The first task comes strictly before the second one. -/
def Before (order : SortOrder) (a b : Task) : Prop :=
  order.compare a b = .lt

theorem before_of_isLE_of_ne {order : SortOrder} {a b : Task}
    (le : (order.compare a b).isLE = true) (ne : a.id ≠ b.id) : order.Before a b := by
  cases h : order.compare a b with
  | lt => exact h
  | eq => exact absurd (id_eq_of_compareBy_eq h) ne
  | gt => simp [h] at le

theorem not_before_of_before {order : SortOrder} {a b : Task} (before : order.Before a b) :
    ¬ order.Before b a := by
  rw [Before, compare_swap, before]
  decide

/-! ## Listings -/

/-- Two listings of the same tasks, both in order, are the same. -/
theorem eq_of_perm_of_listed (order : SortOrder) {l m : List Task} (perm : l.Perm m)
    (hl : l.Pairwise order.Before) (hm : m.Pairwise order.Before) : l = m :=
  perm.eq_of_pairwise (fun _ _ _ _ ab ba => absurd ba (not_before_of_before ab)) hl hm

theorem sort_perm (order : SortOrder) (tasks : List Task) : (order.sort tasks).Perm tasks :=
  List.mergeSort_perm _ _

theorem mem_sort {order : SortOrder} {tasks : List Task} {t : Task} :
    t ∈ order.sort tasks ↔ t ∈ tasks :=
  (order.sort_perm tasks).mem_iff

theorem pairwise_isLE_sort (order : SortOrder) (tasks : List Task) :
    (order.sort tasks).Pairwise fun a b => (order.compare a b).isLE = true := by
  apply List.pairwise_mergeSort
  · intro a b c ab bc
    exact Std.TransCmp.isLE_trans ab bc
  · intro a b
    rw [order.compare_swap b a]
    cases order.compare a b <;> rfl

/-- Sorting puts tasks of which no two have the same id strictly in order. -/
theorem pairwise_before_sort (order : SortOrder) {tasks : List Task}
    (distinct : (tasks.map Task.id).Nodup) : (order.sort tasks).Pairwise order.Before := by
  have ids : (order.sort tasks).Pairwise fun a b => a.id ≠ b.id :=
    List.pairwise_map.mp (((order.sort_perm tasks).map Task.id).nodup_iff.mpr distinct)
  exact ((order.pairwise_isLE_sort tasks).and ids).imp fun ⟨le, ne⟩ => before_of_isLE_of_ne le ne

/-- Tasks of which no two have the same id are put in order in one way only. -/
theorem eq_sort_of_pairwise_isLE (order : SortOrder) {tasks listed : List Task}
    (perm : listed.Perm tasks) (distinct : (tasks.map Task.id).Nodup)
    (ordered : listed.Pairwise fun a b => (order.compare a b).isLE = true) :
    listed = order.sort tasks := by
  have ids : listed.Pairwise fun a b => a.id ≠ b.id :=
    List.pairwise_map.mp ((perm.map Task.id).nodup_iff.mpr distinct)
  have before : listed.Pairwise order.Before :=
    (ordered.and ids).imp fun ⟨le, ne⟩ => before_of_isLE_of_ne le ne
  exact order.eq_of_perm_of_listed (perm.trans (order.sort_perm tasks).symm) before
    (order.pairwise_before_sort distinct)

/-- The order in which tasks come does not matter for sorting them. -/
theorem sort_eq_of_perm (order : SortOrder) {l m : List Task} (perm : l.Perm m)
    (distinct : (l.map Task.id).Nodup) : order.sort l = order.sort m := by
  apply order.eq_of_perm_of_listed
  · exact (order.sort_perm l).trans (perm.trans (order.sort_perm m).symm)
  · exact order.pairwise_before_sort distinct
  · exact order.pairwise_before_sort ((perm.map Task.id).nodup_iff.mp distinct)

/-- Tasks can be left out before or after sorting. -/
theorem filter_sort (order : SortOrder) (keep : Task → Bool) {tasks : List Task}
    (distinct : (tasks.map Task.id).Nodup) :
    (order.sort tasks).filter keep = order.sort (tasks.filter keep) := by
  apply order.eq_of_perm_of_listed
  · exact ((order.sort_perm tasks).filter keep).trans (order.sort_perm _).symm
  · exact (order.pairwise_before_sort distinct).filter keep
  · exact order.pairwise_before_sort (distinct.sublist (List.filter_sublist.map Task.id))

end SortOrder

end Caseload
