import Caseload.Proofs.Sort.Order
import Caseload.Store.Memory

/-!
# What a comparison of tasks sees

Comparing tasks is total, and two tasks are level only where nothing that is compared tells them
apart: they have the same id and the same value, or none, in the field of every key
(`compareBy_eq_iff`).  The ingredient that is not plain is that instants are compared by a single
number, so it has to be shown that no two of them share it (`Instant.place_injective`).

Since a store in memory never holds two tasks of one id, what it lists does not depend on the order
in which it goes through its tasks.
-/

namespace Caseload

/-! ## Values that compare as equal are equal -/

theorem IsDate.bounds {year : Int} {month day : Nat} (isDate : IsDate year month day) :
    1 ≤ month ∧ month ≤ 12 ∧ 1 ≤ day ∧ day ≤ 31 := by
  obtain ⟨-, -, first, last⟩ := isDate
  unfold daysInMonth at last
  split at last
  all_goals first | omega | (split at last <;> omega)

/-- The digits of a place in the order of time can be read off it. -/
theorem Instant.place_injective : ∀ {i j : Instant}, i.place = j.place → i = j
  | ⟨⟨year, month, day, isDate⟩, second, nano, ⟨inDay, inSecond, _⟩⟩,
    ⟨⟨year', month', day', isDate'⟩, second', nano', ⟨inDay', inSecond', _⟩⟩, same => by
    have bounds := isDate.bounds
    have bounds' := isDate'.bounds
    simp only [place] at same
    rw [secondsPerDay] at inDay inDay'
    rw [nanosPerSecond] at inSecond inSecond'
    -- one digit after the other, the last one first
    obtain ⟨upToSecond, rfl⟩ : ((year * 12 + month) * 31 + day) * 86400 + second =
        ((year' * 12 + month') * 31 + day') * 86400 + second' ∧ nano = nano' := by omega
    obtain ⟨upToDay, rfl⟩ : (year * 12 + month) * 31 + day = (year' * 12 + month') * 31 + day' ∧
        second = second' := by omega
    obtain ⟨upToMonth, rfl⟩ : year * 12 + month = year' * 12 + month' ∧ day = day' := by omega
    obtain ⟨rfl, rfl⟩ : year = year' ∧ month = month' := by omega
    rfl

theorem SortValue.eq_of_compare {v w : SortValue} (level : v.compare w = .eq) : v = w := by
  cases v with
  | text a =>
    cases w with
    | text b => exact congrArg text (Std.LawfulEqOrd.eq_of_compare level)
    | number b | instant b => cases level
  | number a =>
    cases w with
    | number b => exact congrArg number (Int32.toInt_inj.mp (Std.LawfulEqOrd.eq_of_compare level))
    | text b | instant b => cases level
  | instant a =>
    cases w with
    | instant b =>
      exact congrArg instant (Instant.place_injective (Std.LawfulEqOrd.eq_of_compare level))
    | text b | number b => cases level

/-- In either direction a missing value is level with a missing one only. -/
instance {d : SortDirection} : Std.LawfulEqCmp d.compare where
  eq_of_compare {a b} level := by
    cases a with
    | none =>
      cases b with
      | none => rfl
      | some b => cases level
    | some a =>
      cases b with
      | none => cases level
      | some b =>
        cases d with
        | ascending => exact congrArg some (SortValue.eq_of_compare level)
        | descending => exact congrArg some (SortValue.eq_of_compare level).symm

theorem SortKey.compare_eq_iff {k : SortKey} {a b : Task} :
    k.compare a b = .eq ↔ a.sortValue? k.field = b.sortValue? k.field := by
  rw [compare]
  exact Std.LawfulEqCmp.compare_eq_iff_eq

namespace SortOrder

variable {order : SortOrder}

theorem compareBy_eq_iff {keys : List SortKey} {a b : Task} :
    compareBy keys a b = .eq ↔
      a.id = b.id ∧ ∀ k ∈ keys, a.sortValue? k.field = b.sortValue? k.field := by
  induction keys with
  | nil =>
    rw [compareBy, Std.LawfulEqOrd.compare_eq_iff_eq]
    simp
  | cons k keys ih =>
    rw [compareBy, Ordering.then_eq_eq, SortKey.compare_eq_iff, ih, List.forall_mem_cons]
    exact and_left_comm

/-! ## Going through a third task -/

/-- Where one task is not behind a second and this one not behind a third, the first of the two
steps that is strict decides how the first task and the third compare. -/
theorem compare_eq_then {a b c : Task} (ab : (order.compare a b).isLE = true)
    (bc : (order.compare b c).isLE = true) :
    order.compare a c = (order.compare a b).then (order.compare b c) := by
  cases first : order.compare a b with
  | lt => exact Std.TransCmp.lt_of_lt_of_isLE first bc
  | eq => exact Std.TransCmp.congr_left first
  | gt =>
    rw [first] at ab
    cases ab

end SortOrder

/-! ## Listing a store -/

/-- The order in which a store goes through its tasks does not matter for what it lists. -/
theorem MemoryStore.list_eq_of_perm {s u : MemoryStore} (perm : s.tasks.Perm u.tasks)
    (q : Query) : s.list q = u.list q := by
  have matching : (s.matching q.predicate).Perm (u.matching q.predicate) :=
    perm.filter q.predicate.matchesTask
  have distinct : ((s.matching q.predicate).map Task.id).Nodup :=
    s.distinct.sublist (List.filter_sublist.map Task.id)
  simp only [list, q.order.sort_eq_of_perm matching distinct]

namespace SortOrder

/-- Comparing tasks is a total order, whatever the keys.  Swapping two tasks turns the answer
around; the answers for a first and a second task and for the second and a third, neither of them
"behind", give the one for the first and the third; and two tasks are level exactly when they have
the same id and, for each key, the same value or neither of them one.  So tasks of distinct ids sort
to one list, in whatever order they come, and a store lists the same tasks in the same order however
it goes through them. -/
theorem listing_ignores_arrival (order : SortOrder) :
    (∀ a b, order.compare b a = (order.compare a b).swap) ∧
    (∀ a b c, order.compare a b ≠ .gt → order.compare b c ≠ .gt →
      order.compare a c = (order.compare a b).then (order.compare b c)) ∧
    (∀ a b, order.compare a b = .eq ↔
      a.id = b.id ∧ ∀ k ∈ order.keys, a.sortValue? k.field = b.sortValue? k.field) ∧
    (∀ l m : List Task, l.Perm m → (l.map Task.id).Nodup → order.sort l = order.sort m) ∧
    ∀ s u : MemoryStore, s.tasks.Perm u.tasks → ∀ p page,
      s.list ⟨p, order, page⟩ = u.list ⟨p, order, page⟩ := by
  refine ⟨fun a b => order.compare_swap b a, fun a b c ab bc => ?_, fun a b => compareBy_eq_iff,
    fun l m perm distinct => order.sort_eq_of_perm perm distinct,
    fun s u perm p page => MemoryStore.list_eq_of_perm perm _⟩
  exact compare_eq_then (Ordering.isLE_iff_ne_gt.mpr ab) (Ordering.isLE_iff_ne_gt.mpr bc)

end SortOrder

end Caseload
