import Caseload.Predicate.Matching
import Mathlib.Logic.Basic

/-!
# What folded predicates mean

Folding drops constants and opens up groups, and none of that changes what a predicate says of a
task and a role row.  Both connectives are treated at once: a group has the value of its unit
exactly when all of its parts have it.  `holds_all` and `holds_any` read this off for conjunctions
and disjunctions.
-/

namespace Caseload

namespace Connective

theorem eq_not_unit_iff {c : Connective} {b : Bool} : b = !c.unit ↔ b ≠ c.unit := by
  cases c <;> cases b <;> decide

end Connective

namespace Predicate

variable {t : Task} {row : RoleRow}

/-! ## Groups -/

theorem holdsAll_eq_true_iff {parts : List Predicate} :
    holdsAll t row parts = true ↔ ∀ p ∈ parts, p.holds t row = true := by
  induction parts with
  | nil => simp [holdsAll]
  | cons p rest ih => simp [holdsAll, ih]

theorem holdsAny_eq_true_iff {parts : List Predicate} :
    holdsAny t row parts = true ↔ ∃ p ∈ parts, p.holds t row = true := by
  induction parts with
  | nil => simp [holdsAny]
  | cons p rest ih => simp [holdsAny, ih]

theorem holds_group_eq_unit_iff {c : Connective} {parts : List Predicate} :
    (group c parts).holds t row = c.unit ↔ ∀ p ∈ parts, p.holds t row = c.unit := by
  cases c with
  | conjunction => exact holdsAll_eq_true_iff
  | disjunction =>
    rw [← not_iff_not]
    simpa [holds, Connective.unit] using holdsAny_eq_true_iff

/-! ## Folding -/

theorem exists_ne_unit_of_relevant?_eq_none (t : Task) (row : RoleRow) {c : Connective}
    {parts : List Predicate} (h : relevant? c parts = none) :
    ∃ p ∈ parts, p.holds t row ≠ c.unit := by
  fun_induction relevant? c parts with
  | case1 => simp at h
  | case2 rest ih =>
    obtain ⟨p, mem, ne⟩ := ih h
    exact ⟨p, .tail _ mem, ne⟩
  | case3 b rest notUnit => exact ⟨.constant b, .head _, notUnit⟩
  | case4 inner rest ih | case5 d inner rest other ih | case6 p rest _ _ ih =>
    obtain ⟨q, mem, ne⟩ := ih (Option.map_eq_none_iff.mp h)
    exact ⟨q, .tail _ mem, ne⟩

theorem relevant?_eq_unit_iff {c : Connective} {parts kept : List Predicate}
    (h : relevant? c parts = some kept) :
    (∀ p ∈ kept, p.holds t row = c.unit) ↔ ∀ p ∈ parts, p.holds t row = c.unit := by
  fun_induction relevant? c parts generalizing kept with
  | case1 => simp_all
  | case2 rest ih => simp [ih h, holds]
  | case3 => simp at h
  | case4 inner rest ih =>
    obtain ⟨others, found, rfl⟩ := Option.map_eq_some_iff.mp h
    simp only [List.forall_mem_append, List.forall_mem_cons, ih found, holds_group_eq_unit_iff]
  | case5 d inner rest other ih | case6 p rest _ _ ih =>
    obtain ⟨others, found, rfl⟩ := Option.map_eq_some_iff.mp h
    simp only [List.forall_mem_cons, ih found]

theorem holds_ofParts_eq_unit_iff {c : Connective} {parts : List Predicate} :
    (ofParts c parts).holds t row = c.unit ↔ ∀ p ∈ parts, p.holds t row = c.unit := by
  unfold ofParts
  split
  · simp [holds]
  · simp
  · exact holds_group_eq_unit_iff

/-- A folded group has the value of its unit exactly when all of its parts do: folding keeps the
meaning of the group. -/
theorem holds_fold_eq_unit_iff {c : Connective} {parts : List Predicate} :
    (fold c parts).holds t row = c.unit ↔ ∀ p ∈ parts, p.holds t row = c.unit := by
  unfold fold
  split
  next decided =>
    obtain ⟨p, mem, ne⟩ := exists_ne_unit_of_relevant?_eq_none t row decided
    have deciding : (constant !c.unit).holds t row ≠ c.unit := Connective.eq_not_unit_iff.mp rfl
    exact iff_of_false deciding fun all => ne (all p mem)
  next kept found => rw [holds_ofParts_eq_unit_iff, relevant?_eq_unit_iff found]

@[simp] theorem holds_all {parts : List Predicate} :
    (all parts).holds t row = true ↔ ∀ p ∈ parts, p.holds t row = true :=
  holds_fold_eq_unit_iff (c := .conjunction)

@[simp] theorem holds_any {parts : List Predicate} :
    (any parts).holds t row = true ↔ ∃ p ∈ parts, p.holds t row = true := by
  rw [← not_iff_not]
  simpa [any, Connective.unit] using @holds_fold_eq_unit_iff t row .disjunction parts

theorem holds_all_map {α : Type} {f : α → Predicate} {items : List α} :
    (all (items.map f)).holds t row = true ↔ ∀ x ∈ items, (f x).holds t row = true := by
  rw [holds_all, List.forall_mem_map]

theorem holds_any_map {α : Type} {f : α → Predicate} {items : List α} :
    (any (items.map f)).holds t row = true ↔ ∃ x ∈ items, (f x).holds t row = true := by
  simp

/-! ## Leaves -/

@[simp] theorem holds_constant {value : Bool} : (constant value).holds t row = value := by
  simp [holds]

@[simp] theorem holds_equals {field : Field} {value : String} :
    (equals field value).holds t row = true ↔ field.value? t row = some value := by
  simp [holds]

@[simp] theorem holds_oneOf {field : Field} {values : List String} :
    (oneOf field values).holds t row = true ↔ ∃ v ∈ values, field.value? t row = some v := by
  cases h : field.value? t row <;> simp [holds, h]

@[simp] theorem holds_member {field : Field} {values : List String} :
    (member field values).holds t row = true ↔ ∃ v ∈ values, field.value? t row = some v := by
  unfold member
  split
  next empty => simp [List.isEmpty_iff.mp empty]
  next => exact holds_oneOf

@[simp] theorem holds_accepts {field : Field} {values : List String} :
    (accepts field values).holds t row = true ↔
      values = [] ∨ ∃ v ∈ values, field.value? t row = some v := by
  unfold accepts
  split
  · simp
  · simp
  next nonempty _ =>
    have : values ≠ [] := nonempty
    simp [this]

end Predicate

end Caseload
