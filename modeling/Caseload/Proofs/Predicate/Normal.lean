import Caseload.Proofs.Predicate.Fold

/-!
# The normal form of predicates

Folding brings conditions into a normal form: a constant stands alone or does not occur at all, a
group has several parts, and none of them is a group of its own kind (`Normal`).  Only predicates
that come from folding have it, since opening up a group of any other predicate may bring constants
to the surface that nobody folds again.

What carries the proofs is the list of parts that matter, before it is made a group of.  It is found
piece by piece (`relevant?_append`), and where the pieces are normal, folding them and opening the
result up again gives the same list (`relevant?_singleton_fold`).  So it does not matter how
conditions are bracketed before they are joined.
-/

namespace Caseload.Predicate

/-- The predicate is a group of this kind. -/
def IsGroup (c : Connective) (p : Predicate) : Prop :=
  ∃ parts, p = .group c parts

/-- No constant occurs in the predicate, each of its groups has at least two parts, and no group is
a part of a group of the same kind. -/
inductive Folded : Predicate → Prop
  | equals (field : Field) (value : String) : Folded (.equals field value)
  | oneOf (field : Field) (values : List String) : Folded (.oneOf field values)
  | rowOpen : Folded .rowOpen
  | rowAdmits (held : List String) : Folded (.rowAdmits held)
  | granted (permission : Permission) : Folded (.granted permission)
  | group {c : Connective} {parts : List Predicate} (several : 2 ≤ parts.length)
    (folded : ∀ p ∈ parts, Folded p) (foreign : ∀ p ∈ parts, ¬ p.IsGroup c) :
    Folded (.group c parts)

/-- The predicate is a constant, or there is none in it and it is folded. -/
inductive Normal : Predicate → Prop
  | constant (value : Bool) : Normal (.constant value)
  | folded {p : Predicate} : p.Folded → Normal p

/-- The predicate can be a part of a folded group as it is. -/
structure IsPart (c : Connective) (p : Predicate) : Prop where
  folded : p.Folded
  foreign : ¬ p.IsGroup c

theorem Folded.ne_constant {p : Predicate} (folded : p.Folded) (value : Bool) :
    p ≠ .constant value := by
  rintro rfl
  cases folded

theorem Normal.folded_of_ne {p : Predicate} (normal : p.Normal)
    (ne : ∀ value, p ≠ .constant value) : p.Folded := by
  cases normal with
  | constant value => exact absurd rfl (ne value)
  | folded folded => exact folded

variable {c : Connective} {parts kept xs ys : List Predicate}

/-! ## The parts that matter -/

theorem relevant?_append :
    relevant? c (xs ++ ys) =
      (relevant? c xs).bind fun kept => (relevant? c ys).map (kept ++ ·) := by
  fun_induction relevant? c xs with
  | case1 => simp
  | case2 rest ih => simpa [relevant?] using ih
  | case3 b rest notUnit => simp [relevant?, notUnit]
  | case4 inner rest ih =>
    simp only [List.cons_append, relevant?, if_pos, ih]
    cases relevant? c rest <;> simp [Function.comp_def]
  | case5 d inner rest other ih =>
    simp only [List.cons_append, relevant?, if_neg other, ih]
    cases relevant? c rest <;> simp [Function.comp_def]
  | case6 p rest notConstant notGroup ih =>
    simp only [List.cons_append, relevant?, ih]
    cases relevant? c rest <;> simp [Function.comp_def]

theorem relevant?_eq_none_iff : relevant? c parts = none ↔ .constant (!c.unit) ∈ parts := by
  fun_induction relevant? c parts with
  | case1 => simp
  | case2 rest ih => simp [ih]
  | case3 b rest notUnit => simp [Connective.eq_not_unit_iff.mpr notUnit]
  | case4 inner rest ih | case5 d inner rest other ih => simp [ih]
  | case6 p rest notConstant notGroup ih =>
    have ne : Predicate.constant (!c.unit) ≠ p := fun eq => notConstant _ eq.symm
    simp [ih, ne]

/-- A part of a folded group matters as it is. -/
theorem IsPart.relevant?_cons {p : Predicate} (part : p.IsPart c) :
    relevant? c (p :: parts) = (relevant? c parts).map (p :: ·) := by
  cases part.folded with
  | @group d inner =>
    have other : d ≠ c := fun eq => part.foreign ⟨inner, eq ▸ rfl⟩
    rw [relevant?, if_neg other]
  | equals | oneOf | rowOpen | rowAdmits | granted => rfl

theorem relevant?_of_isPart (each : ∀ p ∈ parts, p.IsPart c) :
    relevant? c parts = some parts := by
  induction parts with
  | nil => rfl
  | cons p rest ih =>
    obtain ⟨part, each⟩ := List.forall_mem_cons.mp each
    rw [part.relevant?_cons, ih each, Option.map_some]

/-- Opening up one level is enough for normal predicates: what matters in them is folded, and no
group of the kind is left. -/
theorem isPart_of_relevant? (normal : ∀ p ∈ parts, p.Normal)
    (found : relevant? c parts = some kept) : ∀ p ∈ kept, p.IsPart c := by
  fun_induction relevant? c parts generalizing kept with
  | case1 =>
    cases found
    simp
  | case2 rest ih => exact ih (List.forall_mem_cons.mp normal).2 found
  | case3 => cases found
  | case4 inner rest ih =>
    obtain ⟨first, normal⟩ := List.forall_mem_cons.mp normal
    obtain ⟨others, matter, rfl⟩ := Option.map_eq_some_iff.mp found
    cases first with
    | folded folded =>
      cases folded with
      | group several folded foreign =>
        -- the parts of a folded group are folded and none is a group of its kind
        refine List.forall_mem_append.mpr ⟨fun p mem => ?_, ih normal matter⟩
        exact ⟨folded p mem, foreign p mem⟩
  | case5 d inner rest other ih =>
    obtain ⟨first, normal⟩ := List.forall_mem_cons.mp normal
    obtain ⟨others, matter, rfl⟩ := Option.map_eq_some_iff.mp found
    refine List.forall_mem_cons.mpr ⟨⟨first.folded_of_ne (by simp), ?_⟩, ih normal matter⟩
    rintro ⟨_, eq⟩
    cases eq
    exact other rfl
  | case6 p rest notConstant notGroup ih =>
    obtain ⟨first, normal⟩ := List.forall_mem_cons.mp normal
    obtain ⟨others, matter, rfl⟩ := Option.map_eq_some_iff.mp found
    refine List.forall_mem_cons.mpr ⟨⟨first.folded_of_ne notConstant, ?_⟩, ih normal matter⟩
    rintro ⟨inner, eq⟩
    exact notGroup c inner eq

theorem relevant?_eq_nil_iff (normal : ∀ p ∈ parts, p.Normal) :
    relevant? c parts = some [] ↔ ∀ p ∈ parts, p = .constant c.unit := by
  fun_induction relevant? c parts with
  | case1 => simp
  | case2 rest ih => simp [ih (List.forall_mem_cons.mp normal).2]
  | case3 b rest notUnit => simp [notUnit]
  | case4 inner rest ih =>
    -- a folded group has parts, and they matter
    have nonempty : inner ≠ [] := by
      rintro rfl
      cases (List.forall_mem_cons.mp normal).1 with
      | folded folded =>
        cases folded with
        | group several => simp at several
    simp [nonempty]
  | case5 d inner rest other ih => simp
  | case6 p rest notConstant notGroup ih =>
    exact iff_of_false (by simp) fun each => notConstant _ (each p List.mem_cons_self)

/-! ## Folding normal predicates -/

theorem normal_ofParts : ∀ {parts : List Predicate}, (∀ p ∈ parts, p.IsPart c) →
    (ofParts c parts).Normal
  | [], _ => .constant _
  | [p], each => .folded (each p (List.mem_singleton_self p)).folded
  | p :: q :: rest, each =>
    .folded (.group (by simp) (fun r mem => (each r mem).folded) fun r mem => (each r mem).foreign)

theorem normal_fold (normal : ∀ p ∈ parts, p.Normal) : (fold c parts).Normal := by
  unfold fold
  split
  next => exact .constant _
  next kept found => exact normal_ofParts (isPart_of_relevant? normal found)

/-- A group of parts that are in order opens up to these parts. -/
theorem relevant?_singleton_ofParts (each : ∀ p ∈ parts, p.IsPart c) :
    relevant? c [ofParts c parts] = some parts := by
  unfold ofParts
  split
  next => simp [relevant?]
  next p => exact relevant?_of_isPart each
  next => simp [relevant?]

/-- What matters in some predicates is what matters in their group. -/
theorem relevant?_singleton_fold (normal : ∀ p ∈ parts, p.Normal) :
    relevant? c [fold c parts] = relevant? c parts := by
  unfold fold
  split
  next decided => rw [decided, relevant?_eq_none_iff, List.mem_singleton]
  next kept found => rw [found, relevant?_singleton_ofParts (isPart_of_relevant? normal found)]

/-- Folding in two steps is folding in one. -/
theorem fold_fold_append (xNormal : ∀ p ∈ xs, p.Normal) (yNormal : ∀ p ∈ ys, p.Normal) :
    fold c [fold c xs, fold c ys] = fold c (xs ++ ys) := by
  have same : relevant? c ([fold c xs] ++ [fold c ys]) = relevant? c (xs ++ ys) := by
    rw [relevant?_append, relevant?_append, relevant?_singleton_fold xNormal,
      relevant?_singleton_fold yNormal]
  rw [List.singleton_append] at same
  rw [fold, same, fold]

/-! ## Constants as the outcome -/

theorem ofParts_eq_constant_iff (each : ∀ p ∈ parts, p.IsPart c) {value : Bool} :
    ofParts c parts = .constant value ↔ parts = [] ∧ value = c.unit := by
  match parts, each with
  | [], _ => simp [ofParts, eq_comm]
  | [p], each =>
    have ne := (each p (List.mem_singleton_self p)).folded.ne_constant value
    simp [ofParts, ne]
  | p :: q :: rest, _ => simp [ofParts]

/-- A part decides a group only as the constant that decides it. -/
theorem fold_eq_not_unit_iff (normal : ∀ p ∈ parts, p.Normal) :
    fold c parts = .constant (!c.unit) ↔ .constant (!c.unit) ∈ parts := by
  rw [← relevant?_eq_none_iff]
  unfold fold
  split
  next decided => simp [decided]
  next kept found =>
    rw [ofParts_eq_constant_iff (isPart_of_relevant? normal found), found]
    simp

/-- Nothing matters in a group only where each part is the constant that does not matter. -/
theorem fold_eq_unit_iff (normal : ∀ p ∈ parts, p.Normal) :
    fold c parts = .constant c.unit ↔ ∀ p ∈ parts, p = .constant c.unit := by
  rw [← relevant?_eq_nil_iff normal]
  unfold fold
  split
  next decided => simp [decided]
  next kept found =>
    rw [ofParts_eq_constant_iff (isPart_of_relevant? normal found), found]
    simp

/-- Folding keeps the meaning of predicates of any form: the fold of a conjunction holds exactly
when each part does, and that of a disjunction when some part does.  It keeps normal predicates
normal, and those can be joined in two steps or in one with the same outcome. -/
theorem folding_keeps_meaning_and_form :
    (∀ (children : List Predicate) (t : Task) (row : RoleRow),
      ((all children).holds t row = true ↔ ∀ p ∈ children, p.holds t row = true) ∧
      ((any children).holds t row = true ↔ ∃ p ∈ children, p.holds t row = true)) ∧
    (∀ children : List Predicate, (∀ p ∈ children, p.Normal) →
      (all children).Normal ∧ (any children).Normal) ∧
    ∀ xs ys : List Predicate, (∀ p ∈ xs, p.Normal) → (∀ p ∈ ys, p.Normal) →
      all [all xs, all ys] = all (xs ++ ys) ∧ any [any xs, any ys] = any (xs ++ ys) := by
  refine ⟨fun children t row => ⟨holds_all, holds_any⟩, fun children normal => ?_,
    fun xs ys xNormal yNormal => ?_⟩
  · exact ⟨normal_fold normal, normal_fold normal⟩
  · exact ⟨fold_fold_append xNormal yNormal, fold_fold_append xNormal yNormal⟩

/-- Two conjunctions of three conditions, one of which does not matter, joined to one. -/
theorem folding_of_two_conjunctions :
    let xs := [any [.granted .read, .granted .own], .constant true]
    let ys := [all [.rowOpen, .equals .region "1"]]
    (∀ p ∈ xs, p.Normal) ∧ (∀ p ∈ ys, p.Normal) ∧ (all (xs ++ ys)).Normal ∧
      all [all xs, all ys] = .group .conjunction
        [.group .disjunction [.granted .read, .granted .own], .rowOpen, .equals .region "1"] := by
  intro xs ys
  obtain ⟨-, keeps, joins⟩ := folding_keeps_meaning_and_form
  have xNormal : ∀ p ∈ xs, p.Normal := by
    refine List.forall_mem_cons.mpr ⟨(keeps _ ?_).2, List.forall_mem_singleton.mpr (.constant true)⟩
    exact List.forall_mem_cons.mpr
      ⟨.folded (.granted .read), List.forall_mem_singleton.mpr (.folded (.granted .own))⟩
  have yNormal : ∀ p ∈ ys, p.Normal := by
    refine List.forall_mem_singleton.mpr (keeps _ ?_).1
    exact List.forall_mem_cons.mpr
      ⟨.folded .rowOpen, List.forall_mem_singleton.mpr (.folded (.equals .region "1"))⟩
  refine ⟨xNormal, yNormal, (keeps _ (List.forall_mem_append.mpr ⟨xNormal, yNormal⟩)).1, ?_⟩
  rw [(joins xs ys xNormal yNormal).1]
  rfl

/-- A group that does not come from folding may hide a constant, which nobody folds again. -/
example : all [.group .conjunction [.constant true], .rowOpen] =
    .group .conjunction [.constant true, .rowOpen] :=
  rfl

end Caseload.Predicate
