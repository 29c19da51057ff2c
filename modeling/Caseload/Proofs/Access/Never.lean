import Caseload.Proofs.Access.Decision
import Caseload.Proofs.Predicate.Normal

/-!
# Conditions that never hold

A condition of access is the predicate that never holds exactly where that can be told without any
task: no role of the caller is in force, or no type of task is asked for.  Otherwise it is folded,
so that no constant is left inside of it (`NeverWhen`).

Both follow part by part.  A conjunction of normal parts is the predicate that never holds only
where one of its parts is, and one part that is not left open (`Restricts`) is enough for it to
restrict what is found.  What a caller sees is such a part of every condition, as the name of a role
is of what the role sees.
-/

namespace Caseload

namespace Predicate

variable {p : Predicate} {parts : List Predicate} {condition : Prop}

/-- The predicate is normal and is not the one that always holds. -/
structure Restricts (p : Predicate) : Prop where
  normal : p.Normal
  ne_always : p ≠ .constant true

/-- The predicate is normal and is not the one that never holds. -/
structure Possible (p : Predicate) : Prop where
  normal : p.Normal
  ne_never : p ≠ .constant false

/-- The predicate is the one that never holds exactly under the condition, and folded otherwise. -/
structure NeverWhen (p : Predicate) (condition : Prop) : Prop where
  never_iff : p = .constant false ↔ condition
  folded : ¬ condition → p.Folded

theorem isNever_iff : p.isNever = true ↔ p = .constant false := by
  unfold isNever
  split <;> simp_all

theorem Folded.restricts (folded : p.Folded) : p.Restricts :=
  ⟨.folded folded, folded.ne_constant true⟩

theorem Folded.possible (folded : p.Folded) : p.Possible :=
  ⟨.folded folded, folded.ne_constant false⟩

theorem possible_always : (constant true).Possible :=
  ⟨.constant true, by simp⟩

theorem Restricts.folded (restricts : p.Restricts) (possible : p.Possible) : p.Folded :=
  restricts.normal.folded_of_ne fun value => match value with
    | true => restricts.ne_always
    | false => possible.ne_never

theorem Restricts.neverWhen (restricts : p.Restricts)
    (never_iff : p = .constant false ↔ condition) : p.NeverWhen condition where
  never_iff
  folded others := restricts.folded ⟨restricts.normal, mt never_iff.mp others⟩

theorem NeverWhen.restricts (never : p.NeverWhen condition) : p.Restricts := by
  by_cases holds : condition
  · rw [never.never_iff.mpr holds]
    exact ⟨.constant false, by simp⟩
  · exact (never.folded holds).restricts

/-! ## Conjunctions and disjunctions -/

theorem all_eq_never_iff (normal : ∀ p ∈ parts, p.Normal) :
    all parts = .constant false ↔ .constant false ∈ parts :=
  fold_eq_not_unit_iff (c := .conjunction) normal

theorem any_eq_never_iff (normal : ∀ p ∈ parts, p.Normal) :
    any parts = .constant false ↔ ∀ p ∈ parts, p = .constant false :=
  fold_eq_unit_iff (c := .disjunction) normal

/-- One part that restricts is enough for a conjunction to do so. -/
theorem restricts_all (normal : ∀ p ∈ parts, p.Normal) (mem : p ∈ parts)
    (restricts : p.Restricts) : (all parts).Restricts where
  normal := normal_fold normal
  ne_always always := by
    have each := (fold_eq_unit_iff (c := .conjunction) normal).mp always
    exact restricts.ne_always (each p mem)

theorem restricts_any (each : ∀ p ∈ parts, p.Restricts) : (any parts).Restricts where
  normal := normal_fold fun p mem => (each p mem).normal
  ne_always always := by
    have normal : ∀ p ∈ parts, p.Normal := fun p mem => (each p mem).normal
    have mem := (fold_eq_not_unit_iff (c := .disjunction) normal).mp always
    exact (each _ mem).ne_always rfl

theorem possible_all (each : ∀ p ∈ parts, p.Possible) : (all parts).Possible where
  normal := normal_fold fun p mem => (each p mem).normal
  ne_never never := by
    have mem := (all_eq_never_iff fun p mem => (each p mem).normal).mp never
    exact (each _ mem).ne_never rfl

theorem folded_all (each : ∀ p ∈ parts, p.Possible) (mem : p ∈ parts) (folded : p.Folded) :
    (all parts).Folded :=
  (restricts_all (fun p mem => (each p mem).normal) mem folded.restricts).folded (possible_all each)

/-- A conjunction with one part that may be the predicate that never holds. -/
theorem NeverWhen.all (never : p.NeverWhen condition) (mem : p ∈ parts)
    (others : ∀ q ∈ parts, q = p ∨ q.Possible) : (all parts).NeverWhen condition := by
  have normal : ∀ q ∈ parts, q.Normal := by
    intro q among
    obtain rfl | possible := others q among
    · exact never.restricts.normal
    · exact possible.normal
  refine (restricts_all normal mem never.restricts).neverWhen ?_
  rw [all_eq_never_iff normal, ← never.never_iff]
  constructor
  · intro among
    obtain same | possible := others _ among
    · exact same.symm
    · exact absurd rfl possible.ne_never
  · rintro rfl
    exact mem

theorem neverWhen_any (each : ∀ p ∈ parts, p.Folded) : (any parts).NeverWhen (parts = []) := by
  refine (restricts_any fun p mem => (each p mem).restricts).neverWhen ?_
  rw [any_eq_never_iff fun p mem => .folded (each p mem), List.eq_nil_iff_forall_not_mem]
  exact forall₂_congr fun p mem => iff_of_false ((each p mem).ne_constant false) id

/-! ## Leaves -/

theorem neverWhen_member (field : Field) (values : List String) :
    (member field values).NeverWhen (values = []) := by
  unfold member
  split
  next empty =>
    have none := List.isEmpty_iff.mp empty
    exact ⟨iff_of_true rfl none, fun some => absurd none some⟩
  next nonempty =>
    have some : values ≠ [] := mt List.isEmpty_iff.mpr nonempty
    exact ⟨iff_of_false (by simp) some, fun _ => .oneOf field values⟩

theorem possible_accepts (field : Field) (values : List String) :
    (accepts field values).Possible := by
  unfold accepts
  split
  · exact possible_always
  · exact (Folded.equals field _).possible
  · exact (Folded.oneOf field _).possible

end Predicate

/-! ## What a role sees -/

namespace RoleAssignment

variable (a : RoleAssignment)

theorem folded_nameCondition : a.nameCondition.Folded :=
  .equals .roleName a.role

/-- A role sees its own level at least. -/
theorem folded_classificationCondition : a.classificationCondition.Folded := by
  refine (Predicate.neverWhen_member _ _).folded fun none => ?_
  have own : a.classification ∈ a.classification.visible :=
    Classification.mem_visible.mpr (Nat.le_refl _)
  rw [List.map_eq_nil_iff.mp none] at own
  cases own

theorem possible_attributeCondition (key : Attribute) (field : Field) :
    (a.attributeCondition key field).Possible := by
  unfold attributeCondition
  split
  · exact Predicate.possible_always
  · exact (Predicate.Folded.equals field _).possible

theorem possible_attributesCondition : a.attributesCondition.Possible :=
  Predicate.possible_all
    (List.forall_mem_map.mpr fun (key, field) _ => a.possible_attributeCondition key field)

theorem folded_authorisationCondition : a.authorisationCondition.Folded := by
  have either : ∀ p ∈ [Predicate.rowOpen, .rowAdmits a.heldAuthorisations], p.Folded :=
    List.forall_mem_cons.mpr ⟨.rowOpen, List.forall_mem_singleton.mpr (.rowAdmits _)⟩
  unfold authorisationCondition
  split
  next =>
    split
    next => exact .rowOpen
    next => exact (Predicate.neverWhen_any either).folded (by simp)
  next => exact .rowOpen

theorem folded_condition : a.condition.Folded := by
  have name := a.folded_nameCondition
  have level := a.folded_classificationCondition.possible
  -- whatever the grant, the name of the role is a part
  unfold condition
  split
  all_goals refine Predicate.folded_all ?_ List.mem_cons_self name
  all_goals simp only [List.forall_mem_cons, List.not_mem_nil, false_implies, implies_true, and_true]
  · exact ⟨name.possible, level, a.possible_attributesCondition, Predicate.Folded.rowOpen.possible⟩
  · exact ⟨name.possible, level, a.possible_attributesCondition,
      a.folded_authorisationCondition.possible⟩
  · exact ⟨name.possible, level, a.possible_attributeCondition _ _⟩

end RoleAssignment

theorem Permission.possible_condition (required : List Permission) :
    (Permission.condition required).Possible :=
  Predicate.possible_all (List.forall_mem_map.mpr fun p _ => (Predicate.Folded.granted p).possible)

theorem SearchRequest.possible_filters (r : SearchRequest) : r.filters.Possible := by
  refine Predicate.possible_all ?_
  simp only [List.forall_mem_cons, List.not_mem_nil, false_implies, implies_true,
    Predicate.possible_accepts, and_self]

/-! ## What a caller sees -/

namespace Caller

variable (c : Caller)

/-- No role of the caller is in force at the time of asking. -/
def Inactive : Prop :=
  ∀ a ∈ c.roles, ¬ a.InForce c.now

/-- Each family has a group for its roles, and each role is in one of them. -/
theorem neverWhen_roleCondition : c.roleCondition.NeverWhen c.Inactive := by
  let ofFamily (family : GrantFamily) := c.activeRoles.filter (·.grant.family = family)
  have never (family : GrantFamily) : (Predicate.any ((ofFamily family).map
      RoleAssignment.condition)).NeverWhen ((ofFamily family).map RoleAssignment.condition = []) :=
    Predicate.neverWhen_any (List.forall_mem_map.mpr fun a _ => a.folded_condition)
  refine (Predicate.restricts_any (List.forall_mem_map.mpr fun family _ =>
    (never family).restricts)).neverWhen ?_
  rw [Predicate.any_eq_never_iff (List.forall_mem_map.mpr fun family _ =>
    (never family).restricts.normal), List.forall_mem_map]
  constructor
  · intro none a mem inForce
    have listed : a.grant.family ∈ GrantFamily.all := by cases a.grant <;> decide
    have empty := List.map_eq_nil_iff.mp ((never _).never_iff.mp (none _ listed))
    have active : a ∈ ofFamily a.grant.family :=
      List.mem_filter.mpr ⟨mem_activeRoles.mpr ⟨mem, inForce⟩, decide_eq_true rfl⟩
    rw [empty] at active
    cases active
  · intro inactive family _
    refine (never family).never_iff.mpr (List.map_eq_nil_iff.mpr ?_)
    refine List.eq_nil_iff_forall_not_mem.mpr fun a mem => ?_
    obtain ⟨held, inForce⟩ := mem_activeRoles.mp (List.mem_filter.mp mem).1
    exact inactive a held inForce

theorem neverWhen_visibility (required : List Permission) :
    (c.visibility required).NeverWhen c.Inactive := by
  refine c.neverWhen_roleCondition.all List.mem_cons_self ?_
  exact List.forall_mem_cons.mpr
    ⟨.inl rfl, List.forall_mem_singleton.mpr (.inr (Permission.possible_condition required))⟩

theorem neverWhen_searchCondition (r : SearchRequest) (required : List Permission) :
    (c.searchCondition r required).NeverWhen c.Inactive := by
  refine (c.neverWhen_visibility required).all (by simp) ?_
  exact List.forall_mem_cons.mpr
    ⟨.inr r.possible_filters, List.forall_mem_singleton.mpr (.inl rfl)⟩

theorem neverWhen_taskCondition (id : String) (required : List Permission) :
    (c.taskCondition id required).NeverWhen c.Inactive := by
  refine (c.neverWhen_visibility required).all (by simp) ?_
  exact List.forall_mem_cons.mpr
    ⟨.inr (Predicate.Folded.equals _ id).possible, List.forall_mem_singleton.mpr (.inl rfl)⟩

theorem neverWhen_completableCondition (caseId : String) (types : List String)
    (required : List Permission) :
    (c.completableCondition caseId types required).NeverWhen (c.Inactive ∨ types = []) := by
  have onCase : (Predicate.equals .caseId caseId).Folded := .equals .caseId caseId
  have isOpen : (Predicate.member .state (TaskState.completable.map TaskState.name)).Folded :=
    (Predicate.neverWhen_member _ _).folded (by simp [TaskState.completable])
  have ofType := Predicate.neverWhen_member .taskType types
  have seen := c.neverWhen_visibility required
  have normal : ∀ p ∈ [.equals .caseId caseId,
      .member .state (TaskState.completable.map TaskState.name), .member .taskType types,
      c.visibility required], p.Normal := by
    simp only [List.forall_mem_cons, List.not_mem_nil, false_implies, implies_true, and_true]
    exact ⟨.folded onCase, .folded isOpen, ofType.restricts.normal, seen.restricts.normal⟩
  refine (Predicate.restricts_all normal List.mem_cons_self onCase.restricts).neverWhen ?_
  rw [Predicate.all_eq_never_iff normal, or_comm, ← ofType.never_iff, ← seen.never_iff]
  simp [eq_comm, (isOpen.ne_constant false).symm]

end Caller

end Caseload
