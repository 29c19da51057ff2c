import Caseload.Access.Condition
import Caseload.Proofs.Predicate.Fold

/-!
# The access decision

Who sees a task by a role row, said without predicates: `RoleAssignment.Sees` for one role and
`SearchRequest.Accepts` for the filters of a search.  The conditions that are compiled from roles,
required permissions and filters hold exactly when this decision is positive.  Each compiler gets
one lemma that says what its condition means; the main statement,
`holds_searchCondition_iff`, joins them.
-/

namespace Caseload

/-- The row asks for no authorisation. -/
def RoleRow.Unguarded (row : RoleRow) : Prop :=
  row.authorizations = none ∨ row.authorizations = some []

namespace RoleAssignment

/-- The role has begun and has not ended; a bound that is missing is none. -/
def InForce (a : RoleAssignment) (now : Instant) : Prop :=
  (∀ b, a.begins = some b → b < now) ∧ (∀ e, a.ends = some e → now < e)

/-- The value is the one that an attribute of the role confines it to.  An attribute that is missing
or of blanks confines nothing, and a value that is missing is never the one. -/
def Confines (a : RoleAssignment) (key : Attribute) (value : Option String) : Prop :=
  ∀ text, a.attributes[key.key]? = some text → Text.trim text ≠ "" → value = some (Text.trim text)

/-- The task is where all attributes of the role confine it to. -/
structure ConfinesTask (a : RoleAssignment) (t : Task) : Prop where
  caseType : a.Confines .caseType (some t.caseType)
  region : a.Confines .region t.region
  jurisdiction : a.Confines .jurisdiction (some t.jurisdiction)
  baseLocation : a.Confines .baseLocation t.location
  caseId : a.Confines .caseId (some t.caseId)

/-- An authorisation of the role, trimmed and not of blanks only, is one that the row asks for. -/
def Unlocks (a : RoleAssignment) (row : RoleRow) : Prop :=
  ∃ asked held text, row.authorizations = some asked ∧ a.authorisations = some held ∧
    text ∈ held ∧ Text.trim text ≠ "" ∧ Text.trim text ∈ asked

/-- The grant of the role lets it reach the task by the row. -/
inductive Reaches (a : RoleAssignment) (t : Task) (row : RoleRow) : Prop
  | unguarded (grant : a.grant = .basic ∨ a.grant = .specific ∨ a.grant = .standard)
      (confined : a.ConfinesTask t) (unguarded : row.Unguarded)
  | challenged (grant : a.grant = .challenged) (confined : a.ConfinesTask t)
      (authorised : row.Unguarded ∨ a.Unlocks row)
  | excluded (grant : a.grant = .excluded) (confined : a.Confines .caseId (some t.caseId))

/-- The role lets its holder see the task by the row, if the time is right. -/
structure Covers (a : RoleAssignment) (t : Task) (row : RoleRow) : Prop where
  role : a.role = row.role
  level : t.classification ≤ a.classification
  reaches : a.Reaches t row

/-- The role lets its holder see the task by the row now. -/
structure Sees (a : RoleAssignment) (now : Instant) (t : Task) (row : RoleRow) : Prop where
  inForce : a.InForce now
  covers : a.Covers t row

end RoleAssignment

/-- The list of accepted values is empty or has the value of the task, which is not missing. -/
def Accepted {α : Type} (values : List α) (value : Option α) : Prop :=
  values = [] ∨ ∃ v ∈ values, value = some v

/-- The task has an accepted value in everything that the request filters. -/
structure SearchRequest.Accepts (r : SearchRequest) (t : Task) : Prop where
  jurisdiction : Accepted r.jurisdictions (some t.jurisdiction)
  state : Accepted r.states (some t.state)
  location : Accepted r.locations t.location
  region : Accepted r.regions t.region
  caseId : Accepted r.caseIds (some t.caseId)
  user : Accepted r.users t.assignee
  workType : Accepted r.workTypes t.workType
  roleCategory : Accepted r.roleCategories t.roleCategory
  taskType : Accepted r.taskTypes (some t.type)
  taskId : Accepted r.taskIds (some t.id)

variable {t : Task} {row : RoleRow}

/-! ## Names and blanks -/

theorem Classification.name_injective {c d : Classification} (h : c.name = d.name) : c = d := by
  cases c <;> cases d <;> first | rfl | exact absurd h (by decide)

theorem TaskState.name_injective {s u : TaskState} (h : s.name = u.name) : s = u := by
  cases s <;> cases u <;> first | rfl | exact absurd h (by decide)

theorem Text.nonBlank?_eq_some_iff {s u : String} :
    Text.nonBlank? s = some u ↔ Text.trim s ≠ "" ∧ Text.trim s = u := by
  by_cases h : Text.trim s = "" <;> simp [Text.nonBlank?, h]

theorem Classification.mem_visible {c d : Classification} : c ∈ d.visible ↔ c ≤ d := by
  cases c <;> cases d <;> decide

theorem RoleRow.isOpen_iff : row.isOpen = true ↔ row.Unguarded := by
  cases h : row.authorizations <;> simp [RoleRow.isOpen, RoleRow.Unguarded, h]

theorem Permission.mem_distinct {p : Permission} {required : List Permission} :
    p ∈ Permission.distinct required ↔ p ∈ required := by
  -- the list is made by picking from all permissions those that are required
  have known : p ∈ Permission.all := by cases p <;> decide
  simp [Permission.distinct, known]

/-! ## The condition of one role -/

namespace RoleAssignment

variable {a : RoleAssignment}

theorem isActive_iff {now : Instant} : a.isActive now = true ↔ a.InForce now := by
  cases hb : a.begins <;> cases he : a.ends <;> simp [isActive, InForce, hb, he]

theorem attribute?_eq_some_iff {key : Attribute} {value : String} :
    a.attribute? key = some value ↔
      ∃ text, a.attributes[key.key]? = some text ∧ Text.trim text ≠ "" ∧
        Text.trim text = value := by
  simp [attribute?, Option.bind_eq_some_iff, Text.nonBlank?_eq_some_iff]

theorem confines_iff {key : Attribute} {value : Option String} :
    a.Confines key value ↔ ∀ limit, a.attribute? key = some limit → value = some limit := by
  constructor
  · intro confines limit found
    obtain ⟨text, kept, nonblank, rfl⟩ := attribute?_eq_some_iff.mp found
    exact confines text kept nonblank
  · intro limits text kept nonblank
    exact limits _ (attribute?_eq_some_iff.mpr ⟨text, kept, nonblank, rfl⟩)

theorem holds_attributeCondition {key : Attribute} {field : Field} :
    (a.attributeCondition key field).holds t row = true ↔
      a.Confines key (field.value? t row) := by
  rw [confines_iff]
  cases h : a.attribute? key <;> simp [attributeCondition, h]

theorem holds_attributesCondition :
    a.attributesCondition.holds t row = true ↔ a.ConfinesTask t := by
  rw [attributesCondition, Predicate.holds_all_map]
  constructor
  · intro confined
    have limit (l) (mem : l ∈ limits) : a.Confines l.1 (l.2.value? t row) :=
      holds_attributeCondition.mp (confined l mem)
    exact {
      caseType := limit (.caseType, .caseType) (by simp [limits])
      region := limit (.region, .region) (by simp [limits])
      jurisdiction := limit (.jurisdiction, .jurisdiction) (by simp [limits])
      baseLocation := limit (.baseLocation, .location) (by simp [limits])
      caseId := limit (.caseId, .caseId) (by simp [limits]) }
  · intro confined l mem
    apply holds_attributeCondition.mpr
    simp only [limits, List.mem_cons, List.not_mem_nil, or_false] at mem
    rcases mem with rfl | rfl | rfl | rfl | rfl
    · exact confined.caseType
    · exact confined.region
    · exact confined.jurisdiction
    · exact confined.baseLocation
    · exact confined.caseId

theorem holds_nameCondition : a.nameCondition.holds t row = true ↔ a.role = row.role := by
  rw [nameCondition, Predicate.holds_equals, Field.value?, Option.some_inj, eq_comm]

theorem holds_classificationCondition :
    a.classificationCondition.holds t row = true ↔ t.classification ≤ a.classification := by
  simp only [classificationCondition, Predicate.holds_member, List.mem_map, Field.value?]
  constructor
  · rintro ⟨_, ⟨c, seen, rfl⟩, same⟩
    rw [Classification.name_injective (Option.some.inj same)]
    exact Classification.mem_visible.mp seen
  · intro le
    exact ⟨_, ⟨_, Classification.mem_visible.mpr le, rfl⟩, rfl⟩

theorem mem_heldAuthorisations {text : String} :
    text ∈ a.heldAuthorisations ↔
      ∃ held kept, a.authorisations = some held ∧ kept ∈ held ∧ Text.trim kept ≠ "" ∧
        Text.trim kept = text := by
  cases h : a.authorisations <;>
    simp [heldAuthorisations, h, Text.nonBlanks, Text.nonBlank?_eq_some_iff]

theorem admits_heldAuthorisations_iff :
    row.admits a.heldAuthorisations = true ↔ a.Unlocks row := by
  simp only [RoleRow.admits, Option.any_eq_true, List.any_eq_true, List.contains_iff_mem,
    mem_heldAuthorisations]
  constructor
  · rintro ⟨asked, guarded, _, wanted, held, text, kept, mem, nonblank, rfl⟩
    exact ⟨asked, held, text, guarded, kept, mem, nonblank, wanted⟩
  · rintro ⟨asked, held, text, guarded, kept, mem, nonblank, wanted⟩
    exact ⟨asked, guarded, _, wanted, held, text, kept, mem, nonblank, rfl⟩

theorem holds_authorisationCondition_of_challenged (challenged : a.grant = .challenged) :
    a.authorisationCondition.holds t row = true ↔ row.Unguarded ∨ a.Unlocks row := by
  rw [authorisationCondition, if_pos challenged, ← RoleRow.isOpen_iff,
    ← admits_heldAuthorisations_iff]
  split
  next nothing =>
    -- without authorisations nothing is unlocked
    have locked : row.admits [] = false := by
      cases h : row.authorizations <;> simp [RoleRow.admits, h]
    simp [Predicate.holds, nothing, locked]
  · simp [Predicate.holds]

theorem holds_authorisationCondition_of_ne (other : a.grant ≠ .challenged) :
    a.authorisationCondition.holds t row = true ↔ row.Unguarded := by
  rw [authorisationCondition, if_neg other, ← RoleRow.isOpen_iff, Predicate.holds]

/-! The grant of a role decides which of the three ways to reach a task is open to it. -/

theorem reaches_iff_of_unguarded
    (grant : a.grant = .basic ∨ a.grant = .specific ∨ a.grant = .standard) :
    a.Reaches t row ↔ a.ConfinesTask t ∧ row.Unguarded := by
  constructor
  · rintro (⟨_, confined, unguarded⟩ | ⟨other, _, _⟩ | ⟨other, _⟩)
    · exact ⟨confined, unguarded⟩
    all_goals simp [other] at grant
  · rintro ⟨confined, unguarded⟩
    exact .unguarded grant confined unguarded

theorem reaches_iff_of_challenged (grant : a.grant = .challenged) :
    a.Reaches t row ↔ a.ConfinesTask t ∧ (row.Unguarded ∨ a.Unlocks row) := by
  constructor
  · rintro (⟨other, _, _⟩ | ⟨_, confined, authorised⟩ | ⟨other, _⟩)
    · simp [grant] at other
    · exact ⟨confined, authorised⟩
    · simp [grant] at other
  · rintro ⟨confined, authorised⟩
    exact .challenged grant confined authorised

theorem reaches_iff_of_excluded (grant : a.grant = .excluded) :
    a.Reaches t row ↔ a.Confines .caseId (some t.caseId) := by
  constructor
  · rintro (⟨other, _, _⟩ | ⟨other, _, _⟩ | ⟨_, confined⟩)
    · simp [grant] at other
    · simp [grant] at other
    · exact confined
  · exact .excluded grant

theorem covers_iff :
    a.Covers t row ↔
      a.role = row.role ∧ t.classification ≤ a.classification ∧ a.Reaches t row :=
  ⟨fun ⟨role, level, reaches⟩ => ⟨role, level, reaches⟩,
    fun ⟨role, level, reaches⟩ => ⟨role, level, reaches⟩⟩

/-- The condition of a role holds exactly when the role covers the task by the row. -/
theorem holds_condition : a.condition.holds t row = true ↔ a.Covers t row := by
  have isOpen : Predicate.rowOpen.holds t row = true ↔ row.Unguarded := by
    rw [Predicate.holds, RoleRow.isOpen_iff]
  -- basic and specific grants are compiled alike, and each other grant in a way of its own
  rw [covers_iff, condition]
  cases grant : a.grant with
  | basic | specific =>
    rw [reaches_iff_of_unguarded (by simp [grant])]
    simp [Grant.family, holds_nameCondition, holds_classificationCondition,
      holds_attributesCondition, isOpen]
  | standard =>
    rw [reaches_iff_of_unguarded (by simp [grant])]
    simp [Grant.family, holds_nameCondition, holds_classificationCondition,
      holds_attributesCondition, holds_authorisationCondition_of_ne, grant]
  | challenged =>
    rw [reaches_iff_of_challenged grant]
    simp [Grant.family, holds_nameCondition, holds_classificationCondition,
      holds_attributesCondition, holds_authorisationCondition_of_challenged grant]
  | excluded =>
    rw [reaches_iff_of_excluded grant]
    simp [Grant.family, holds_nameCondition, holds_classificationCondition,
      holds_attributeCondition, Field.value?]

end RoleAssignment

/-! ## What a caller sees -/

theorem Permission.holds_condition {required : List Permission} :
    (Permission.condition required).holds t row = true ↔
      ∀ p ∈ required, row.grants p = true := by
  simp [Permission.condition, Permission.mem_distinct, Predicate.holds]

namespace Caller

variable {c : Caller}

theorem mem_activeRoles {a : RoleAssignment} :
    a ∈ c.activeRoles ↔ a ∈ c.roles ∧ a.InForce c.now := by
  rw [activeRoles, List.mem_filter, RoleAssignment.isActive_iff]

/-- Grouping roles by family neither drops nor adds one. -/
theorem holds_roleCondition :
    c.roleCondition.holds t row = true ↔ ∃ a ∈ c.roles, a.Sees c.now t row := by
  simp only [roleCondition, Predicate.holds_any_map, List.mem_filter, decide_eq_true_eq,
    RoleAssignment.holds_condition, mem_activeRoles]
  constructor
  · rintro ⟨_, _, a, ⟨⟨mem, inForce⟩, _⟩, covers⟩
    exact ⟨a, mem, inForce, covers⟩
  · rintro ⟨a, mem, inForce, covers⟩
    -- each family has its group
    have listed : a.grant.family ∈ GrantFamily.all := by cases a.grant <;> decide
    exact ⟨a.grant.family, listed, a, ⟨⟨mem, inForce⟩, rfl⟩, covers⟩

theorem holds_visibility {required : List Permission} :
    (c.visibility required).holds t row = true ↔
      (∃ a ∈ c.roles, a.Sees c.now t row) ∧ ∀ p ∈ required, row.grants p = true := by
  simp [visibility, holds_roleCondition, Permission.holds_condition]

end Caller

/-! ## What a search accepts -/

theorem Predicate.holds_accepts_some {field : Field} {values : List String} {value : Option String}
    (same : field.value? t row = value) :
    (Predicate.accepts field values).holds t row = true ↔ Accepted values value := by
  rw [Predicate.holds_accepts, same, Accepted]

theorem accepted_names_iff {states : List TaskState} {s : TaskState} :
    Accepted (states.map TaskState.name) (some s.name) ↔ Accepted states (some s) := by
  have same (u : TaskState) : u.name = s.name ↔ u = s :=
    ⟨TaskState.name_injective, fun h => h ▸ rfl⟩
  simp [Accepted, same, eq_comm (a := s)]

theorem SearchRequest.holds_filters {r : SearchRequest} :
    r.filters.holds t row = true ↔ r.Accepts t := by
  have state : (Predicate.accepts .state (r.states.map TaskState.name)).holds t row = true ↔
      Accepted r.states (some t.state) :=
    (Predicate.holds_accepts_some rfl).trans accepted_names_iff
  simp only [filters, Predicate.holds_all, List.forall_mem_cons, List.not_mem_nil, false_implies,
    implies_true, and_true, state, Predicate.holds_accepts_some (Eq.refl _), Field.value?]
  constructor
  · rintro ⟨jurisdiction, state, location, region, caseId, user, workType, roleCategory, taskType,
      taskId⟩
    exact { jurisdiction, state, location, region, caseId, user, workType, roleCategory, taskType,
            taskId }
  · rintro ⟨jurisdiction, state, location, region, caseId, user, workType, roleCategory, taskType,
      taskId⟩
    exact ⟨jurisdiction, state, location, region, caseId, user, workType, roleCategory, taskType,
      taskId⟩

/-- Exactness of the access decision: the predicate of a search holds of a task and one of its role
rows exactly when a role of the caller sees the task by that row now, the same row allows
everything that is required, and the task has an accepted value in everything that is filtered. -/
theorem holds_searchCondition_iff (c : Caller) (r : SearchRequest) (required : List Permission)
    (t : Task) (row : RoleRow) :
    (c.searchCondition r required).holds t row = true ↔
      (∃ a ∈ c.roles, a.Sees c.now t row) ∧ (∀ p ∈ required, row.grants p = true) ∧
        r.Accepts t := by
  simp only [Caller.searchCondition, Predicate.holds_all, List.forall_mem_cons, List.not_mem_nil,
    false_implies, implies_true, and_true, SearchRequest.holds_filters, Caller.holds_visibility]
  exact and_comm.trans and_assoc

end Caseload
