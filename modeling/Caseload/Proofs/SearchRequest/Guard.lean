import Caseload.Proofs.Access.Never
import Caseload.Proofs.Store.Run
import Caseload.SearchRequest.Payload
import Mathlib.Data.List.Forall2

/-!
# The guard against searches for everything

A request has a list of accepted values under each of ten keys, and two places go through them: the
check that a search filters by something, and the condition that it puts on tasks.  They agree.  The
condition has one leaf for each list with values, in the order of the keys, and none for an empty
list (`filters_eq`); so it accepts everything exactly where the check refuses the request.
-/

namespace Caseload

namespace Predicate

variable {field : Field} {values : List String} {parts : List Predicate}

/-- The predicate asks of a field to have one of the values: to equal the only one, or to be among
several. -/
inductive AsksFor (field : Field) : List String → Predicate → Prop
  | only (value : String) : AsksFor field [value] (.equals field value)
  | several {values : List String} (many : 2 ≤ values.length) :
    AsksFor field values (.oneOf field values)

/-- The predicate is the conjunction of these parts, where a single part stands for itself. -/
inductive Joins : List Predicate → Predicate → Prop
  | single (p : Predicate) : Joins [p] p
  | several {parts : List Predicate} (many : 2 ≤ parts.length) :
    Joins parts (.group .conjunction parts)

theorem accepts_eq_always_iff : accepts field values = .constant true ↔ values = [] := by
  unfold accepts
  split <;> simp_all

theorem asksFor_accepts (some : values ≠ []) : AsksFor field values (accepts field values) := by
  match values, some with
  | [value], _ => exact .only value
  | _ :: _ :: _, _ => exact .several (by simp)

theorem joins_ofParts (some : parts ≠ []) : Joins parts (ofParts .conjunction parts) := by
  match parts, some with
  | [p], _ => exact .single p
  | _ :: _ :: _, _ => exact .several (by simp)

theorem isPart_accepts (some : values ≠ []) : (accepts field values).IsPart .conjunction := by
  have asks : AsksFor field values (accepts field values) := asksFor_accepts some
  generalize accepts field values = leaf at asks
  cases asks with
  | only value => exact ⟨.equals field value, nofun⟩
  | several many => exact ⟨.oneOf field values, nofun⟩

/-- Only the lists with values matter, and each of them matters as it is. -/
theorem relevant?_map_accepts {α : Type} (field : α → Field) (values : α → List String)
    (items : List α) :
    relevant? .conjunction (items.map fun a => accepts (field a) (values a)) =
      some ((items.filter (values · ≠ [])).map fun a => accepts (field a) (values a)) := by
  induction items with
  | nil => rfl
  | cons a rest ih =>
    rw [List.map_cons, List.filter_cons]
    by_cases none : values a = []
    · have always : accepts (field a) (values a) = .constant Connective.conjunction.unit :=
        accepts_eq_always_iff.mpr none
      rw [always, relevant?, if_pos rfl, ih, if_neg (by simp [none])]
    · rw [(isPart_accepts none).relevant?_cons, ih, if_pos (decide_eq_true none)]
      rfl

end Predicate

namespace SearchKey

/-- What of a task the values under a key are compared with. -/
def field : SearchKey → Field
  | jurisdiction => .jurisdiction
  | state => .state
  | location => .location
  | region => .region
  | caseId => .caseId
  | user => .assignee
  | workType => .workType
  | roleCategory => .roleCategory
  | taskType => .taskType
  | taskId => .taskId

theorem mem_all (key : SearchKey) : key ∈ all := by
  cases key <;> decide

end SearchKey

namespace SearchRequest

/-- The values under a key, states by their names. -/
def listed (r : SearchRequest) : SearchKey → List String
  | .jurisdiction => r.jurisdictions
  | .state => r.states.map TaskState.name
  | .location => r.locations
  | .region => r.regions
  | .caseId => r.caseIds
  | .user => r.users
  | .workType => r.workTypes
  | .roleCategory => r.roleCategories
  | .taskType => r.taskTypes
  | .taskId => r.taskIds

variable {r : SearchRequest}

theorem unfiltered_iff_listed : r.Unfiltered ↔ ∀ key, r.listed key = [] := by
  constructor
  · intro unfiltered key
    cases key with
    | jurisdiction => exact unfiltered.jurisdictions
    | state => exact List.map_eq_nil_iff.mpr unfiltered.states
    | location => exact unfiltered.locations
    | region => exact unfiltered.regions
    | caseId => exact unfiltered.caseIds
    | user => exact unfiltered.users
    | workType => exact unfiltered.workTypes
    | roleCategory => exact unfiltered.roleCategories
    | taskType => exact unfiltered.taskTypes
    | taskId => exact unfiltered.taskIds
  · intro empty
    exact {
      jurisdictions := empty .jurisdiction
      states := List.map_eq_nil_iff.mp (empty .state)
      locations := empty .location
      regions := empty .region
      caseIds := empty .caseId
      users := empty .user
      workTypes := empty .workType
      roleCategories := empty .roleCategory
      taskTypes := empty .taskType
      taskIds := empty .taskId }

/-! ## The check -/

theorem requireFilter_eq_error_iff : (∃ e, r.requireFilter = .error e) ↔ r.Unfiltered := by
  rw [← hasFilter_eq_false_iff, requireFilter]
  cases r.hasFilter <;> simp

theorem requireFilter_refuses_iff {e : Error} :
    r.requireFilter = .error e ↔ r.Unfiltered ∧ e = .noFilter := by
  rw [← hasFilter_eq_false_iff, requireFilter]
  cases r.hasFilter <;> simp [eq_comm]

theorem requireFilter_eq_ok_iff : r.requireFilter = .ok () ↔ ¬ r.Unfiltered := by
  rw [← hasFilter_eq_false_iff, requireFilter]
  cases r.hasFilter <;> simp

/-! ## The condition -/

theorem filters_eq_fold (r : SearchRequest) :
    r.filters =
      .fold .conjunction (SearchKey.all.map fun key => .accepts key.field (r.listed key)) :=
  rfl

theorem filters_eq (r : SearchRequest) :
    r.filters = .ofParts .conjunction ((SearchKey.all.filter (r.listed · ≠ [])).map fun key =>
      .accepts key.field (r.listed key)) := by
  rw [filters_eq_fold, Predicate.fold, Predicate.relevant?_map_accepts]

theorem filters_eq_always_iff : r.filters = .constant true ↔ r.Unfiltered := by
  have normal : ∀ p ∈ SearchKey.all.map fun key => Predicate.accepts key.field (r.listed key),
      p.Normal :=
    List.forall_mem_map.mpr fun key _ => (Predicate.possible_accepts key.field _).normal
  rw [unfiltered_iff_listed, filters_eq_fold]
  refine (Predicate.fold_eq_unit_iff (c := .conjunction) normal).trans ?_
  simp only [List.forall_mem_map, SearchKey.mem_all, forall_const]
  exact forall_congr' fun key => Predicate.accepts_eq_always_iff

/-- The guard is exact.  A request is refused exactly when its filters accept everything; they never
accept nothing; and unless they accept everything they are the conjunction of one leaf for each key
with values, in the order of the keys, that asks for those values. -/
theorem guard_iff_filters_always (r : SearchRequest) :
    ((∃ e, r.requireFilter = .error e) ↔ r.filters = .constant true) ∧
      r.filters ≠ .constant false ∧
      (r.filters = .constant true ∨ ∃ leaves,
        List.Forall₂ (fun key leaf => Predicate.AsksFor (SearchKey.field key) (r.listed key) leaf)
          (SearchKey.all.filter (r.listed · ≠ [])) leaves ∧
        Predicate.Joins leaves r.filters) := by
  refine ⟨?_, r.possible_filters.ne_never, ?_⟩
  · rw [requireFilter_eq_error_iff, filters_eq_always_iff]
  · by_cases none : SearchKey.all.filter (r.listed · ≠ []) = []
    · left
      rw [filters_eq, none]
      rfl
    · right
      refine ⟨_, ?_, r.filters_eq ▸ Predicate.joins_ofParts (mt List.map_eq_nil_iff.mp none)⟩
      rw [List.forall₂_map_right_iff, List.forall₂_same]
      intro key mem
      exact Predicate.asksFor_accepts (of_decide_eq_true (List.mem_filter.mp mem).2)

end SearchRequest

end Caseload
