import Caseload.Proofs.Error.FirstFailure
import Caseload.Proofs.SearchRequest.Guard
import Caseload.Proofs.Sql.Decoding
import Caseload.Proofs.Text.Trim

/-!
# From payloads to requests

A payload gives values under keys, and `SearchKey.given` lists what it gives under one of them.
Adding one parameter to a request appends what it gives under each key (`addParameter_eq`), so all
parameters together append all that is given (`foldlM_addParameter`).  Only texts that name no state
stand in the way, and the first of them is reported.  A request that came from a payload holds
trimmed values only; written as a payload again, it is given what it has.
-/

namespace Caseload

/-! ## States -/

namespace TaskState

variable {value : String}

theorem ofName?_eq_some_iff {name : String} {s : TaskState} :
    ofName? name = some s ↔ name = s.name := by
  constructor
  · intro found
    rw [ofName?] at found
    have named := List.find?_some found
    exact (of_decide_eq_true named).symm
  · rintro rfl
    cases s <;> decide

theorem parse_eq_ok_iff {s : TaskState} :
    parse value = .ok s ↔ (Text.trim value).toUpper = s.name := by
  rw [← ofName?_eq_some_iff, parse, ofText?]
  cases ofName? (Text.trim value).toUpper <;> simp

theorem parse_eq_error_iff {e : Error} :
    parse value = .error e ↔
      (∀ s : TaskState, (Text.trim value).toUpper ≠ s.name) ∧ e = .unknownState value := by
  simp only [ne_eq, ← ofName?_eq_some_iff]
  rw [parse, ofText?]
  cases ofName? (Text.trim value).toUpper <;> simp [eq_comm]

theorem trim_name (s : TaskState) : Text.trim s.name = s.name := by
  cases s <;> decide

theorem parse_name (s : TaskState) : parse s.name = .ok s := by
  rw [parse, ofText?_name]

theorem name_ne_empty (s : TaskState) : s.name ≠ "" := by
  cases s <;> decide

end TaskState

/-! ## What is given -/

/-- The texts that parameters give under a key, trimmed and in order; texts of blanks are none. -/
def SearchKey.given (key : SearchKey) (ps : List SearchParameter) : List String :=
  (ps.filter (·.key = key)).flatMap fun p => (p.values.map Text.trim).filter (· ≠ "")

namespace SearchKey

variable {key : SearchKey} {ps : List SearchParameter} {text : String}

theorem given_append (key : SearchKey) (ps qs : List SearchParameter) :
    key.given (ps ++ qs) = key.given ps ++ key.given qs := by
  rw [given, List.filter_append, List.flatMap_append, given, given]

theorem given_singleton (key : SearchKey) (p : SearchParameter) :
    key.given [p] = if p.key = key then Text.nonBlanks p.values else [] := by
  by_cases same : p.key = key
  · simp [given, same, Text.nonBlanks_eq_filter]
  · simp [given, same]

theorem mem_given :
    text ∈ key.given ps ↔
      ∃ p ∈ ps, p.key = key ∧
        ∃ value ∈ p.values, Text.trim value ≠ "" ∧ Text.trim value = text := by
  simp only [given, List.mem_flatMap, List.mem_filter, List.mem_map, decide_eq_true_eq]
  constructor
  · rintro ⟨p, ⟨mem, same⟩, ⟨value, valued, rfl⟩, nonblank⟩
    exact ⟨p, mem, same, value, valued, nonblank, rfl⟩
  · rintro ⟨p, mem, same, value, valued, nonblank, rfl⟩
    exact ⟨p, ⟨mem, same⟩, ⟨value, valued, rfl⟩, nonblank⟩

theorem trim_of_mem_given (mem : text ∈ key.given ps) : Text.trim text = text := by
  obtain ⟨-, -, -, value, -, -, rfl⟩ := mem_given.mp mem
  exact Text.trim_trim value

theorem ne_empty_of_mem_given (mem : text ∈ key.given ps) : text ≠ "" := by
  obtain ⟨-, -, -, value, -, nonblank, rfl⟩ := mem_given.mp mem
  exact nonblank

theorem nonBlanks_given (key : SearchKey) (ps : List SearchParameter) :
    Text.nonBlanks (key.given ps) = key.given ps :=
  Text.nonBlanks_eq_self (fun _ => trim_of_mem_given) fun _ => ne_empty_of_mem_given

end SearchKey

/-! ## Adding parameters -/

namespace SearchRequest

/-- The request with all that further parameters give; `states` are the states among it. -/
def adding (r : SearchRequest) (ps : List SearchParameter) (states : List TaskState) :
    SearchRequest where
  jurisdictions := r.jurisdictions ++ SearchKey.jurisdiction.given ps
  states := r.states ++ states
  locations := r.locations ++ SearchKey.location.given ps
  regions := r.regions ++ SearchKey.region.given ps
  caseIds := r.caseIds ++ SearchKey.caseId.given ps
  users := r.users ++ SearchKey.user.given ps
  workTypes := r.workTypes ++ SearchKey.workType.given ps
  roleCategories := r.roleCategories ++ SearchKey.roleCategory.given ps
  taskTypes := r.taskTypes ++ SearchKey.taskType.given ps
  taskIds := r.taskIds ++ SearchKey.taskId.given ps
  sorting := r.sorting

theorem adding_nil (r : SearchRequest) : r.adding [] [] = r := by
  simp [adding, SearchKey.given]

theorem adding_adding (r : SearchRequest) (ps qs : List SearchParameter)
    (states more : List TaskState) :
    (r.adding ps states).adding qs more = r.adding (ps ++ qs) (states ++ more) := by
  simp [adding, SearchKey.given_append]

/-- One parameter adds what it gives, under whichever key. -/
theorem addParameter_eq (r : SearchRequest) (p : SearchParameter) :
    r.addParameter p = (do
      let states ← (SearchKey.state.given [p]).mapM TaskState.parse
      return r.adding [p] states) := by
  cases key : p.key with
  | state => simp [addParameter, adding, SearchKey.given_singleton, key]
  | _ =>
    simp [addParameter, adding, SearchKey.given_singleton, key]
    rfl

theorem foldlM_addParameter (r : SearchRequest) (ps : List SearchParameter) :
    ps.foldlM addParameter r = (do
      let states ← (SearchKey.state.given ps).mapM TaskState.parse
      return r.adding ps states) := by
  induction ps generalizing r with
  | nil =>
    have nothing : SearchKey.state.given [] = [] := rfl
    rw [List.foldlM_nil, nothing, List.mapM_nil, pure_bind, adding_nil]
  | cons p ps ih =>
    have split : SearchKey.state.given (p :: ps) =
        SearchKey.state.given [p] ++ SearchKey.state.given ps := SearchKey.given_append _ [p] ps
    rw [List.foldlM_cons, addParameter_eq, split, List.mapM_append]
    simp only [bind_assoc, pure_bind, ih, adding_adding, List.singleton_append]

theorem ofPayload_eq (p : SearchPayload) :
    ofPayload p = (do
      let states ← (SearchKey.state.given p.parameters).mapM TaskState.parse
      return adding { sorting := p.sorting.getD [] } p.parameters states) :=
  foldlM_addParameter _ _

theorem ofPayload_eq_error_iff {p : SearchPayload} {e : Error} :
    ofPayload p = .error e ↔
      (SearchKey.state.given p.parameters).mapM TaskState.parse = .error e := by
  simp [ofPayload_eq, bind_eq_error_iff, pure, Except.pure]

theorem ofPayload_eq_ok_iff {p : SearchPayload} {r : SearchRequest} :
    ofPayload p = .ok r ↔
      ∃ states, (SearchKey.state.given p.parameters).mapM TaskState.parse = .ok states ∧
        adding { sorting := p.sorting.getD [] } p.parameters states = r := by
  simp [ofPayload_eq, bind_eq_ok_iff, pure, Except.pure]

/-! ## Requests as payloads -/

variable {r : SearchRequest}

theorem given_toPayload (r : SearchRequest) (key : SearchKey) :
    key.given r.toPayload.parameters = Text.nonBlanks (r.listed key) := by
  rw [Text.nonBlanks_eq_filter]
  cases key <;> simp [SearchKey.given, toPayload, listed]

theorem nonBlanks_listed_state (r : SearchRequest) :
    Text.nonBlanks (r.listed .state) = r.listed .state := by
  refine Text.nonBlanks_eq_self ?_ ?_
  · intro name mem
    obtain ⟨s, -, rfl⟩ := List.mem_map.mp mem
    exact s.trim_name
  · intro name mem
    obtain ⟨s, -, rfl⟩ := List.mem_map.mp mem
    exact s.name_ne_empty

/-- A request of trimmed values is what it makes when written as a payload. -/
theorem ofPayload_toPayload (trimmed : ∀ key, Text.nonBlanks (r.listed key) = r.listed key) :
    ofPayload r.toPayload = .ok r := by
  have given (key : SearchKey) : key.given r.toPayload.parameters = r.listed key := by
    rw [given_toPayload, trimmed]
  refine ofPayload_eq_ok_iff.mpr ⟨r.states, ?_, ?_⟩
  · rw [given, mapM_eq_ok_iff, listed, List.forall₂_map_left_iff, List.forall₂_same]
    intro s _
    exact s.parse_name
  · simp only [adding, given, listed, List.nil_append]
    rfl

end SearchRequest

/-! ## The conversion as a whole -/

namespace SearchPayload

/-- A state parameter has a value, not of blanks only, that names no state. -/
def HasUnknownState (p : SearchPayload) : Prop :=
  ∃ q ∈ p.parameters, q.key = .state ∧ ∃ value ∈ q.values,
    Text.trim value ≠ "" ∧ ∀ s : TaskState, (Text.trim value).toUpper ≠ s.name

/-- The text is the first one given as a state that names none. -/
def FirstUnknownState (p : SearchPayload) (text : String) : Prop :=
  ∃ before after, SearchKey.state.given p.parameters = before ++ text :: after ∧
    (∀ known ∈ before, ∃ s : TaskState, known.toUpper = s.name) ∧
    ∀ s : TaskState, text.toUpper ≠ s.name

variable {p : SearchPayload}

theorem firstUnknownState_of_mapM_eq_error {e : Error}
    (failed : (SearchKey.state.given p.parameters).mapM TaskState.parse = .error e) :
    ∃ text, p.FirstUnknownState text ∧ e = .unknownState text := by
  obtain ⟨before, text, after, split, fine, unknown⟩ := mapM_eq_error_iff.mp failed
  have trimmed : ∀ t ∈ before ++ text :: after, Text.trim t = t := by
    intro t mem
    exact SearchKey.trim_of_mem_given (split ▸ mem)
  obtain ⟨unnamed, rfl⟩ := TaskState.parse_eq_error_iff.mp unknown
  rw [trimmed text (by simp)] at unnamed
  refine ⟨text, ⟨before, after, split, ?_, unnamed⟩, rfl⟩
  intro known mem
  obtain ⟨s, parsed⟩ := fine known mem
  rw [TaskState.parse_eq_ok_iff, trimmed known (by simp [mem])] at parsed
  exact ⟨s, parsed⟩

/-- The request that a payload fails to make is refused for the first text that names no state. -/
theorem ofPayload_eq_error_iff_firstUnknownState {e : Error} :
    SearchRequest.ofPayload p = .error e ↔
      ∃ text, p.FirstUnknownState text ∧ e = .unknownState text := by
  rw [SearchRequest.ofPayload_eq_error_iff]
  refine ⟨firstUnknownState_of_mapM_eq_error, ?_⟩
  rintro ⟨text, ⟨before, after, split, known, unnamed⟩, rfl⟩
  have trimmed : ∀ t ∈ before ++ text :: after, Text.trim t = t := by
    intro t mem
    exact SearchKey.trim_of_mem_given (split ▸ mem)
  refine mapM_eq_error_iff.mpr ⟨before, text, after, split, fun t mem => ?_, ?_⟩
  · obtain ⟨s, named⟩ := known t mem
    exact ⟨s, TaskState.parse_eq_ok_iff.mpr (by rwa [trimmed t (by simp [mem])])⟩
  · refine TaskState.parse_eq_error_iff.mpr ⟨?_, rfl⟩
    rwa [trimmed text (by simp)]

theorem FirstUnknownState.hasUnknownState {text : String} (first : p.FirstUnknownState text) :
    p.HasUnknownState := by
  obtain ⟨before, after, split, -, unnamed⟩ := first
  have mem : text ∈ SearchKey.state.given p.parameters := by simp [split]
  obtain ⟨q, among, key, value, valued, nonblank, rfl⟩ := SearchKey.mem_given.mp mem
  exact ⟨q, among, key, value, valued, nonblank, unnamed⟩

theorem not_hasUnknownState_of_mapM_eq_ok {states : List TaskState}
    (parsed : (SearchKey.state.given p.parameters).mapM TaskState.parse = .ok states) :
    ¬ p.HasUnknownState := by
  rintro ⟨q, among, key, value, valued, nonblank, unnamed⟩
  have mem : Text.trim value ∈ SearchKey.state.given p.parameters :=
    SearchKey.mem_given.mpr ⟨q, among, key, value, valued, nonblank, rfl⟩
  obtain ⟨s, named⟩ := exists_ok_of_mapM_eq_ok parsed _ mem
  rw [TaskState.parse_eq_ok_iff, Text.trim_trim] at named
  exact unnamed s named

end SearchPayload

namespace SearchRequest

/-- The lists of the request are what the payload gives under their keys, from its first parameter
to its last; a state is the one whose name is given, in letters of either case. -/
structure Gathers (r : SearchRequest) (p : SearchPayload) : Prop where
  jurisdictions : r.jurisdictions = SearchKey.jurisdiction.given p.parameters
  states : List.Forall₂ (fun text s => text.toUpper = TaskState.name s)
    (SearchKey.state.given p.parameters) r.states
  locations : r.locations = SearchKey.location.given p.parameters
  regions : r.regions = SearchKey.region.given p.parameters
  caseIds : r.caseIds = SearchKey.caseId.given p.parameters
  users : r.users = SearchKey.user.given p.parameters
  workTypes : r.workTypes = SearchKey.workType.given p.parameters
  roleCategories : r.roleCategories = SearchKey.roleCategory.given p.parameters
  taskTypes : r.taskTypes = SearchKey.taskType.given p.parameters
  taskIds : r.taskIds = SearchKey.taskId.given p.parameters
  sorting : r.sorting = p.sorting.getD []

variable {p : SearchPayload} {r : SearchRequest}

theorem gathers_of_ofPayload_eq_ok (made : ofPayload p = .ok r) : r.Gathers p := by
  obtain ⟨states, parsed, rfl⟩ := ofPayload_eq_ok_iff.mp made
  have named : List.Forall₂ (fun text s => text.toUpper = TaskState.name s)
      (SearchKey.state.given p.parameters) states := by
    have trimmed : ∀ text ∈ SearchKey.state.given p.parameters, Text.trim text = text :=
      fun _ => SearchKey.trim_of_mem_given
    refine ((List.forall₂_and_left _ _).mpr ⟨trimmed, mapM_eq_ok_iff.mp parsed⟩).imp ?_
    rintro text s ⟨same, read⟩
    rwa [TaskState.parse_eq_ok_iff, same] at read
  exact {
    jurisdictions := rfl
    states := named
    locations := rfl
    regions := rfl
    caseIds := rfl
    users := rfl
    workTypes := rfl
    roleCategories := rfl
    taskTypes := rfl
    taskIds := rfl
    sorting := rfl }

/-- Except for states, which have their names instead of what was given. -/
theorem Gathers.listed_eq (gathers : r.Gathers p) {key : SearchKey} (other : key ≠ .state) :
    r.listed key = key.given p.parameters := by
  cases key with
  | state => exact absurd rfl other
  | jurisdiction => exact gathers.jurisdictions
  | location => exact gathers.locations
  | region => exact gathers.regions
  | caseId => exact gathers.caseIds
  | user => exact gathers.users
  | workType => exact gathers.workTypes
  | roleCategory => exact gathers.roleCategories
  | taskType => exact gathers.taskTypes
  | taskId => exact gathers.taskIds

theorem Gathers.listed_eq_nil_iff (gathers : r.Gathers p) (key : SearchKey) :
    r.listed key = [] ↔ key.given p.parameters = [] := by
  by_cases state : key = .state
  · rw [state, listed, List.map_eq_nil_iff, ← List.length_eq_zero_iff,
      ← gathers.states.length_eq, List.length_eq_zero_iff]
  · rw [gathers.listed_eq state]

theorem Gathers.nonBlanks_listed (gathers : r.Gathers p) (key : SearchKey) :
    Text.nonBlanks (r.listed key) = r.listed key := by
  by_cases state : key = .state
  · rw [state, nonBlanks_listed_state]
  · rw [gathers.listed_eq state, SearchKey.nonBlanks_given]

/-- A request asks for something exactly when its payload has a value that is not of blanks. -/
theorem Gathers.requireFilter_eq_ok_iff (gathers : r.Gathers p) :
    r.requireFilter = .ok () ↔ ∃ q ∈ p.parameters, ∃ value ∈ q.values, Text.trim value ≠ "" := by
  rw [SearchRequest.requireFilter_eq_ok_iff, unfiltered_iff_listed, not_forall]
  simp only [gathers.listed_eq_nil_iff]
  constructor
  · rintro ⟨key, some⟩
    obtain ⟨text, mem⟩ := List.exists_mem_of_ne_nil _ some
    obtain ⟨q, among, -, value, valued, nonblank, -⟩ := SearchKey.mem_given.mp mem
    exact ⟨q, among, value, valued, nonblank⟩
  · rintro ⟨q, among, value, valued, nonblank⟩
    refine ⟨q.key, List.ne_nil_of_mem (a := Text.trim value) ?_⟩
    exact SearchKey.mem_given.mpr ⟨q, among, rfl, value, valued, nonblank, rfl⟩

/-- What comes of a payload.  It is refused exactly when a state parameter has a value that is
neither of blanks nor names a state, and the first such value is reported.  Otherwise the request
has, under each key, all values given for it, in order and without blanks; it passes the check for
filters exactly when there is such a value at all; and written as a payload it makes itself
again. -/
theorem ofPayload_gathers_given (p : SearchPayload) :
    ((∃ e, ofPayload p = .error e) ↔ p.HasUnknownState) ∧
      match ofPayload p with
      | .error e => ∃ text, p.FirstUnknownState text ∧ e = .unknownState text ∧
          e.message = s!"validation error: unknown task state '{text}'"
      | .ok r => r.Gathers p ∧
          (r.requireFilter = .ok () ↔
            ∃ q ∈ p.parameters, ∃ value ∈ q.values, Text.trim value ≠ "") ∧
          ofPayload r.toPayload = .ok r := by
  cases made : ofPayload p with
  | error e =>
    obtain ⟨text, first, rfl⟩ := SearchPayload.firstUnknownState_of_mapM_eq_error
      (ofPayload_eq_error_iff.mp made)
    exact ⟨iff_of_true ⟨_, rfl⟩ first.hasUnknownState, text, first, rfl, rfl⟩
  | ok r =>
    obtain ⟨states, parsed, -⟩ := ofPayload_eq_ok_iff.mp made
    have gathers := gathers_of_ofPayload_eq_ok made
    refine ⟨iff_of_false (by simp) (SearchPayload.not_hasUnknownState_of_mapM_eq_ok parsed),
      gathers, gathers.requireFilter_eq_ok_iff, ofPayload_toPayload gathers.nonBlanks_listed⟩

end SearchRequest

end Caseload
