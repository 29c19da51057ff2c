import Caseload.SearchRequest.Basic

/-!
# Search payloads

A search arrives as a list of parameters, each with a key and values, in any order and with any
repetition.  `SearchRequest.ofPayload` gathers the values by key; blanks around a value do not
count, and neither does a value of blanks.
-/

namespace Caseload

/-- What a search parameter is about. -/
inductive SearchKey
  | jurisdiction
  | state
  | location
  | region
  | caseId
  | user
  | workType
  | roleCategory
  | taskType
  | taskId
  deriving DecidableEq, Repr

namespace SearchKey

def all : List SearchKey :=
  [jurisdiction, state, location, region, caseId, user, workType, roleCategory, taskType, taskId]

def name : SearchKey → String
  | jurisdiction => "jurisdiction"
  | state => "state"
  | location => "location"
  | region => "region"
  | caseId => "case_id"
  | user => "user"
  | workType => "work_type"
  | roleCategory => "role_category"
  | taskType => "task_type"
  | taskId => "task_id"

def ofJson? : Json.Decoder SearchKey :=
  Json.choice? (all.map fun k => (k.name, k))

end SearchKey

/-- How a parameter compares: there is only membership in its values. -/
inductive SearchOperator
  | isIn
  deriving DecidableEq, Repr

namespace SearchOperator

def ofJson? : Json.Decoder SearchOperator :=
  Json.choice? [("IN", isIn)]

end SearchOperator

/-- One parameter of a search. -/
structure SearchParameter where
  key : SearchKey
  operator : SearchOperator := .isIn
  values : List String := []
  deriving DecidableEq, Repr

namespace SearchParameter

/-- The fields of the record, in order. -/
def fieldNames : List String :=
  ["key", "operator", "values"]

def ofJson? (v : Json) : Option SearchParameter := do
  let fields ← Json.Record.ofJson? fieldNames v
  return {
    key := ← fields.required? "key" SearchKey.ofJson?
    operator := ← fields.required? "operator" SearchOperator.ofJson?
    values := ← fields.withDefault? "values" [] Json.texts? }

end SearchParameter

/-- A search as it arrives. -/
structure SearchPayload where
  parameters : List SearchParameter := []
  sorting : Option (List SortInstruction) := none
  deriving DecidableEq, Repr

namespace SearchPayload

/-- The fields of the record, in order. -/
def fieldNames : List String :=
  ["search_parameters", "sorting_parameters"]

def ofJson? (v : Json) : Option SearchPayload := do
  let fields ← Json.Record.ofJson? fieldNames v
  return {
    parameters := ←
      fields.withDefault? "search_parameters" [] (Json.list? SearchParameter.ofJson?)
    sorting := ← fields.optional? "sorting_parameters" (Json.list? SortInstruction.ofJson?) }

end SearchPayload

namespace SearchRequest

/-- Adds the values of one parameter to the list of its key. -/
def addParameter (r : SearchRequest) (p : SearchParameter) : Except Error SearchRequest :=
  let values := Text.nonBlanks p.values
  match p.key with
  | .jurisdiction => .ok { r with jurisdictions := r.jurisdictions ++ values }
  | .state => do
    let states ← values.mapM TaskState.parse
    return { r with states := r.states ++ states }
  | .location => .ok { r with locations := r.locations ++ values }
  | .region => .ok { r with regions := r.regions ++ values }
  | .caseId => .ok { r with caseIds := r.caseIds ++ values }
  | .user => .ok { r with users := r.users ++ values }
  | .workType => .ok { r with workTypes := r.workTypes ++ values }
  | .roleCategory => .ok { r with roleCategories := r.roleCategories ++ values }
  | .taskType => .ok { r with taskTypes := r.taskTypes ++ values }
  | .taskId => .ok { r with taskIds := r.taskIds ++ values }

/-- The request that a payload makes, or the first of its states that is none. -/
def ofPayload (p : SearchPayload) : Except Error SearchRequest :=
  p.parameters.foldlM addParameter { sorting := p.sorting.getD [] }

/-- A request as a payload: one parameter for each key, states by their stored names. -/
def toPayload (r : SearchRequest) : SearchPayload where
  parameters := [
    { key := .jurisdiction, values := r.jurisdictions },
    { key := .state, values := r.states.map TaskState.name },
    { key := .location, values := r.locations },
    { key := .region, values := r.regions },
    { key := .caseId, values := r.caseIds },
    { key := .user, values := r.users },
    { key := .workType, values := r.workTypes },
    { key := .roleCategory, values := r.roleCategories },
    { key := .taskType, values := r.taskTypes },
    { key := .taskId, values := r.taskIds }]
  sorting := some r.sorting

end SearchRequest

end Caseload
