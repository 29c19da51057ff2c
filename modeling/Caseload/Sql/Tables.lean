import Caseload.Sql.Statement

/-!
# Tasks as rows

A task becomes a row of the table of tasks and a row of the table of role rows for each of its
role rows.  The other way, rows are read by the names of their columns; state and classification
come back as text, which may name none.
-/

namespace Caseload

open Sql (Cell Row Value)

namespace Task

/-- The row of the table of tasks for a task. -/
def cells (t : Task) : List Cell :=
  [("task_id", .text t.id),
    ("task_name", .text t.name),
    ("task_type", .text t.type),
    ("state", .text t.state.name),
    ("jurisdiction", .text t.jurisdiction),
    ("region", .ofOption .text t.region),
    ("location", .ofOption .text t.location),
    ("location_name", .ofOption .text t.locationName),
    ("case_id", .text t.caseId),
    ("case_type_id", .text t.caseType),
    ("case_name", .ofOption .text t.caseName),
    ("case_category", .ofOption .text t.caseCategory),
    ("assignee", .ofOption .text t.assignee),
    ("work_type", .ofOption .text t.workType),
    ("role_category", .ofOption .text t.roleCategory),
    ("security_classification", .text t.classification.name),
    ("title", .ofOption .text t.title),
    ("due_date_time", .ofOption .timestamp t.due),
    ("priority_date", .ofOption .timestamp t.priorityDate),
    ("major_priority", .ofOption (fun n => .integer n.toInt) t.majorPriority),
    ("minor_priority", .ofOption (fun n => .integer n.toInt) t.minorPriority),
    ("next_hearing_date", .ofOption .timestamp t.nextHearing),
    ("created", .ofOption .timestamp t.created)]

end Task

namespace RoleRow

/-- The row of the table of role rows for a role row of a task. -/
def cells (task : String) (row : RoleRow) : List Cell :=
  [("task_id", .text task),
    ("role_name", .text row.role),
    ("role_category", .ofOption .text row.category),
    ("read", .boolean row.read),
    ("own", .boolean row.own),
    ("execute", .boolean row.execute),
    ("manage", .boolean row.manage),
    ("cancel", .boolean row.cancel),
    ("refer", .boolean row.refer),
    ("claim", .boolean row.claim),
    ("assign", .boolean row.assign),
    ("unassign", .boolean row.unassign),
    ("complete", .boolean row.complete),
    ("authorizations", .ofOption .texts row.authorizations)]

/-- Reads a row of the table of role rows: the task that it belongs to, and the role row. -/
def ofRow (row : Row) : Except StatementFailure (String × RoleRow) := do
  let task ← row.text "task_id"
  let roleRow : RoleRow := {
    role := ← row.text "role_name"
    category := ← row.text? "role_category"
    read := ← row.boolean "read"
    own := ← row.boolean "own"
    execute := ← row.boolean "execute"
    manage := ← row.boolean "manage"
    cancel := ← row.boolean "cancel"
    refer := ← row.boolean "refer"
    claim := ← row.boolean "claim"
    assign := ← row.boolean "assign"
    unassign := ← row.boolean "unassign"
    complete := ← row.boolean "complete"
    authorizations := ← row.texts? "authorizations" }
  return (task, roleRow)

end RoleRow

/-- A row of the table of tasks. -/
structure StoredTask where
  id : String
  name : String
  type : String
  /-- The name of the state, or some other text. -/
  state : String
  jurisdiction : String
  region : Option String
  location : Option String
  locationName : Option String
  caseId : String
  caseType : String
  caseName : Option String
  caseCategory : Option String
  assignee : Option String
  workType : Option String
  /-- The category of the roles that deal with the task. -/
  roleCategory : Option String
  /-- The name of the classification, or some other text. -/
  classification : String
  title : Option String
  due : Option Instant
  priorityDate : Option Instant
  majorPriority : Option Int32
  minorPriority : Option Int32
  nextHearing : Option Instant
  created : Option Instant
  deriving DecidableEq

namespace StoredTask

/-- Reads a row of the table of tasks. -/
def ofRow (row : Row) : Except StatementFailure StoredTask := do
  return {
    id := ← row.text "task_id"
    name := ← row.text "task_name"
    type := ← row.text "task_type"
    state := ← row.text "state"
    jurisdiction := ← row.text "jurisdiction"
    region := ← row.text? "region"
    location := ← row.text? "location"
    locationName := ← row.text? "location_name"
    caseId := ← row.text "case_id"
    caseType := ← row.text "case_type_id"
    caseName := ← row.text? "case_name"
    caseCategory := ← row.text? "case_category"
    assignee := ← row.text? "assignee"
    workType := ← row.text? "work_type"
    roleCategory := ← row.text? "role_category"
    classification := ← row.text "security_classification"
    title := ← row.text? "title"
    due := ← row.timestamp? "due_date_time"
    priorityDate := ← row.timestamp? "priority_date"
    majorPriority := ← row.int32? "major_priority"
    minorPriority := ← row.int32? "minor_priority"
    nextHearing := ← row.timestamp? "next_hearing_date"
    created := ← row.timestamp? "created" }

/-- The task of a row and its role rows, unless the stored state or classification is none. -/
def toTask (s : StoredTask) (roles : List RoleRow) : Except Error Task :=
  match TaskState.ofText? s.state with
  | none => .error (.storedState s.id s.state)
  | some state =>
    match Classification.ofName? s.classification with
    | none => .error (.storedClassification s.id s.classification)
    | some classification =>
      .ok {
        id := s.id
        name := s.name
        type := s.type
        state
        jurisdiction := s.jurisdiction
        region := s.region
        location := s.location
        locationName := s.locationName
        caseId := s.caseId
        caseType := s.caseType
        caseName := s.caseName
        caseCategory := s.caseCategory
        assignee := s.assignee
        workType := s.workType
        roleCategory := s.roleCategory
        classification
        title := s.title
        due := s.due
        priorityDate := s.priorityDate
        majorPriority := s.majorPriority
        minorPriority := s.minorPriority
        nextHearing := s.nextHearing
        created := s.created
        roles }

/-- The tasks of some rows.  Each takes the role rows that belong to it, in their order, and the
first row with a state or classification that is none ends it all. -/
def assemble (rows : List (String × RoleRow)) : List StoredTask → Except Error (List Task)
  | [] => .ok []
  | s :: rest => do
    let (own, others) := rows.partition fun (task, _) => task = s.id
    let t ← s.toTask (own.map Prod.snd)
    return t :: (← assemble others rest)

end StoredTask

end Caseload
