import Caseload.Instant.Json
import Caseload.Task.Basic

/-!
# Tasks in JSON

Tasks and their summaries are records.  What a task may lack may be missing from the record or be
`null`, and a task without role rows may leave them out.
-/

namespace Caseload

namespace Task

/-- The fields of the record, in order. -/
def fieldNames : List String :=
  ["task_id", "task_name", "task_type", "state", "jurisdiction", "region", "location",
    "location_name", "case_id", "case_type_id", "case_name", "case_category", "assignee",
    "work_type", "role_category", "security_classification", "title", "due_date_time",
    "priority_date", "major_priority", "minor_priority", "next_hearing_date", "created", "roles"]

def toJson (t : Task) : Json :=
  .ofEntries [
    ("task_id", .text t.id),
    ("task_name", .text t.name),
    ("task_type", .text t.type),
    ("state", t.state.toJson),
    ("jurisdiction", .text t.jurisdiction),
    ("region", .ofOption .text t.region),
    ("location", .ofOption .text t.location),
    ("location_name", .ofOption .text t.locationName),
    ("case_id", .text t.caseId),
    ("case_type_id", .text t.caseType),
    ("case_name", .ofOption .text t.caseName),
    ("case_category", .ofOption .text t.caseCategory),
    ("assignee", .ofOption .text t.assignee),
    ("work_type", .ofOption .text t.workType),
    ("role_category", .ofOption .text t.roleCategory),
    ("security_classification", t.classification.toJson),
    ("title", .ofOption .text t.title),
    ("due_date_time", .ofOption Instant.toJson t.due),
    ("priority_date", .ofOption Instant.toJson t.priorityDate),
    ("major_priority", .ofOption (fun n => .integer n.toInt) t.majorPriority),
    ("minor_priority", .ofOption (fun n => .integer n.toInt) t.minorPriority),
    ("next_hearing_date", .ofOption Instant.toJson t.nextHearing),
    ("created", .ofOption Instant.toJson t.created),
    ("roles", .ofList RoleRow.toJson t.roles)]

def ofJson? (v : Json) : Option Task := do
  let fields ← Json.Record.ofJson? fieldNames v
  return {
    id := ← fields.required? "task_id" Json.text?
    name := ← fields.required? "task_name" Json.text?
    type := ← fields.required? "task_type" Json.text?
    state := ← fields.required? "state" TaskState.ofJson?
    jurisdiction := ← fields.required? "jurisdiction" Json.text?
    region := ← fields.optional? "region" Json.text?
    location := ← fields.optional? "location" Json.text?
    locationName := ← fields.optional? "location_name" Json.text?
    caseId := ← fields.required? "case_id" Json.text?
    caseType := ← fields.required? "case_type_id" Json.text?
    caseName := ← fields.optional? "case_name" Json.text?
    caseCategory := ← fields.optional? "case_category" Json.text?
    assignee := ← fields.optional? "assignee" Json.text?
    workType := ← fields.optional? "work_type" Json.text?
    roleCategory := ← fields.optional? "role_category" Json.text?
    classification := ← fields.required? "security_classification" Classification.ofJson?
    title := ← fields.optional? "title" Json.text?
    due := ← fields.optional? "due_date_time" Instant.ofJson?
    priorityDate := ← fields.optional? "priority_date" Instant.ofJson?
    majorPriority := ← fields.optional? "major_priority" Json.int32?
    minorPriority := ← fields.optional? "minor_priority" Json.int32?
    nextHearing := ← fields.optional? "next_hearing_date" Instant.ofJson?
    created := ← fields.optional? "created" Instant.ofJson?
    roles := ← fields.withDefault? "roles" [] (Json.list? RoleRow.ofJson?) }

end Task

def TaskSummary.toJson (s : TaskSummary) : Json :=
  .ofEntries [
    ("task_id", .text s.id),
    ("task_name", .text s.name),
    ("state", s.state.toJson),
    ("case_id", .text s.caseId),
    ("jurisdiction", .text s.jurisdiction),
    ("assignee", .ofOption .text s.assignee),
    ("major_priority", .ofOption (fun n => .integer n.toInt) s.majorPriority),
    ("priority_date", .ofOption Instant.toJson s.priorityDate),
    ("minor_priority", .ofOption (fun n => .integer n.toInt) s.minorPriority),
    ("due_date_time", .ofOption Instant.toJson s.due)]

end Caseload
