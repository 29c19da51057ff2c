import Caseload.Json.Record
import Caseload.Text.Blank

/-!
# Sort instructions

Those who search name the fields to sort by, each with a direction.  An instruction whose field
or direction is not known resolves to nothing.
-/

namespace Caseload

/-- Which end of an order comes first. -/
inductive SortDirection
  | ascending
  | descending
  deriving DecidableEq, Repr

namespace SortDirection

def name : SortDirection → String
  | ascending => "asc"
  | descending => "desc"

/-- The direction that a text names, short or long and in letters of either case. -/
def ofText? (value : String) : Option SortDirection :=
  match (Text.trim value).toLower with
  | "asc" | "ascending" => some ascending
  | "desc" | "descending" => some descending
  | _ => none

end SortDirection

/-- A field by which tasks can be sorted. -/
inductive SortField
  | due
  | title
  | locationName
  | caseCategory
  | caseId
  | caseName
  | nextHearing
  | majorPriority
  | priorityDate
  | minorPriority
  deriving DecidableEq, Repr

namespace SortField

def column : SortField → String
  | due => "due_date_time"
  | title => "title"
  | locationName => "location_name"
  | caseCategory => "case_category"
  | caseId => "case_id"
  | caseName => "case_name"
  | nextHearing => "next_hearing_date"
  | majorPriority => "major_priority"
  | priorityDate => "priority_date"
  | minorPriority => "minor_priority"

/-- Whether the field holds text, which is sorted by code points. -/
def isText : SortField → Bool
  | title | locationName | caseCategory | caseId | caseName => true
  | due | nextHearing | majorPriority | priorityDate | minorPriority => false

/-- The field that a text names, with words run together or underlined. -/
def ofText? (value : String) : Option SortField :=
  match Text.trim value with
  | "dueDate" | "due_date" | "dueDateTime" | "due_date_time" => some due
  | "taskTitle" | "task_title" => some title
  | "locationName" | "location_name" => some locationName
  | "caseCategory" | "case_category" => some caseCategory
  | "caseId" | "case_id" => some caseId
  | "caseName" | "case_name" => some caseName
  | "nextHearingDate" | "next_hearing_date" => some nextHearing
  | "majorPriority" | "major_priority" => some majorPriority
  | "priorityDate" | "priority_date" => some priorityDate
  | "minorPriority" | "minor_priority" => some minorPriority
  | _ => none

end SortField

/-- A field to sort by and its direction. -/
structure SortKey where
  field : SortField
  direction : SortDirection
  deriving DecidableEq, Repr

/-- What a caller asks to be sorted by. -/
structure SortInstruction where
  field : String
  direction : String
  deriving DecidableEq, Repr

namespace SortInstruction

/-- The key that an instruction names, if it names a field and a direction. -/
def resolve? (s : SortInstruction) : Option SortKey := do
  return { field := ← SortField.ofText? s.field, direction := ← SortDirection.ofText? s.direction }

/-- The fields of the record, in order. -/
def fieldNames : List String :=
  ["sort_by", "sort_order"]

def toJson (s : SortInstruction) : Json :=
  .ofEntries [("sort_by", .text s.field), ("sort_order", .text s.direction)]

def ofJson? (v : Json) : Option SortInstruction := do
  let fields ← Json.Record.ofJson? fieldNames v
  return {
    field := ← fields.required? "sort_by" Json.text?
    direction := ← fields.required? "sort_order" Json.text? }

end SortInstruction

end Caseload
