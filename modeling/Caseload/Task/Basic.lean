import Caseload.Classification
import Caseload.Instant.Basic
import Caseload.Task.RoleRow
import Caseload.Task.State

/-!
# Tasks

A task belongs to a case and carries the role rows that say who may do what with it.  A summary
is the part of a task that an overview shows.
-/

namespace Caseload

/-- A piece of work on a case. -/
structure Task where
  /-- What tells the task from all others. -/
  id : String
  name : String
  type : String
  /-- Where the task stands. -/
  state : TaskState
  jurisdiction : String
  region : Option String := none
  location : Option String := none
  locationName : Option String := none
  caseId : String
  caseType : String
  caseName : Option String := none
  caseCategory : Option String := none
  assignee : Option String := none
  workType : Option String := none
  /-- The category of the roles that deal with the task. -/
  roleCategory : Option String := none
  /-- How guarded the task is. -/
  classification : Classification := .publicLevel
  title : Option String := none
  due : Option Instant := none
  /-- The date by which the task is ranked. -/
  priorityDate : Option Instant := none
  /-- The first number by which the task is ranked, the lowest first. -/
  majorPriority : Option Int32 := none
  /-- The second number by which the task is ranked, the lowest first. -/
  minorPriority : Option Int32 := none
  nextHearing : Option Instant := none
  created : Option Instant := none
  roles : List RoleRow := []
  deriving DecidableEq

namespace Task

/-- A public task without role rows of which only what has to be known is known; it is named
after its type. -/
def bare (id type : String) (state : TaskState) (jurisdiction caseId caseType : String) : Task :=
  { id, name := type, type, state, jurisdiction, caseId, caseType }

/-- The task at another level of security. -/
def withClassification (t : Task) (classification : Classification) : Task :=
  { t with classification }

/-- The task with one more role row. -/
def withRole (t : Task) (row : RoleRow) : Task :=
  { t with roles := t.roles ++ [row] }

end Task

/-- What an overview shows of a task. -/
structure TaskSummary where
  /-- What tells the task from all others. -/
  id : String
  name : String
  /-- Where the task stands. -/
  state : TaskState
  caseId : String
  jurisdiction : String
  assignee : Option String
  /-- The first number by which the task is ranked. -/
  majorPriority : Option Int32
  /-- The date by which the task is ranked. -/
  priorityDate : Option Instant
  /-- The second number by which the task is ranked. -/
  minorPriority : Option Int32
  due : Option Instant
  deriving DecidableEq

def Task.summary (t : Task) : TaskSummary where
  id := t.id
  name := t.name
  state := t.state
  caseId := t.caseId
  jurisdiction := t.jurisdiction
  assignee := t.assignee
  majorPriority := t.majorPriority
  priorityDate := t.priorityDate
  minorPriority := t.minorPriority
  due := t.due

end Caseload
