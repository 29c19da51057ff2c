import Caseload.Predicate.Basic
import Caseload.Task.Basic

/-!
# Matching tasks with predicates

What a predicate says of a task and a role row.  A field that the task lacks has no value, so it
neither equals a value nor is among some.
-/

namespace Caseload

def Field.value? (t : Task) (row : RoleRow) : Field → Option String
  | taskId => some t.id
  | taskType => some t.type
  | state => some t.state.name
  | jurisdiction => some t.jurisdiction
  | region => t.region
  | location => t.location
  | caseId => some t.caseId
  | caseType => some t.caseType
  | assignee => t.assignee
  | workType => t.workType
  | roleCategory => t.roleCategory
  | classification => some t.classification.name
  | roleName => some row.role

namespace Predicate

mutual

/-- Whether the condition holds of a task and one of its role rows. -/
def holds (t : Task) (row : RoleRow) : Predicate → Bool
  | .constant value => value
  | .group .conjunction parts => holdsAll t row parts
  | .group .disjunction parts => holdsAny t row parts
  | .equals field value => field.value? t row = some value
  | .oneOf field values => (field.value? t row).any values.contains
  | .rowOpen => row.isOpen
  | .rowAdmits held => row.admits held
  | .granted permission => row.grants permission

def holdsAll (t : Task) (row : RoleRow) : List Predicate → Bool
  | [] => true
  | p :: rest => holds t row p && holdsAll t row rest

def holdsAny (t : Task) (row : RoleRow) : List Predicate → Bool
  | [] => false
  | p :: rest => holds t row p || holdsAny t row rest

end

/-- Whether one of the task's role rows satisfies the condition. -/
def matchesTask (p : Predicate) (t : Task) : Bool :=
  t.roles.any fun row => p.holds t row

/-- The role rows of a task that satisfy the condition. -/
def matchingRows (p : Predicate) (t : Task) : List RoleRow :=
  t.roles.filter fun row => p.holds t row

end Predicate

end Caseload
