import Caseload.Permission

/-!
# Predicates

A predicate is a condition on a task together with one of its role rows.  A task satisfies it
when one row satisfies the whole of it.  `Predicate.fold` joins conditions and drops what does not
matter: constants disappear or decide, and groups of the same kind are opened up.
-/

namespace Caseload

/-- How the parts of a group are joined. -/
inductive Connective
  /-- Every part has to hold. -/
  | conjunction
  /-- Some part has to hold. -/
  | disjunction
  deriving DecidableEq, Repr

namespace Connective

/-- The value of a group without parts, which does not matter as a part. -/
def unit : Connective → Bool
  | conjunction => true
  | disjunction => false

end Connective

/-- A text of a task or of a role row that a predicate can look at. -/
inductive Field
  | taskId
  | taskType
  | state
  | jurisdiction
  | region
  | location
  | caseId
  | caseType
  | assignee
  | workType
  /-- The category of the roles that deal with the task. -/
  | roleCategory
  /-- How guarded the task is. -/
  | classification
  | roleName
  deriving DecidableEq, Repr

namespace Field

def column : Field → String
  | taskId => "task_id"
  | taskType => "task_type"
  | state => "state"
  | jurisdiction => "jurisdiction"
  | region => "region"
  | location => "location"
  | caseId => "case_id"
  | caseType => "case_type_id"
  | assignee => "assignee"
  | workType => "work_type"
  | roleCategory => "role_category"
  | classification => "security_classification"
  | roleName => "role_name"

/-- Whether the field belongs to the role row. -/
def ofRow : Field → Bool
  | roleName => true
  | _ => false

end Field

/-- A condition on a task and one of its role rows. -/
inductive Predicate
  | constant (value : Bool)
  /-- Holds as its parts do. -/
  | group (connective : Connective) (parts : List Predicate)
  | equals (field : Field) (value : String)
  | oneOf (field : Field) (values : List String)
  | rowOpen
  /-- The role row asks for one of these authorisations. -/
  | rowAdmits (held : List String)
  | granted (permission : Permission)

namespace Predicate

/-- The parts that matter in a group, or `none` if some part decides the group. -/
def relevant? (c : Connective) : List Predicate → Option (List Predicate)
  | [] => some []
  | .constant b :: rest => if b = c.unit then relevant? c rest else none
  | .group d parts :: rest =>
    if d = c then (relevant? c rest).map (parts ++ ·)
    else (relevant? c rest).map (.group d parts :: ·)
  | p :: rest => (relevant? c rest).map (p :: ·)

/-- The group of some parts: a single part stands for itself. -/
def ofParts (c : Connective) : List Predicate → Predicate
  | [] => .constant c.unit
  | [p] => p
  | parts => .group c parts

/-- Joins conditions, dropping what does not matter. -/
def fold (c : Connective) (parts : List Predicate) : Predicate :=
  match relevant? c parts with
  | none => .constant !c.unit
  | some parts => ofParts c parts

/-- The condition that all of these hold. -/
def all (parts : List Predicate) : Predicate :=
  fold .conjunction parts

/-- The condition that one of these holds. -/
def any (parts : List Predicate) : Predicate :=
  fold .disjunction parts

/-- The condition that a field has one of these values; without values it never holds. -/
def member (field : Field) (values : List String) : Predicate :=
  if values.isEmpty then .constant false else .oneOf field values

/-- The condition that a field has an accepted value; without values everything is accepted. -/
def accepts (field : Field) : List String → Predicate
  | [] => .constant true
  | [value] => .equals field value
  | values => .oneOf field values

/-- Whether the condition is the one that never holds. -/
def isNever : Predicate → Bool
  | .constant false => true
  | _ => false

end Predicate

end Caseload
