import Caseload.Predicate.Basic
import Caseload.RoleAssignment.Basic

/-!
# Visibility

What a caller sees depends on the role assignments that are active at the time of asking.  Each of
them makes a condition on a task and a role row, and one that holds is enough.  Permissions are
read from the same row.
-/

namespace Caseload

/-- Someone who asks: the roles they hold, and when they ask. -/
structure Caller where
  /-- The role assignments of the caller. -/
  roles : List RoleAssignment
  /-- The time of asking. -/
  now : Instant
  deriving DecidableEq

namespace RoleAssignment

/-- The condition that an attribute of the role, if it is a limit, makes on a field. -/
def attributeCondition (r : RoleAssignment) (a : Attribute) (field : Field) : Predicate :=
  match r.attribute? a with
  | none => .constant true
  | some value => .equals field value

/-- The attributes that limit a role, with the fields that they are about. -/
def limits : List (Attribute × Field) :=
  [(.caseType, .caseType), (.region, .region), (.jurisdiction, .jurisdiction),
    (.baseLocation, .location), (.caseId, .caseId)]

/-- The condition that all attributes of the role make. -/
def attributesCondition (r : RoleAssignment) : Predicate :=
  .all (limits.map fun (a, field) => r.attributeCondition a field)

/-- The condition that the row is about this role. -/
def nameCondition (r : RoleAssignment) : Predicate :=
  .equals .roleName r.role

/-- The condition that the task is not more guarded than the role may see. -/
def classificationCondition (r : RoleAssignment) : Predicate :=
  .member .classification (r.classification.visible.map Classification.name)

/-- The condition on the authorisations that the row asks for.  Only a challenged role gets
beyond open rows, by the authorisations it holds. -/
def authorisationCondition (r : RoleAssignment) : Predicate :=
  if r.grant = .challenged then
    match r.heldAuthorisations with
    | [] => .rowOpen
    | held => .any [.rowOpen, .rowAdmits held]
  else
    .rowOpen

/-- The condition under which the role sees a task by a row. -/
def condition (r : RoleAssignment) : Predicate :=
  match r.grant.family with
  | .basicOrSpecific =>
    .all [r.nameCondition, r.classificationCondition, r.attributesCondition, .rowOpen]
  | .standardOrChallenged =>
    .all [r.nameCondition, r.classificationCondition, r.attributesCondition,
      r.authorisationCondition]
  | .excluded =>
    .all [r.nameCondition, r.classificationCondition, r.attributeCondition .caseId .caseId]

end RoleAssignment

/-- The condition that a row allows everything that is required. -/
def Permission.condition (required : List Permission) : Predicate :=
  .all ((distinct required).map .granted)

namespace Caller

/-- The roles that are active at the time of asking. -/
def activeRoles (c : Caller) : List RoleAssignment :=
  c.roles.filter (·.isActive c.now)

/-- The condition that one of the active roles sees the task by the row, family by family. -/
def roleCondition (c : Caller) : Predicate :=
  .any (GrantFamily.all.map fun family =>
    .any ((c.activeRoles.filter (·.grant.family = family)).map RoleAssignment.condition))

/-- The condition that the caller sees the task by a row that allows what is required.  Without
an active role it never holds. -/
def visibility (c : Caller) (required : List Permission) : Predicate :=
  .all [c.roleCondition, Permission.condition required]

end Caller

end Caseload
