import Caseload.Classification
import Caseload.Instant.Basic
import Caseload.Text.Set

/-!
# Role assignments

A role assignment gives an actor a role.  Its grant says how the role is matched with tasks, its
attributes limit it to tasks of a place or a case, its authorisations open guarded role rows to
it, and it may hold for a time only.
-/

namespace Caseload

/-- Where a role was given. -/
inductive RoleScope
  /-- In an organisation, as to a judge. -/
  | organisation
  /-- On one case. -/
  | case
  deriving DecidableEq, Repr

namespace RoleScope

def all : List RoleScope :=
  [organisation, case]

def name : RoleScope → String
  | organisation => "ORGANISATION"
  | case => "CASE"

end RoleScope

/-- How a role is matched with tasks. -/
inductive Grant
  /-- Access to unguarded rows, as a baseline. -/
  | basic
  /-- Access to unguarded rows of one case. -/
  | specific
  /-- Access to unguarded rows, as an organisation gives it. -/
  | standard
  /-- Access to unguarded rows and to those whose authorisations the role holds. -/
  | challenged
  /-- Access bound by the case alone. -/
  | excluded
  deriving DecidableEq, Repr

/-- Grants that are matched in the same way. -/
inductive GrantFamily
  /-- Basic and specific grants. -/
  | basicOrSpecific
  /-- Standard and challenged grants. -/
  | standardOrChallenged
  /-- Excluded grants. -/
  | excluded
  deriving DecidableEq, Repr

namespace GrantFamily

/-- All families, in the order in which their roles are matched. -/
def all : List GrantFamily :=
  [basicOrSpecific, standardOrChallenged, excluded]

end GrantFamily

namespace Grant

def all : List Grant :=
  [basic, specific, standard, challenged, excluded]

def name : Grant → String
  | basic => "BASIC"
  | specific => "SPECIFIC"
  | standard => "STANDARD"
  | challenged => "CHALLENGED"
  | excluded => "EXCLUDED"

def family : Grant → GrantFamily
  | basic | specific => .basicOrSpecific
  | standard | challenged => .standardOrChallenged
  | excluded => .excluded

end Grant

/-- The attributes by which a role can be limited. -/
inductive Attribute
  /-- To one jurisdiction. -/
  | jurisdiction
  /-- To one case. -/
  | caseId
  /-- To one type of case. -/
  | caseType
  /-- To one region. -/
  | region
  /-- To one location. -/
  | baseLocation
  deriving DecidableEq, Repr

namespace Attribute

/-- The key under which the attribute is kept. -/
def key : Attribute → String
  | jurisdiction => "jurisdiction"
  | caseId => "caseId"
  | caseType => "caseType"
  | region => "region"
  | baseLocation => "baseLocation"

end Attribute

/-- A role that an actor holds. -/
structure RoleAssignment where
  /-- The actor who holds the role. -/
  actor : String
  /-- Where the role was given. -/
  scope : RoleScope
  /-- The name of the role, as role rows have it. -/
  role : String
  /-- The most guarded level that the role sees. -/
  classification : Classification := .publicLevel
  /-- How the role is matched with tasks. -/
  grant : Grant
  /-- The category of the role. -/
  category : Option String := none
  /-- The authorisations that the role holds. -/
  authorisations : Option TextSet := none
  /-- The limits of the role, by key. -/
  attributes : TextMap := ∅
  /-- The role holds after this instant only. -/
  begins : Option Instant := none
  /-- The role holds before this instant only. -/
  ends : Option Instant := none
  deriving DecidableEq

namespace RoleAssignment

/-- What an attribute limits the role to; an attribute of blanks is no limit. -/
def attribute? (r : RoleAssignment) (a : Attribute) : Option String :=
  r.attributes[a.key]?.bind Text.nonBlank?

/-- The authorisations that the role holds, trimmed and without those of blanks only. -/
def heldAuthorisations (r : RoleAssignment) : List String :=
  match r.authorisations with
  | none => []
  | some held => Text.nonBlanks held.toList

/-- The role holds at this instant: after its beginning, and before its end. -/
def isActive (now : Instant) (r : RoleAssignment) : Bool :=
  r.begins.all (· < now) && r.ends.all (now < ·)

end RoleAssignment

end Caseload
