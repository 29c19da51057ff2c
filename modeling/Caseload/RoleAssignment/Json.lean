import Caseload.Instant.Json
import Caseload.RoleAssignment.Basic

/-!
# Role assignments in JSON

A role assignment is a record.  Only the actor, the scope, the role and the grant have to be
given, and a classification that is none is read as the most open one.
-/

namespace Caseload

namespace RoleScope

/-- The name of a scope as a JSON value. -/
def toJson (s : RoleScope) : Json :=
  .text s.name

def ofJson? : Json.Decoder RoleScope :=
  Json.choice? (all.map fun s => (s.name, s))

end RoleScope

namespace Grant

/-- The name of a grant as a JSON value. -/
def toJson (g : Grant) : Json :=
  .text g.name

def ofJson? : Json.Decoder Grant :=
  Json.choice? (all.map fun g => (g.name, g))

end Grant

namespace RoleAssignment

/-- The fields of the record, in order. -/
def fieldNames : List String :=
  ["actorId", "roleType", "roleName", "classification", "grantType", "roleCategory",
    "authorisations", "attributes", "beginTime", "endTime"]

def toJson (r : RoleAssignment) : Json :=
  .ofEntries [
    ("actorId", .text r.actor),
    ("roleType", r.scope.toJson),
    ("roleName", .text r.role),
    ("classification", r.classification.toJson),
    ("grantType", r.grant.toJson),
    ("roleCategory", .ofOption .text r.category),
    ("authorisations", .ofOption (fun held => .ofTexts held.toList) r.authorisations),
    ("attributes", .ofEntries (r.attributes.toList.map fun (key, v) => (key, .text v))),
    ("beginTime", .ofOption Instant.toJson r.begins),
    ("endTime", .ofOption Instant.toJson r.ends)]

def ofJson? (v : Json) : Option RoleAssignment := do
  let fields ← Json.Record.ofJson? fieldNames v
  return {
    actor := ← fields.required? "actorId" Json.text?
    scope := ← fields.required? "roleType" RoleScope.ofJson?
    role := ← fields.required? "roleName" Json.text?
    classification := ←
      fields.withDefault? "classification" .publicLevel Classification.ofRoleJson?
    grant := ← fields.required? "grantType" Grant.ofJson?
    category := ← fields.optional? "roleCategory" Json.text?
    authorisations := ←
      fields.optional? "authorisations" fun v => (Json.texts? v).map fun held => .ofList held
    attributes := ←
      fields.withDefault? "attributes" ∅ fun v =>
        (Json.entries? Json.text? v).map fun entries => .ofList entries
    begins := ← fields.optional? "beginTime" Instant.ofJson?
    ends := ← fields.optional? "endTime" Instant.ofJson? }

end RoleAssignment

end Caseload
