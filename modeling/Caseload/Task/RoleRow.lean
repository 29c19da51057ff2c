import Caseload.Json.Record
import Caseload.Permission

/-!
# Role rows

A task carries a row for each role that has to do with it.  The row says what holders of the role
may do with the task, and which authorisations they need to be let in by that row.
-/

namespace Caseload

/-- What a task allows the holders of a role. -/
structure RoleRow where
  role : String
  category : Option String := none
  read : Bool := false
  own : Bool := false
  execute : Bool := false
  manage : Bool := false
  cancel : Bool := false
  refer : Bool := false
  claim : Bool := false
  assign : Bool := false
  unassign : Bool := false
  complete : Bool := false
  /-- The authorisations of which one is needed; none or an empty list leave the row open. -/
  authorizations : Option (List String) := none
  deriving DecidableEq, Repr

namespace RoleRow

def grants (row : RoleRow) : Permission → Bool
  | .read => row.read
  | .own => row.own
  | .execute => row.execute
  | .manage => row.manage
  | .cancel => row.cancel
  | .refer => row.refer
  | .claim => row.claim
  | .assign => row.assign
  | .unassign => row.unassign
  | .complete => row.complete

/-- The row that also allows one thing. -/
def grant (row : RoleRow) : Permission → RoleRow
  | .read => { row with read := true }
  | .own => { row with own := true }
  | .execute => { row with execute := true }
  | .manage => { row with manage := true }
  | .cancel => { row with cancel := true }
  | .refer => { row with refer := true }
  | .claim => { row with claim := true }
  | .assign => { row with assign := true }
  | .unassign => { row with unassign := true }
  | .complete => { row with complete := true }

/-- The row that also allows some things. -/
def grantAll (row : RoleRow) (permissions : List Permission) : RoleRow :=
  permissions.foldl grant row

def isOpen (row : RoleRow) : Bool :=
  row.authorizations.all List.isEmpty

/-- Whether one of the held authorisations is among those that the row asks for. -/
def admits (row : RoleRow) (held : List String) : Bool :=
  row.authorizations.any fun asked => asked.any fun a => held.contains a

/-! ## In JSON -/

/-- The fields of the record, in order. -/
def fieldNames : List String :=
  ["role_name", "role_category", "read", "own", "execute", "manage", "cancel", "refer", "claim",
    "assign", "unassign", "complete", "authorizations"]

def toJson (row : RoleRow) : Json :=
  .ofEntries [
    ("role_name", .text row.role),
    ("role_category", .ofOption .text row.category),
    ("read", .bool row.read),
    ("own", .bool row.own),
    ("execute", .bool row.execute),
    ("manage", .bool row.manage),
    ("cancel", .bool row.cancel),
    ("refer", .bool row.refer),
    ("claim", .bool row.claim),
    ("assign", .bool row.assign),
    ("unassign", .bool row.unassign),
    ("complete", .bool row.complete),
    ("authorizations", .ofOption .ofTexts row.authorizations)]

/-- Reads a role row; only the name of the role has to be given. -/
def ofJson? (v : Json) : Option RoleRow := do
  let fields ← Json.Record.ofJson? fieldNames v
  return {
    role := ← fields.required? "role_name" Json.text?
    category := ← fields.optional? "role_category" Json.text?
    read := ← fields.withDefault? "read" false Json.bool?
    own := ← fields.withDefault? "own" false Json.bool?
    execute := ← fields.withDefault? "execute" false Json.bool?
    manage := ← fields.withDefault? "manage" false Json.bool?
    cancel := ← fields.withDefault? "cancel" false Json.bool?
    refer := ← fields.withDefault? "refer" false Json.bool?
    claim := ← fields.withDefault? "claim" false Json.bool?
    assign := ← fields.withDefault? "assign" false Json.bool?
    unassign := ← fields.withDefault? "unassign" false Json.bool?
    complete := ← fields.withDefault? "complete" false Json.bool?
    authorizations := ← fields.optional? "authorizations" Json.texts? }

end RoleRow

end Caseload
