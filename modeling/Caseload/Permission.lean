import Caseload.Error
import Caseload.Text.Blank

/-!
# Permissions

The ten things that a role row of a task can allow the holder of the role to do.
-/

namespace Caseload

/-- Something that a role row can allow. -/
inductive Permission
  | read
  | own
  | execute
  | manage
  | cancel
  | refer
  | claim
  | assign
  | unassign
  | complete
  deriving DecidableEq, Repr

namespace Permission

def all : List Permission :=
  [read, own, execute, manage, cancel, refer, claim, assign, unassign, complete]

/-- The stored name, which is also the name of the column. -/
def name : Permission → String
  | read => "read"
  | own => "own"
  | execute => "execute"
  | manage => "manage"
  | cancel => "cancel"
  | refer => "refer"
  | claim => "claim"
  | assign => "assign"
  | unassign => "unassign"
  | complete => "complete"

def ofName? (name : String) : Option Permission :=
  all.find? fun p => p.name = name

/-- Reads a permission; blanks around the name and the case of its letters do not matter. -/
def parse (value : String) : Except Error Permission :=
  match ofName? (Text.trim value).toLower with
  | some p => .ok p
  | none => .error (.unknownPermission value)

/-- The permissions of a list, each once and in their order. -/
def distinct (required : List Permission) : List Permission :=
  all.filter fun p => p ∈ required

/-- What a caller has to be allowed on a task to complete it. -/
def toComplete : List Permission :=
  [own, execute]

end Permission

end Caseload
