import Caseload.Error
import Caseload.Json.Record
import Caseload.Text.Blank

/-!
# Task states

Where a task stands between its creation and its end.
-/

namespace Caseload

/-- The state of a task. -/
inductive TaskState
  /-- Created, and no more. -/
  | unconfigured
  /-- Waiting to be assigned without anyone's doing. -/
  | pendingAutoAssign
  /-- Assigned to someone. -/
  | assigned
  /-- Configured, and not yet routed. -/
  | configured
  /-- Open for anyone who may take it. -/
  | unassigned
  /-- Completed by the one who had it. -/
  | completed
  /-- Cancelled. -/
  | cancelled
  /-- Taken out of the pool. -/
  | terminated
  /-- Waiting for its attributes to be looked at again. -/
  | pendingReconfiguration
  deriving DecidableEq, Repr

namespace TaskState

def all : List TaskState :=
  [unconfigured, pendingAutoAssign, assigned, configured, unassigned, completed, cancelled,
    terminated, pendingReconfiguration]

/-- The states in which a task can be completed. -/
def completable : List TaskState :=
  [assigned, unassigned]

def name : TaskState → String
  | unconfigured => "UNCONFIGURED"
  | pendingAutoAssign => "PENDING_AUTO_ASSIGN"
  | assigned => "ASSIGNED"
  | configured => "CONFIGURED"
  | unassigned => "UNASSIGNED"
  | completed => "COMPLETED"
  | cancelled => "CANCELLED"
  | terminated => "TERMINATED"
  | pendingReconfiguration => "PENDING_RECONFIGURATION"

def ofName? (name : String) : Option TaskState :=
  all.find? fun s => s.name = name

/-- The state that a text names; blanks around the name and the case of its letters do not
matter. -/
def ofText? (value : String) : Option TaskState :=
  ofName? (Text.trim value).toUpper

/-- Reads a state, or says which text names none. -/
def parse (value : String) : Except Error TaskState :=
  match ofText? value with
  | some s => .ok s
  | none => .error (.unknownState value)

/-- The name of a state as a JSON value. -/
def toJson (s : TaskState) : Json :=
  .text s.name

/-- Reads a state by its stored name. -/
def ofJson? : Json.Decoder TaskState :=
  Json.choice? (all.map fun s => (s.name, s))

end TaskState

end Caseload
