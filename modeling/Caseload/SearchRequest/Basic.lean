import Caseload.Sort.Field
import Caseload.Task.State

/-!
# Search requests

A search request lists accepted values for ten things by which tasks can be told apart.  An empty
list accepts everything, but a request of empty lists only is refused.
-/

namespace Caseload

/-- What a search asks for. -/
structure SearchRequest where
  jurisdictions : List String := []
  states : List TaskState := []
  locations : List String := []
  regions : List String := []
  caseIds : List String := []
  users : List String := []
  workTypes : List String := []
  roleCategories : List String := []
  taskTypes : List String := []
  taskIds : List String := []
  sorting : List SortInstruction := []
  deriving DecidableEq, Repr

namespace SearchRequest

/-- Whether at least one list has a value. -/
def hasFilter (r : SearchRequest) : Bool :=
  !(r.jurisdictions.isEmpty && r.states.isEmpty && r.locations.isEmpty && r.regions.isEmpty &&
    r.caseIds.isEmpty && r.users.isEmpty && r.workTypes.isEmpty && r.roleCategories.isEmpty &&
    r.taskTypes.isEmpty && r.taskIds.isEmpty)

/-- Refuses a request that would find everything. -/
def requireFilter (r : SearchRequest) : Except Error Unit :=
  if r.hasFilter then .ok () else .error .noFilter

end SearchRequest

end Caseload
