import Caseload.Access.Visibility
import Caseload.SearchRequest.Filters

/-!
# Conditions of access

Everything that a caller can ask for becomes a predicate, which joins what is asked for with what
the caller sees.
-/

namespace Caseload

namespace Caller

def searchCondition (c : Caller) (r : SearchRequest) (required : List Permission) : Predicate :=
  .all [r.filters, c.visibility required]

/-- One task, if the caller sees it. -/
def taskCondition (c : Caller) (id : String) (required : List Permission) : Predicate :=
  .all [.equals .taskId id, c.visibility required]

/-- The tasks of some types on a case that can be completed and that the caller sees. -/
def completableCondition (c : Caller) (caseId : String) (types : List String)
    (required : List Permission) : Predicate :=
  .all [
    .equals .caseId caseId,
    .member .state (TaskState.completable.map TaskState.name),
    .member .taskType types,
    c.visibility required]

/-- The rows of a task by which the caller sees it, whatever they allow. -/
def rowsCondition (c : Caller) (id : String) : Predicate :=
  c.taskCondition id []

end Caller

end Caseload
