import Caseload.Predicate.Basic
import Caseload.SearchRequest.Basic

/-!
# Filters

What a search request asks of a task, as a predicate.  Each list of accepted values is one part of
it, and an empty list is none.
-/

namespace Caseload

/-- The condition that a task has an accepted value in everything that the request filters. -/
def SearchRequest.filters (r : SearchRequest) : Predicate :=
  .all [
    .accepts .jurisdiction r.jurisdictions,
    .accepts .state (r.states.map TaskState.name),
    .accepts .location r.locations,
    .accepts .region r.regions,
    .accepts .caseId r.caseIds,
    .accepts .assignee r.users,
    .accepts .workType r.workTypes,
    .accepts .roleCategory r.roleCategories,
    .accepts .taskType r.taskTypes,
    .accepts .taskId r.taskIds]

end Caseload
