import Caseload.Access.Condition
import Caseload.Store.Basic

/-!
# Searching and looking up

What callers can do with a store of tasks.  Each operation asks the store for what the caller
sees, and asks nothing when the caller cannot see anything.
-/

namespace Caseload

/-- A page of what a search finds. -/
structure SearchResult (α : Type) where
  tasks : List α
  /-- How many tasks there are on all pages. -/
  total : Nat
  deriving DecidableEq

namespace SearchRequest

/-- The order in which a search lists tasks. -/
def taskOrder (r : SearchRequest) : SortOrder :=
  .compose r.sorting .taskDefault

/-- The order in which a search lists summaries. -/
def summaryOrder (r : SearchRequest) : SortOrder :=
  .compose r.sorting .summaryDefault

end SearchRequest

namespace TaskStore

variable {m : Type → Type} [Monad m] [MonadExcept Error m]

/-- A page of the tasks that match a predicate, and how many there are on all pages.  Where no
task can match, the store is not asked. -/
def listPage (store : TaskStore m) (p : Predicate) (order : SortOrder) (page : Window) :
    m (SearchResult Task) :=
  if p.isNever then
    pure ⟨[], 0⟩
  else do
    let total ← store.count p
    let tasks ← store.list ⟨p, order, some page⟩
    return ⟨tasks, total⟩

def search (store : TaskStore m) (c : Caller) (r : SearchRequest) (required : List Permission)
    (page : Window) : m (SearchResult Task) := do
  MonadExcept.ofExcept r.requireFilter
  store.listPage (c.searchCondition r required) r.taskOrder page

/-- Searches for tasks and gives their summaries. -/
def searchSummaries (store : TaskStore m) (c : Caller) (r : SearchRequest)
    (required : List Permission) (page : Window) : m (SearchResult TaskSummary) := do
  MonadExcept.ofExcept r.requireFilter
  let found ← store.listPage (c.searchCondition r required) r.summaryOrder page
  return ⟨found.tasks.map Task.summary, found.total⟩

/-- The task with an id, if the caller sees it by a row that allows what is required. -/
def get? (store : TaskStore m) (c : Caller) (id : String) (required : List Permission) :
    m (Option Task) :=
  let p := c.taskCondition id required
  if p.isNever then
    pure none
  else do
    let tasks ← store.list ⟨p, .taskDefault, some .single⟩
    return tasks.head?

/-- The open tasks of some types on a case that the caller may own and execute. -/
def completable (store : TaskStore m) (c : Caller) (caseId : String) (types : List String) :
    m (List Task) :=
  let p := c.completableCondition caseId types Permission.toComplete
  if p.isNever then pure [] else store.list ⟨p, .taskDefault, none⟩

/-- The role rows by which the caller sees a task. -/
def visibleRows (store : TaskStore m) (c : Caller) (id : String) : m (List RoleRow) :=
  let p := c.rowsCondition id
  if p.isNever then pure [] else store.rows p

end TaskStore

end Caseload
