import Caseload.Predicate.Basic
import Caseload.Sort.Order
import Caseload.Window

/-!
# Task stores

A store of tasks answers queries, counts tasks and lists role rows.  `TaskStore m` is such a store
whose answers come about in the monad `m`.  A query is a predicate with the order and the page in
which tasks are listed.  A task matches a predicate when one of its role rows satisfies it, and no
store gives a task twice.
-/

namespace Caseload

/-- What is asked of a store of tasks. -/
structure Query where
  predicate : Predicate
  order : SortOrder
  /-- Which page of them; all of them without one. -/
  page : Option Window

/-- What can be asked of a store of tasks. -/
structure TaskStore (m : Type → Type) where
  /-- The tasks that a query asks for, with all of their role rows. -/
  list : Query → m (List Task)
  count : Predicate → m Nat
  rows : Predicate → m (List RoleRow)

end Caseload
