import Caseload.Sql.Dialogue
import Caseload.Sql.Tables
import Caseload.Store.Basic

/-!
# Tasks in a database

A store that keeps its tasks in two tables of a database.  Everything it does is a session: the
statements it sends and how it goes on from what comes back.
-/

namespace Caseload

open Sql (Condition Limit OrderTerm Row Session Statement)

/-- The limit of a statement for a window, whose numbers have to be signed words. -/
def Window.toLimit (w : Window) : Except Error Limit :=
  if w.limit > maxSigned then .error .limitTooLarge
  else if w.offset > maxSigned then .error .offsetTooLarge
  else .ok ⟨Int64.ofNat w.limit, Int64.ofNat w.offset⟩

namespace DatabaseStore

/-- Reads all rows, or ends with the failure of the first one that cannot be read. -/
def readRows {α : Type} (stage : Stage) (read : Row → Except StatementFailure α)
    (rows : List Row) : Session (List α) :=
  match rows.mapM read with
  | .ok values => pure values
  | .error failure => throw (.statement stage failure)

/-- Saves the role rows of a task. -/
def saveRows (task : String) : List RoleRow → Session Unit
  | [] => pure ()
  | row :: rest => do
    Session.send (.saveRole row.role task) (.insertRow (row.cells task))
    saveRows task rest

/-- Saves a task in the place of the one with its id, together with its role rows. -/
def save (t : Task) : Session Unit := do
  Session.send .start .begin
  Session.send (.saveTask t.id) (.upsertTask t.cells)
  Session.send (.clearRoles t.id) (.deleteRows t.id)
  saveRows t.id t.roles
  Session.send (.commit t.id) .commit

/-- The role rows of some tasks, each with its task; nothing is sent for no task. -/
def loadRows : List String → Session (List (String × RoleRow))
  | [] => pure []
  | ids => do
    let rows ← Session.send .loadRoles (.loadRows ids)
    readRows .loadRoles RoleRow.ofRow rows

/-- The tasks that a query asks for. -/
def list (q : Query) : Session (List Task) := do
  let limit ← liftExcept (q.page.mapM Window.toLimit)
  let rows ← Session.send .listTasks
    (.listTasks (.ofPredicate q.predicate) (OrderTerm.ofOrder q.order) limit)
  let stored ← readRows .listTasks StoredTask.ofRow rows
  let roles ← loadRows (stored.map StoredTask.id)
  liftExcept (StoredTask.assemble roles stored)

def count (p : Predicate) : Session Nat := do
  let total : Int64 ← Session.send .countTasks (.countTasks (.ofPredicate p))
  if total.toInt < 0 then throw (.negativeCount total) else pure total.toInt.toNat

/-- The role rows that satisfy a predicate. -/
def rows (p : Predicate) : Session (List RoleRow) := do
  let rows ← Session.send .matchRoles (.matchRows (.ofPredicate p))
  let read ← readRows .matchRoles RoleRow.ofRow rows
  pure (read.map Prod.snd)

/-- The store as one that can be asked. -/
def toTaskStore : TaskStore Session where
  list := list
  count := count
  rows := rows

end DatabaseStore

end Caseload
