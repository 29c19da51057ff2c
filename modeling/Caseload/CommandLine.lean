import Caseload.Json.Printer
import Caseload.Loading
import Caseload.Search
import Caseload.Settings
import Caseload.Signature
import Caseload.Store.Memory

/-!
# The command line

The program searches once: it reads its settings, the tasks, the search request and the role
assignments, and prints a page of what is found.  The first thing that is wrong ends it, and then
it prints nothing.
-/

namespace Caseload.CommandLine

/-- What is printed of a search: the page, the number of tasks and the signatures of the
request. -/
def document (tasks : List Json) (total : Nat) (signatures : TextSet) : Json :=
  .ofEntries [
    ("tasks", .array tasks),
    ("total_records", .integer total),
    ("filter_signatures", .ofTexts signatures.toList)]

/-- Searches a store and gives what is to be printed. -/
def render (store : TaskStore (Except Error)) (view : View) (c : Caller) (r : SearchRequest)
    (required : List Permission) (page : Window) : Except Error String := do
  let output ←
    match view with
    | .tasks => do
      let found ← store.search c r required page
      pure (document (found.tasks.map Task.toJson) found.total r.signatures)
    | .summaries => do
      let found ← store.searchSummaries c r required page
      pure (document (found.tasks.map TaskSummary.toJson) found.total r.signatures)
  return output.pretty ++ "\n"

section

variable {m : Type → Type} [Monad m]

/-- The tasks of the store that is set up.  Only tasks in memory can be had: there is no
connection to a database. -/
def openStore (contentOf : String → m (Option String)) : StoreSetting → ExceptT Error m MemoryStore
  | .memory none => pure .empty
  | .memory (some path) => do
    return .ofList (← liftExcept (Loading.tasks path (← contentOf path)))
  | .database _ => throw .unreachableDatabase

def search (env : Environment) (contentOf : String → m (Option String)) (now : Instant) :
    ExceptT Error m String := do
  let settings ← liftExcept (Settings.load env)
  let store ← openStore contentOf settings.store
  let request ←
    liftExcept (Loading.request settings.requestPath (← contentOf settings.requestPath))
  let roles ← liftExcept (Loading.roles settings.rolesPath (← contentOf settings.rolesPath))
  let page ← liftExcept (Window.ofRequest settings.offset settings.limit)
  liftExcept (render store.toTaskStore settings.view ⟨roles, now⟩ request settings.permissions page)

/-- Prepares the database, which needs its address and a connection to it. -/
def migrate (env : Environment) : ExceptT Error m String := do
  let _ ← liftExcept (env.required Settings.databaseUrl)
  throw .unreachableDatabase

/-- Runs the program and gives what it prints. -/
def run (env : Environment) (contentOf : String → m (Option String)) (now : Instant)
    (arguments : List String) : ExceptT Error m String :=
  if arguments.head? = some "migrate" then migrate env else search env contentOf now

end

/-- What is left of a run: what it prints, and its exit code. -/
structure Exit where
  output : String
  code : UInt32
  deriving DecidableEq

/-- A run that goes well prints its result; any other one prints nothing. -/
def exit : Except Error String → Exit
  | .ok output => ⟨output, 0⟩
  | .error _ => ⟨"", 1⟩

end Caseload.CommandLine
