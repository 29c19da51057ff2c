import Caseload.Permission
import Caseload.Text.Entries
import Caseload.Text.Integer

/-!
# Settings

The program is set up by variables of its environment.  Blanks around a value do not count, and a
variable of blanks is as good as none.  `Settings.load` looks at one variable after the other and
stops at the first that is wrong.
-/

namespace Caseload

abbrev Environment :=
  String → Option String

namespace Environment

/-- The value of a variable, if there is one. -/
def optional (env : Environment) (name : String) : Option String :=
  (env name).bind Text.nonBlank?

/-- The value of a variable that has to be given. -/
def required (env : Environment) (name : String) : Except Error String :=
  match env.optional name with
  | some value => .ok value
  | none => .error (.missingSetting name)

/-- The value of a variable that holds an integer, or `default` if it is not given. -/
def integer (env : Environment) (name : String) (default : Int64) : Except Error Int64 :=
  match env.optional name with
  | none => .ok default
  | some value => (Text.parseInt64 value).mapError (.invalidInteger name)

end Environment

/-- Where the tasks are. -/
inductive StoreSetting
  /-- In memory, read from a file if there is one. -/
  | memory (tasksPath : Option String)
  /-- In the database at an address. -/
  | database (url : String)
  deriving DecidableEq, Repr

/-- What is shown of the tasks that are found. -/
inductive View
  /-- All of them. -/
  | tasks
  /-- Their summaries. -/
  | summaries
  deriving DecidableEq, Repr

namespace View

def name : View → String
  | tasks => "tasks"
  | summaries => "summaries"

/-- Reads a view; blanks around the name and the case of its letters do not matter. -/
def parse (value : String) : Except Error View :=
  match (Text.trim value).toLower with
  | "tasks" => .ok tasks
  | "summaries" => .ok summaries
  | other => .error (.unknownView other)

end View

/-- How the program is set up. -/
structure Settings where
  /-- Where the tasks are. -/
  store : StoreSetting
  /-- The file of the search request. -/
  requestPath : String
  /-- The file of the role assignments. -/
  rolesPath : String
  /-- How many tasks come before the page. -/
  offset : Int64
  /-- How many tasks the page has room for. -/
  limit : Int64
  /-- The permissions that are required. -/
  permissions : List Permission
  /-- What is shown. -/
  view : View
  deriving DecidableEq

namespace Settings

/-- The name of the variable that holds the address of the database. -/
def databaseUrl : String :=
  "DATABASE_URL"

/-- The variables that the program looks at. -/
def variableNames : List String :=
  ["TASK_STORE", "TASK_FIXTURE_PATH", databaseUrl, "SEARCH_OFFSET", "SEARCH_LIMIT",
    "SEARCH_PERMISSIONS", "SEARCH_VIEW", "SEARCH_REQUEST_PATH", "ROLE_ASSIGNMENTS_PATH"]

/-- Reads where the tasks are: in memory unless something else is asked for. -/
def loadStore (env : Environment) : Except Error StoreSetting :=
  match ((env.optional "TASK_STORE").getD "memory").toLower with
  | "memory" => .ok (.memory (env.optional "TASK_FIXTURE_PATH"))
  | "postgres" => do return .database (← env.required databaseUrl)
  | other => .error (.unknownStore other)

/-- Reads permissions between commas; there has to be one. -/
def parsePermissions (value : String) : Except Error (List Permission) := do
  match ← (Text.entries value).mapM Permission.parse with
  | [] => .error .noPermission
  | permissions => .ok permissions

/-- Reads the permissions that are required: viewing, unless something else is asked for. -/
def loadPermissions (env : Environment) : Except Error (List Permission) :=
  match env.optional "SEARCH_PERMISSIONS" with
  | none => .ok [.read]
  | some value => parsePermissions value

/-- Reads what is shown: all of the tasks, unless something else is asked for. -/
def loadView (env : Environment) : Except Error View :=
  match env.optional "SEARCH_VIEW" with
  | none => .ok .tasks
  | some value => View.parse value

def load (env : Environment) : Except Error Settings := do
  let store ← loadStore env
  let offset ← env.integer "SEARCH_OFFSET" 0
  let limit ← env.integer "SEARCH_LIMIT" 25
  let permissions ← loadPermissions env
  let view ← loadView env
  let requestPath ← env.required "SEARCH_REQUEST_PATH"
  let rolesPath ← env.required "ROLE_ASSIGNMENTS_PATH"
  return { store, requestPath, rolesPath, offset, limit, permissions, view }

end Settings

end Caseload
