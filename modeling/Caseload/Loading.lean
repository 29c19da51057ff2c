import Caseload.Json.Reader
import Caseload.RoleAssignment.Json
import Caseload.SearchRequest.Payload
import Caseload.Task.Json

/-!
# Loading files

Search requests, role assignments and tasks are kept in files, each of which holds one JSON
document.  The content of a file is `none` when it cannot be read as text; why it cannot, and where
a text goes wrong, is not kept.
-/

namespace Caseload.Loading

/-- Reads the content of a file that is labelled for error messages. -/
def load {α : Type} (label path : String) (decode : Json.Decoder α) (content : Option String) :
    Except Error α :=
  match content with
  | none => .error (.unreadable label path)
  | some text =>
    match (Json.read? text).bind decode with
    | none => .error (.malformed label path)
    | some a => .ok a

def request (path : String) (content : Option String) : Except Error SearchRequest := do
  SearchRequest.ofPayload (← load "search request" path SearchPayload.ofJson? content)

def roles (path : String) (content : Option String) : Except Error (List RoleAssignment) :=
  load "role assignments" path (Json.list? RoleAssignment.ofJson?) content

def tasks (path : String) (content : Option String) : Except Error (List Task) :=
  load "task fixtures" path (Json.list? Task.ofJson?) content

end Caseload.Loading
