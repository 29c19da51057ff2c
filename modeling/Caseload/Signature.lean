import Caseload.SearchRequest.Basic
import Caseload.Text.Blank
import Caseload.Text.Set

/-!
# Filter signatures

The signatures of a search request are keys under which its results can be kept.  A signature has
a value for each of state, jurisdiction, role category, work type, region and location, with a
star where the request accepts everything, and a request has one for every choice of accepted
values.  Neither the order of values nor repetitions matter, and blanks around a value only in that
a well-known role category is abbreviated only when it is given without them.
-/

namespace Caseload

/-- The value of a dimension that accepts everything. -/
def wildcard : String :=
  "*"

/-- The letter for a state; only open states are told apart. -/
def TaskState.signature? : TaskState → Option String
  | assigned => some "A"
  | unassigned => some "U"
  | _ => none

/-- The letter for a well-known role category, and any other category as it is. -/
def roleCategorySignature (category : String) : String :=
  match category with
  | "JUDICIAL" => "J"
  | "LEGAL_OPERATIONS" => "L"
  | "ADMIN" => "A"
  | "UNKNOWN" => "U"
  | other => other

/-- The accepted values of a dimension, trimmed, or the star when there are none. -/
def dimension (values : List String) : TextSet :=
  match Text.nonBlanks values with
  | [] => .ofList [wildcard]
  | values => .ofList values

/-- Goes on from each beginning with each value of a dimension, after a colon; the empty text is the
beginning at which nothing is chosen yet. -/
def extendChoices (begun : List String) (d : TextSet) : List String :=
  begun.flatMap fun front =>
    d.toList.map fun v => if front = "" then v else front ++ ":" ++ v

/-- Every choice of one value from each dimension, joined by colons. -/
def choices (ds : List TextSet) : List String :=
  ds.foldl extendChoices [""]

namespace SearchRequest

def dimensions (r : SearchRequest) : List TextSet :=
  [dimension (r.states.filterMap TaskState.signature?),
    dimension r.jurisdictions,
    dimension (r.roleCategories.map roleCategorySignature),
    dimension r.workTypes,
    dimension r.regions,
    dimension r.locations]

def signatures (r : SearchRequest) : TextSet :=
  .ofList (choices r.dimensions)

end SearchRequest

end Caseload
