import Caseload.Instant.Printer
import Caseload.Instant.Reader
import Caseload.Json.Record

/-!
# Instants in JSON

An instant is a text of its own in a JSON document.
-/

namespace Caseload.Instant

/-- The text of an instant as a JSON value. -/
def toJson (i : Instant) : Json :=
  .text i.toText

/-- The instant that a JSON text denotes. -/
def ofJson? : Json.Decoder Instant
  | .text s => ofText? s
  | _ => none

end Caseload.Instant
