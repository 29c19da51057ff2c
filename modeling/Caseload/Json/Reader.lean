import Caseload.Json.Token

/-!
# Reading JSON documents

`Json.read?` reads a document that holds one value and nothing else.  What is open while a token
is read is kept on a stack, so values may be nested to any depth.
-/

namespace Caseload.Json

/-- A value that is open: the parts before the one under way, last one first. -/
inductive Frame
  /-- A list. -/
  | array (before : List Json)
  /-- An object, and the key of the entry under way. -/
  | object (before : List (Option String × Json)) (key : Option String)

/-- What may come next, and what is open around it, innermost first. -/
inductive Reading
  /-- A value. -/
  | value (stack : List Frame)
  /-- The first item of a list, or its end. -/
  | items (stack : List Frame)
  /-- The first entry of an object, or its end. -/
  | entries (stack : List Frame)
  /-- The key of a further entry. -/
  | key (before : List (Option String × Json)) (stack : List Frame)
  /-- The colon after a key. -/
  | colon (before : List (Option String × Json)) (key : Option String) (stack : List Frame)
  /-- Whatever may follow a complete value. -/
  | after (value : Json) (stack : List Frame)

namespace Reading

/-- Reads a token where a value has to start. -/
def start (stack : List Frame) : Token → Option Reading
  | .openArray => some (items stack)
  | .openObject => some (entries stack)
  | .atom v => some (after v stack)
  | _ => none

/-- Reads a token where a key has to stand. -/
def startKey (before : List (Option String × Json)) (stack : List Frame) :
    Token → Option Reading
  | .atom (.text k) => some (colon before (some k) stack)
  | .atom .unpaired => some (colon before none stack)
  | _ => none

def step : Reading → Token → Option Reading
  | value stack, token => start stack token
  | items stack, .closeArray => some (after (.array []) stack)
  | items stack, token => start (.array [] :: stack) token
  | entries stack, .closeObject => some (after (.object []) stack)
  | entries stack, token => startKey [] stack token
  | key before stack, token => startKey before stack token
  | colon before k stack, .colon => some (value (.object before k :: stack))
  | after v (.array before :: stack), .comma => some (value (.array (v :: before) :: stack))
  | after v (.array before :: stack), .closeArray =>
    some (after (.array (v :: before).reverse) stack)
  | after v (.object before k :: stack), .comma => some (key ((k, v) :: before) stack)
  | after v (.object before k :: stack), .closeObject =>
    some (after (.object ((k, v) :: before).reverse) stack)
  | _, _ => none

/-- The value of a document that ends here. -/
def finish : Reading → Option Json
  | after v [] => some v
  | _ => none

def run (reading : Reading) : List Token → Option Json
  | [] => reading.finish
  | token :: rest =>
    match reading.step token with
    | none => none
    | some reading => run reading rest

end Reading

/-- The value of a document, unless the document is not exactly one JSON value. -/
def read? (document : String) : Option Json := do
  Reading.run (.value []) (← tokens? document)

end Caseload.Json
