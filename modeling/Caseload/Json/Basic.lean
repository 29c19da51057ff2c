/-!
# JSON values

The values of a JSON document, as close to the text as a reader of records needs them: objects
keep every entry in order, repeated keys included, and numbers that are not plain integers keep
their spelling.
-/

namespace Caseload

/-- A JSON value. -/
inductive Json
  | null
  | bool (value : Bool)
  /-- A number written as an integer: no fraction, no exponent, and no minus before zero. -/
  | integer (value : Int)
  /-- Any other number, as it is spelled. -/
  | decimal (spelling : String)
  | text (value : String)
  /-- A string in which one half of a surrogate pair is escaped alone, so that it is no text. -/
  | unpaired
  | array (items : List Json)
  /-- Entries in order; a key that is no text is `none`. -/
  | object (entries : List (Option String × Json))

namespace Json

def ofEntries (entries : List (String × Json)) : Json :=
  .object (entries.map fun (key, value) => (some key, value))

/-- The value of an optional thing: `null` when it is absent. -/
def ofOption {α : Type} (encode : α → Json) : Option α → Json
  | none => .null
  | some a => encode a

/-- The list of the values of some things. -/
def ofList {α : Type} (encode : α → Json) (items : List α) : Json :=
  .array (items.map encode)

def ofTexts (texts : List String) : Json :=
  ofList .text texts

end Json

end Caseload
