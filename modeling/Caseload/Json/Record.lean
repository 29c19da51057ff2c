import Caseload.Json.Basic

/-!
# Reading values as records

A `Decoder` reads a JSON value as a value of some type, or refuses it.  A record is an object
with known keys, or a list of its fields in the order of declaration; keys that are not known
are passed over, a known key that is repeated is refused.
-/

namespace Caseload.Json

/-- Reads a JSON value as a value of a type, or refuses it. -/
abbrev Decoder (α : Type) :=
  Json → Option α

def text? : Decoder String
  | .text s => some s
  | _ => none

def bool? : Decoder Bool
  | .bool b => some b
  | _ => none

/-- Accepts an integer literal of 32 bits. -/
def int32? : Decoder Int32
  | .integer n =>
    if Int32.minValue.toInt ≤ n ∧ n ≤ Int32.maxValue.toInt then some (Int32.ofInt n) else none
  | _ => none

/-- Accepts `null` as nothing, and what `decode` accepts. -/
def option? {α : Type} (decode : Decoder α) : Decoder (Option α)
  | .null => some none
  | v => (decode v).map some

/-- Accepts a list of what `decode` accepts. -/
def list? {α : Type} (decode : Decoder α) : Decoder (List α)
  | .array items => items.mapM decode
  | _ => none

def texts? : Decoder (List String) :=
  list? text?

/-- Accepts a name out of a list, either as a text or as the only key of an object that holds
`null`. -/
def choice? {α : Type} (names : List (String × α)) : Decoder α
  | .text name => names.lookup name
  | .object [(some name, .null)] => names.lookup name
  | _ => none

/-- Accepts an object whose keys are texts, and gives its entries. -/
def entries? {α : Type} (decode : Decoder α) : Decoder (List (String × α))
  | .object entries =>
    entries.mapM fun (key, v) => do return (← key, ← decode v)
  | _ => none

/-! ## Records -/

/-- The fields of a record that are there, by name. -/
structure Record where
  /-- The fields, in the order in which they were found. -/
  fields : List (String × Json)

namespace Record

/-- The fields among `names` that a value holds. -/
def ofJson? (names : List String) : Json → Option Record
  | .object entries => do
    let entries ← entries.mapM fun (key, v) => key.map (·, v)
    let known := entries.filter fun (key, _) => names.contains key
    if (known.map Prod.fst).Nodup then some ⟨known⟩ else none
  | .array items => if items.length ≤ names.length then some ⟨names.zip items⟩ else none
  | _ => none

/-- The value of a field, if the field is there. -/
def get? (r : Record) (name : String) : Option Json :=
  r.fields.lookup name

/-- Reads a field that has to be there. -/
def required? {α : Type} (r : Record) (name : String) (decode : Decoder α) : Option α := do
  decode (← r.get? name)

/-- Reads a field that stands for `default` when it is not there. -/
def withDefault? {α : Type} (r : Record) (name : String) (default : α) (decode : Decoder α) :
    Option α :=
  match r.get? name with
  | none => some default
  | some v => decode v

/-- Reads a field that may be missing or `null`. -/
def optional? {α : Type} (r : Record) (name : String) (decode : Decoder α) :
    Option (Option α) :=
  r.withDefault? name none (option? decode)

end Record

end Caseload.Json
