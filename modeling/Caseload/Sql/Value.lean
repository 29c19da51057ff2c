import Caseload.Error
import Caseload.Instant.Basic

/-!
# Database values

The values that are bound to statements and found in rows, and the reading of a row by the names
of its columns.
-/

namespace Caseload.Sql

/-- A value of the database. -/
inductive Value
  | null
  | text (value : String)
  | integer (value : Int)
  | boolean (value : Bool)
  | texts (values : List String)
  | timestamp (value : Instant)
  deriving DecidableEq

namespace Value

def ofOption {α : Type} (f : α → Value) : Option α → Value
  | none => .null
  | some a => f a

end Value

/-- A row: the values of its columns, by name. -/
abbrev Row :=
  List (String × Value)

namespace Row

/-- The value of a column; a column that is not there has none. -/
def get (row : Row) (column : String) : Value :=
  (row.lookup column).getD .null

/-- The failure to read a column, in the words of the connection. -/
def undecodable (column reason : String) : StatementFailure :=
  ⟨s!"error occurred while decoding column \"{column}\": {reason}"⟩

/-- A column that has to hold a value holds none. -/
def unexpectedNull (column : String) : StatementFailure :=
  undecodable column "unexpected null; try decoding as an \x60Option\x60"

/-- A column holds a value of another type.  The connection goes on to name the two types, which the
wording here leaves out. -/
def mismatched (column : String) : StatementFailure :=
  undecodable column "mismatched types"

def text? (row : Row) (column : String) : Except StatementFailure (Option String) :=
  match row.get column with
  | .null => .ok none
  | .text s => .ok (some s)
  | _ => .error (mismatched column)

/-- An integer of 32 bits that may be missing. -/
def int32? (row : Row) (column : String) : Except StatementFailure (Option Int32) :=
  match row.get column with
  | .null => .ok none
  | .integer n =>
    if Int32.minValue.toInt ≤ n ∧ n ≤ Int32.maxValue.toInt then .ok (some (Int32.ofInt n))
    else .error (mismatched column)
  | _ => .error (mismatched column)

/-- A point in time that may be missing. -/
def timestamp? (row : Row) (column : String) : Except StatementFailure (Option Instant) :=
  match row.get column with
  | .null => .ok none
  | .timestamp i => .ok (some i)
  | _ => .error (mismatched column)

/-- A list of texts that may be missing. -/
def texts? (row : Row) (column : String) : Except StatementFailure (Option (List String)) :=
  match row.get column with
  | .null => .ok none
  | .texts l => .ok (some l)
  | _ => .error (mismatched column)

def text (row : Row) (column : String) : Except StatementFailure String :=
  match row.get column with
  | .null => .error (unexpectedNull column)
  | .text s => .ok s
  | _ => .error (mismatched column)

def boolean (row : Row) (column : String) : Except StatementFailure Bool :=
  match row.get column with
  | .null => .error (unexpectedNull column)
  | .boolean b => .ok b
  | _ => .error (mismatched column)

end Row

end Caseload.Sql
