import Caseload.Error
import Caseload.Json.Record
import Caseload.Text.Blank

/-!
# Security classifications

Tasks carry a classification, and so do role assignments: a role sees the tasks at or below its
own level.
-/

namespace Caseload

/-- A level of security, from the most open to the most guarded. -/
inductive Classification
  /-- For everyone. -/
  | publicLevel
  /-- For private and restricted roles. -/
  | privateLevel
  /-- For restricted roles only. -/
  | restrictedLevel
  deriving DecidableEq, Repr

namespace Classification

/-- All levels, the most open one first. -/
def all : List Classification :=
  [publicLevel, privateLevel, restrictedLevel]

def name : Classification → String
  | publicLevel => "PUBLIC"
  | privateLevel => "PRIVATE"
  | restrictedLevel => "RESTRICTED"

def rank : Classification → Nat
  | publicLevel => 0
  | privateLevel => 1
  | restrictedLevel => 2

instance : LE Classification :=
  ⟨fun a b => a.rank ≤ b.rank⟩

instance (a b : Classification) : Decidable (a ≤ b) :=
  inferInstanceAs (Decidable (a.rank ≤ b.rank))

/-- The levels that a role of this level sees, its own first and the most open one last. -/
def visible (c : Classification) : List Classification :=
  all.reverse.filter (· ≤ c)

def ofName? (name : String) : Option Classification :=
  all.find? fun c => c.name = name

/-- Reads the level of a task, which has to be spelled as it is stored. -/
def parse (value : String) : Except Error Classification :=
  match ofName? value with
  | some c => .ok c
  | none => .error (.unknownClassification value)

/-- Reads the level of a role.  Blanks around the name do not matter, and whatever names no level
is the most open one, so that a role never sees more than it was given. -/
def ofRoleText (value : String) : Classification :=
  (ofName? (Text.trim value)).getD publicLevel

/-! ## In JSON -/

/-- The name of a level as a JSON value. -/
def toJson (c : Classification) : Json :=
  .text c.name

/-- Reads the level of a task by its name. -/
def ofJson? : Json.Decoder Classification :=
  Json.choice? (all.map fun c => (c.name, c))

/-- Reads the level of a role from any text; no text is the most open level. -/
def ofRoleJson? (v : Json) : Option Classification :=
  (Json.option? Json.text? v).map fun text => (text.map ofRoleText).getD publicLevel

end Classification

end Caseload
