import Caseload.Predicate.Basic
import Caseload.Sql.Token

/-!
# Conditions on rows

Tasks are kept in the table `tasks`, known as `t` in statements, and role rows in the table
`task_roles`, known as `r`.  A condition compares columns of the two with values; it is what a
predicate becomes in a statement.
-/

namespace Caseload.Sql

/-- One of the two tables. -/
inductive Table
  | tasks
  | roles
  deriving DecidableEq, Repr

namespace Table

def name : Table → String
  | tasks => "tasks"
  | roles => "task_roles"

/-- The short name of the table within a statement. -/
def shortName : Table → String
  | tasks => "t"
  | roles => "r"

end Table

/-- A column of a table. -/
structure Column where
  table : Table
  name : String
  deriving DecidableEq, Repr

namespace Column

def tokens (c : Column) : List Token :=
  [.word c.table.shortName, .mark ".", .word c.name]

def ofField (f : Field) : Column :=
  ⟨if f.ofRow then .roles else .tasks, f.column⟩

/-- The column that says whether a role row allows something. -/
def ofPermission (p : Permission) : Column :=
  ⟨.roles, p.name⟩

/-- The column of the authorisations that a role row asks for. -/
def authorizations : Column :=
  ⟨.roles, "authorizations"⟩

/-- The column of the task that a role row belongs to. -/
def rowTask : Column :=
  ⟨.roles, "task_id"⟩

/-- The column of the role that a role row is about. -/
def rowRole : Column :=
  ⟨.roles, "role_name"⟩

/-- The column of the id of a task. -/
def taskId : Column :=
  ⟨.tasks, "task_id"⟩

end Column

/-- A condition on a row of each table. -/
inductive Condition
  | constant (value : Bool)
  | group (connective : Connective) (parts : List Condition)
  | equals (column : Column) (value : Value)
  | equalsAny (column : Column) (values : List String)
  | isNull (column : Column)
  | hasNoItem (column : Column)
  /-- The column holds a list that shares an item with the values. -/
  | overlaps (column : Column) (values : List String)
  | isTrue (column : Column)

namespace Condition

mutual

def ofPredicate : Predicate → Condition
  | .constant value => .constant value
  | .group c parts => .group c (ofPredicates parts)
  | .equals field value => .equals (.ofField field) (.text value)
  | .oneOf field values => .equalsAny (.ofField field) values
  | .rowOpen => .group .disjunction [.isNull .authorizations, .hasNoItem .authorizations]
  | .rowAdmits held => .overlaps .authorizations held
  | .granted permission => .isTrue (.ofPermission permission)

def ofPredicates : List Predicate → List Condition
  | [] => []
  | p :: rest => ofPredicate p :: ofPredicates rest

end

def constantTokens : Bool → List Token
  | true => [.word "TRUE"]
  | false => [.word "FALSE"]

/-- The word that joins the parts of a group. -/
def connectiveTokens : Connective → List Token
  | .conjunction => [.word "AND"]
  | .disjunction => [.word "OR"]

mutual

/-- A condition as it is written.  A group stands in brackets, and a group without parts is
written as its constant. -/
def tokens : Condition → List Token
  | .constant value => constantTokens value
  | .group c [] => constantTokens c.unit
  | .group c (p :: rest) => Token.bracketed (tokens p ++ restTokens c rest)
  | .equals column value => Token.spaced [column.tokens, [.mark "="], [.bind value]]
  | .equalsAny column values =>
    Token.spaced [column.tokens, [.mark "="],
      .word "ANY" :: Token.bracketed [.bind (.texts values)]]
  | .isNull column => Token.spaced [column.tokens, [.word "IS"], [.word "NULL"]]
  | .hasNoItem column =>
    Token.spaced [.word "cardinality" :: Token.bracketed column.tokens, [.mark "="], [.number 0]]
  | .overlaps column values =>
    Token.spaced [column.tokens, [.mark "&&"], [.bind (.texts values)]]
  | .isTrue column => Token.spaced [column.tokens, [.mark "="], [.word "TRUE"]]

/-- The further parts of a group as they are written. -/
def restTokens (c : Connective) : List Condition → List Token
  | [] => []
  | p :: rest => .blank :: connectiveTokens c ++ .blank :: tokens p ++ restTokens c rest

end

end Condition

end Caseload.Sql
