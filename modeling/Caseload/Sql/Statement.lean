import Caseload.Sql.Ordering

/-!
# Statements

Everything that is ever sent to the database.  `Statement.tokens` writes a statement, and
`Statement.Answer` is the type of what comes back.
-/

namespace Caseload.Sql

/-- A column of a new row and its value. -/
abbrev Cell :=
  String × Value

/-- The columns of the table of tasks. -/
def taskColumns : List String :=
  ["task_id", "task_name", "task_type", "state", "jurisdiction", "region", "location",
    "location_name", "case_id", "case_type_id", "case_name", "case_category", "assignee",
    "work_type", "role_category", "security_classification", "title", "due_date_time",
    "priority_date", "major_priority", "minor_priority", "next_hearing_date", "created"]

/-- The columns of the table of role rows. -/
def roleColumns : List String :=
  ["task_id", "role_name", "role_category", "read", "own", "execute", "manage", "cancel", "refer",
    "claim", "assign", "unassign", "complete", "authorizations"]

/-- How many rows are listed, and how many are passed over before. -/
structure Limit where
  limit : Int64
  /-- How many rows are passed over. -/
  offset : Int64
  deriving DecidableEq

/-- A statement. -/
inductive Statement
  | begin
  | commit
  /-- Writes a row of the table of tasks in the place of the one with its id, if there is one. -/
  | upsertTask (cells : List Cell)
  | deleteRows (task : String)
  | insertRow (cells : List Cell)
  /-- Lists the tasks that have a role row for which the condition holds. -/
  | listTasks (condition : Condition) (order : List OrderTerm) (limit : Option Limit)
  /-- Counts the tasks that have a role row for which the condition holds. -/
  | countTasks (condition : Condition)
  /-- Lists the role rows for which the condition holds. -/
  | matchRows (condition : Condition)
  | loadRows (tasks : List String)

namespace Statement

/-- What comes back from a statement that succeeds. -/
def Answer : Statement → Type
  | listTasks _ _ _ | matchRows _ | loadRows _ => List Row
  | countTasks _ => Int64
  | begin | commit | upsertTask _ | deleteRows _ | insertRow _ => Unit

/-- Some columns of a table as they are selected. -/
def columnTokens (table : Table) (columns : List String) : List Token :=
  Token.commas (columns.map fun name => (Column.mk table name).tokens)

/-- The insertion of cells into a table; `values` puts the placeholders in brackets. -/
def insertTokens (table : Table) (cells : List Cell) (values : List (List Token) → List Token) :
    List Token :=
  Token.spaced [
    Token.words ["INSERT", "INTO", table.name],
    Token.listed (cells.map fun cell => [.word cell.1]),
    [.word "VALUES"],
    values (cells.map fun cell => [.bind cell.2])]

/-- The updating of a column by the value that was to be inserted. -/
def updateTokens (column : String) : List Token :=
  Token.spaced [[.word column], [.mark "="], [.word "EXCLUDED", .mark ".", .word column]]

/-- The joining of each task with its role rows. -/
def joinTokens : List Token :=
  Token.spaced [
    Token.words ["FROM", Table.tasks.name, Table.tasks.shortName, "JOIN", Table.roles.name,
      Table.roles.shortName, "ON"],
    Column.rowTask.tokens, [.mark "="], Column.taskId.tokens, [.word "WHERE"]]

def limitTokens (l : Limit) : List Token :=
  Token.spaced [[.word "LIMIT"], [.bind (.integer l.limit.toInt)],
    [.word "OFFSET"], [.bind (.integer l.offset.toInt)]]

def tokens : Statement → List Token
  | begin => [.word "BEGIN"]
  | commit => [.word "COMMIT"]
  | upsertTask cells =>
    Token.spaced [
      insertTokens .tasks cells Token.listed,
      Token.words ["ON", "CONFLICT"],
      Token.bracketed [.word Column.taskId.name],
      Token.words ["DO", "UPDATE", "SET"],
      Token.commas ((cells.filter (·.1 ≠ Column.taskId.name)).map fun cell => updateTokens cell.1)]
  | deleteRows task =>
    Token.spaced [
      Token.words ["DELETE", "FROM", Table.roles.name, "WHERE", Column.rowTask.name],
      [.mark "="], [.bind (.text task)]]
  | insertRow cells => insertTokens .roles cells fun pieces => Token.bracketed (Token.commas pieces)
  | listTasks condition order limit =>
    Token.spaced ([
      [.word "SELECT"],
      columnTokens .tasks taskColumns,
      Token.words ["FROM", Table.tasks.name, Table.tasks.shortName, "WHERE", "EXISTS"],
      Token.bracketed (Token.spaced [
        [.word "SELECT"], [.number 1],
        Token.words ["FROM", Table.roles.name, Table.roles.shortName, "WHERE"],
        Column.rowTask.tokens, [.mark "="], Column.taskId.tokens, [.word "AND"],
        condition.tokens]),
      orderTokens order] ++ limit.toList.map limitTokens)
  | countTasks condition =>
    Token.spaced [
      [.word "SELECT"],
      .word "COUNT" :: Token.bracketed (.word "DISTINCT" :: .blank :: Column.taskId.tokens),
      joinTokens,
      condition.tokens]
  | matchRows condition =>
    Token.spaced [
      [.word "SELECT"],
      columnTokens .roles roleColumns,
      joinTokens,
      condition.tokens,
      orderTokens [⟨.rowTask, true, none, false⟩, ⟨.rowRole, true, none, false⟩]]
  | loadRows tasks =>
    Token.spaced [
      [.word "SELECT"],
      columnTokens .roles roleColumns,
      Token.words ["FROM", Table.roles.name, Table.roles.shortName, "WHERE"],
      Column.rowTask.tokens, [.mark "="],
      .word "ANY" :: Token.bracketed [.bind (.texts tasks)],
      orderTokens [⟨.rowTask, false, none, false⟩, ⟨.rowRole, false, none, false⟩]]

def text (s : Statement) : String :=
  Token.spell s.tokens

/-- The values that are bound to a statement, in the order of its placeholders. -/
def values (s : Statement) : List Value :=
  Token.values s.tokens

end Statement

end Caseload.Sql
