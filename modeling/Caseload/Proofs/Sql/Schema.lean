import Caseload.Proofs.Error.FirstFailure
import Caseload.Proofs.Sql.Decoding
import Caseload.Proofs.Sql.Selection

/-!
# What tables promise of their rows

Each column of a table has a type, and some have to hold a value.  Rows are read column by column,
so a row is read exactly when every column keeps what its table promises
(`StoredTask.exists_ofRow_eq_ok_iff`), and what is read has the values of the row.
-/

namespace Caseload

open Sql (Cell Row Table Value roleColumns taskColumns)

namespace Sql

/-- What a column can hold, if it holds anything. -/
inductive ColumnType
  | text
  | integer
  | boolean
  | texts
  | timestamp

def ColumnType.Carrier : ColumnType → Type
  | text => String
  | integer => Int32
  | boolean => Bool
  | texts => List String
  | timestamp => Instant

def ColumnType.value : (type : ColumnType) → type.Carrier → Value
  | text, s => .text s
  | integer, n => .integer n.toInt
  | boolean, b => .boolean b
  | texts, l => .texts l
  | timestamp, i => .timestamp i

/-- What a table promises of one of its columns. -/
structure ColumnRule where
  name : String
  type : ColumnType
  /-- Whether the column always holds a value. -/
  required : Bool

def Table.rules : Table → List ColumnRule
  | tasks => [
    ⟨"task_id", .text, true⟩,
    ⟨"task_name", .text, true⟩,
    ⟨"task_type", .text, true⟩,
    ⟨"state", .text, true⟩,
    ⟨"jurisdiction", .text, true⟩,
    ⟨"region", .text, false⟩,
    ⟨"location", .text, false⟩,
    ⟨"location_name", .text, false⟩,
    ⟨"case_id", .text, true⟩,
    ⟨"case_type_id", .text, true⟩,
    ⟨"case_name", .text, false⟩,
    ⟨"case_category", .text, false⟩,
    ⟨"assignee", .text, false⟩,
    ⟨"work_type", .text, false⟩,
    ⟨"role_category", .text, false⟩,
    ⟨"security_classification", .text, true⟩,
    ⟨"title", .text, false⟩,
    ⟨"due_date_time", .timestamp, false⟩,
    ⟨"priority_date", .timestamp, false⟩,
    ⟨"major_priority", .integer, false⟩,
    ⟨"minor_priority", .integer, false⟩,
    ⟨"next_hearing_date", .timestamp, false⟩,
    ⟨"created", .timestamp, false⟩]
  | roles => [
    ⟨"task_id", .text, true⟩,
    ⟨"role_name", .text, true⟩,
    ⟨"role_category", .text, false⟩,
    ⟨"read", .boolean, true⟩,
    ⟨"own", .boolean, true⟩,
    ⟨"execute", .boolean, true⟩,
    ⟨"manage", .boolean, true⟩,
    ⟨"cancel", .boolean, true⟩,
    ⟨"refer", .boolean, true⟩,
    ⟨"claim", .boolean, true⟩,
    ⟨"assign", .boolean, true⟩,
    ⟨"unassign", .boolean, true⟩,
    ⟨"complete", .boolean, true⟩,
    ⟨"authorizations", .texts, false⟩]

/-- A required column holds a value of its type, and any other one may hold none. -/
def ColumnRule.Keeps (c : ColumnRule) (row : Row) : Prop :=
  match c.required with
  | true => ∃ a, row.get c.name = c.type.value a
  | false => ∃ value : Option c.type.Carrier, row.get c.name = .ofOption c.type.value value

/-- The row keeps what the table promises of its columns. -/
def Table.Admits (table : Table) (row : Row) : Prop :=
  ∀ c ∈ table.rules, c.Keeps row

/-! ## Reading a column -/

namespace Row

variable {row : Row} {column : String}

theorem text_eq_ok_iff {s : String} : row.text column = .ok s ↔ row.get column = .text s := by
  unfold text
  cases row.get column <;> simp

theorem boolean_eq_ok_iff {b : Bool} :
    row.boolean column = .ok b ↔ row.get column = .boolean b := by
  unfold boolean
  cases row.get column <;> simp

theorem text?_eq_ok_iff {value : Option String} :
    row.text? column = .ok value ↔ row.get column = .ofOption .text value := by
  unfold text?
  cases row.get column <;> cases value <;> simp [Value.ofOption]

theorem texts?_eq_ok_iff {value : Option (List String)} :
    row.texts? column = .ok value ↔ row.get column = .ofOption .texts value := by
  unfold texts?
  cases row.get column <;> cases value <;> simp [Value.ofOption]

theorem timestamp?_eq_ok_iff {value : Option Instant} :
    row.timestamp? column = .ok value ↔ row.get column = .ofOption .timestamp value := by
  unfold timestamp?
  cases row.get column <;> cases value <;> simp [Value.ofOption]

theorem int32?_eq_ok_iff {value : Option Int32} :
    row.int32? column = .ok value ↔
      row.get column = .ofOption (fun n => .integer n.toInt) value := by
  refine ⟨fun read => ?_, int32?_of_get⟩
  unfold int32? at read
  cases held : row.get column with
  | null =>
    rw [held] at read
    cases read
    rfl
  | integer n =>
    simp only [held] at read
    split at read
    next bounds =>
      cases read
      have same : (Int32.ofInt n).toInt = n :=
        Int32.toInt_ofInt_of_le bounds.1 (Int.lt_add_one_of_le bounds.2)
      rw [Value.ofOption, same]
    next => cases read
  | text _ | boolean _ | texts _ | timestamp _ => simp [held] at read

end Row

end Sql

/-! ## Reading a row -/

variable {row : Row}

theorem RoleRow.exists_ofRow_eq_ok_iff :
    (∃ read, RoleRow.ofRow row = .ok read) ↔ Table.roles.Admits row := by
  -- a row is read by one bind for each column, which succeeds just where the column keeps its rule
  simp only [ofRow, exists_bind_eq_ok_iff, exists_pure_eq_ok, and_true, exists_and_right,
    Row.text_eq_ok_iff, Row.text?_eq_ok_iff, Row.boolean_eq_ok_iff, Row.texts?_eq_ok_iff,
    Table.Admits, Table.rules, List.forall_mem_cons, List.not_mem_nil, false_implies, implies_true]
  rfl

theorem StoredTask.exists_ofRow_eq_ok_iff :
    (∃ s, StoredTask.ofRow row = .ok s) ↔ Table.tasks.Admits row := by
  simp only [ofRow, exists_bind_eq_ok_iff, exists_pure_eq_ok, and_true, exists_and_right,
    Row.text_eq_ok_iff, Row.text?_eq_ok_iff, Row.timestamp?_eq_ok_iff, Row.int32?_eq_ok_iff,
    Table.Admits, Table.rules, List.forall_mem_cons, List.not_mem_nil, false_implies, implies_true]
  rfl

theorem RoleRow.exists_mapM_ofRow {rows : List Row}
    (admitted : ∀ row ∈ rows, Table.roles.Admits row) : ∃ read, rows.mapM ofRow = .ok read :=
  exists_mapM_eq_ok fun row mem => exists_ofRow_eq_ok_iff.mpr (admitted row mem)

theorem StoredTask.exists_mapM_ofRow {rows : List Row}
    (admitted : ∀ row ∈ rows, Table.tasks.Admits row) : ∃ stored, rows.mapM ofRow = .ok stored :=
  exists_mapM_eq_ok fun row mem => exists_ofRow_eq_ok_iff.mpr (admitted row mem)

theorem RoleRow.admits_cells (id : String) (r : RoleRow) : Table.roles.Admits (r.cells id) :=
  exists_ofRow_eq_ok_iff.mp ⟨_, r.ofRow_cells id⟩

theorem Task.admits_cells (t : Task) : Table.tasks.Admits t.cells :=
  StoredTask.exists_ofRow_eq_ok_iff.mp ⟨_, StoredTask.ofRow_cells t⟩

/-! ## What is read -/

/-- A role row that is read has the values of its row. -/
theorem RoleRow.get_cells_of_ofRow {id : String} {r : RoleRow} (read : ofRow row = .ok (id, r)) :
    ∀ column ∈ roleColumns, Row.get (r.cells id) column = row.get column := by
  simp only [ofRow, bind_eq_ok_iff, Row.text_eq_ok_iff, Row.text?_eq_ok_iff,
    Row.boolean_eq_ok_iff, Row.texts?_eq_ok_iff, pure, Except.pure, Except.ok.injEq,
    Prod.mk.injEq] at read
  obtain ⟨_, h1, _, h2, _, h3, _, h4, _, h5, _, h6, _, h7, _, h8, _, h9, _, h10, _, h11, _, h12, _,
    h13, _, h14, rfl, rfl⟩ := read
  simp only [roleColumns, List.forall_mem_cons, h1, h2, h3, h4, h5, h6, h7, h8, h9, h10, h11, h12,
    h13, h14]
  simp [RoleRow.cells, Row.get_cons]

namespace StoredTask

/-- The row of the table of tasks that holds a stored task. -/
def cells (s : StoredTask) : List Cell :=
  [("task_id", .text s.id),
    ("task_name", .text s.name),
    ("task_type", .text s.type),
    ("state", .text s.state),
    ("jurisdiction", .text s.jurisdiction),
    ("region", .ofOption .text s.region),
    ("location", .ofOption .text s.location),
    ("location_name", .ofOption .text s.locationName),
    ("case_id", .text s.caseId),
    ("case_type_id", .text s.caseType),
    ("case_name", .ofOption .text s.caseName),
    ("case_category", .ofOption .text s.caseCategory),
    ("assignee", .ofOption .text s.assignee),
    ("work_type", .ofOption .text s.workType),
    ("role_category", .ofOption .text s.roleCategory),
    ("security_classification", .text s.classification),
    ("title", .ofOption .text s.title),
    ("due_date_time", .ofOption .timestamp s.due),
    ("priority_date", .ofOption .timestamp s.priorityDate),
    ("major_priority", .ofOption (fun n => .integer n.toInt) s.majorPriority),
    ("minor_priority", .ofOption (fun n => .integer n.toInt) s.minorPriority),
    ("next_hearing_date", .ofOption .timestamp s.nextHearing),
    ("created", .ofOption .timestamp s.created)]

variable {s : StoredTask} {t : Task} {roles : List RoleRow}

theorem admits_cells (s : StoredTask) : Table.tasks.Admits s.cells := by
  refine exists_ofRow_eq_ok_iff.mp ⟨s, ?_⟩
  rw [ofRow]
  repeat rw [Row.text_of_get rfl]
  repeat rw [Row.text?_of_get rfl]
  repeat rw [Row.timestamp?_of_get rfl]
  repeat rw [Row.int32?_of_get rfl]
  rfl

/-- A stored task that is read has the values of its row. -/
theorem get_cells_of_ofRow (read : ofRow row = .ok s) :
    ∀ column ∈ taskColumns, Row.get s.cells column = row.get column := by
  simp only [ofRow, bind_eq_ok_iff, Row.text_eq_ok_iff, Row.text?_eq_ok_iff,
    Row.timestamp?_eq_ok_iff, Row.int32?_eq_ok_iff, pure, Except.pure, Except.ok.injEq] at read
  obtain ⟨_, h1, _, h2, _, h3, _, h4, _, h5, _, h6, _, h7, _, h8, _, h9, _, h10, _, h11, _, h12, _,
    h13, _, h14, _, h15, _, h16, _, h17, _, h18, _, h19, _, h20, _, h21, _, h22, _, h23, rfl⟩ :=
    read
  simp only [taskColumns, List.forall_mem_cons, h1, h2, h3, h4, h5, h6, h7, h8, h9, h10, h11, h12,
    h13, h14, h15, h16, h17, h18, h19, h20, h21, h22, h23]
  simp [cells, Row.get_cons]

/-- A task takes over all that is stored of it but the spelling of its state. -/
theorem get_cells_of_toTask (made : s.toTask roles = .ok t) {column : String}
    (other : column ≠ "state") : Row.get t.cells column = Row.get s.cells column := by
  unfold toTask at made
  split at made
  next => cases made
  next state _ =>
    split at made
    next => cases made
    next c named =>
      cases made
      have name : c.name = s.classification := by simpa using List.find?_some named
      simp only [Task.cells, cells, Row.get_cons, if_neg other, name]

end StoredTask

end Caseload
