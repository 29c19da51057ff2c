import Caseload.Proofs.Sql.Dialogue
import Caseload.Proofs.Sql.Expression
import Caseload.Proofs.Sql.Writing
import Mathlib.Data.List.Nodup

/-!
# What statements that write do

A table has columns and a key, and no two of its rows have the same key.  A row that is inserted has
a value for each column.  Where there is a row with its key already, the insertion fails, unless it
says which columns of that row take their values from the new one.  A deletion leaves the rows for
which its comparison is not `TRUE`.

A database executes the statements of a dialogue by their texts and the values that are bound to
them (`Database.after?`).  What becomes of a transaction in which a statement fails is not looked at
here, and nothing depends on the order in which a table keeps its rows.
-/

namespace Caseload.Sql

/-! ## Rows -/

namespace Row

/-- The row with some columns set to the values of columns of another row. -/
def update (old new : Row) (updates : List (String × String)) : Row :=
  old.map fun (column, value) =>
    (column, match updates.lookup column with
      | some source => new.get source
      | none => value)

end Row

/-! ## Tables -/

namespace Table

def ofName? (name : String) : Option Table :=
  if name = tasks.name then some tasks
  else if name = roles.name then some roles
  else none

theorem ofName?_name (table : Table) : ofName? table.name = some table := by
  cases table <;> rfl

def columns : Table → List String
  | tasks => taskColumns
  | roles => roleColumns

def key : Table → List String
  | tasks => [Column.taskId.name]
  | roles => [Column.rowTask.name, Column.rowRole.name]

def keyOf (table : Table) (row : Row) : List Value :=
  table.key.map row.get

/-- The column of a table that says to which task a row belongs. -/
def taskColumn : Table → String
  | tasks => Column.taskId.name
  | roles => Column.rowTask.name

theorem nodup_columns (table : Table) : table.columns.Nodup := by
  cases table <;> decide

theorem key_subset_columns (table : Table) : table.key ⊆ table.columns := by
  cases table <;> decide

/-- A row that a table may have: it has the columns of the table, and text in those of the key. -/
structure Fits (table : Table) (row : Row) : Prop where
  columns : row.map Prod.fst = table.columns
  keyed : ∀ c ∈ table.key, ∃ s, row.get c = .text s

/-- The rows that a table may have, no two of them with the same key. -/
structure Holds (table : Table) (rows : List Row) : Prop where
  fits : ∀ row ∈ rows, table.Fits row
  distinct : (rows.map table.keyOf).Nodup

end Table

namespace Database

/-- Both tables are there and have rows that they may have. -/
def Formed (db : Database) : Prop :=
  ∀ table : Table, ∃ rows, db table.name = some rows ∧ table.Holds rows

/-- The rows of a table that belong to a task. -/
def rowsOf (db : Database) (table : Table) (id : String) : Option (List Row) :=
  (db table.name).map fun rows => rows.filter (·.get table.taskColumn = .text id)

/-- The rows of a table that belong to other tasks. -/
def rowsBut (db : Database) (table : Table) (id : String) : Option (List Row) :=
  (db table.name).map fun rows => rows.filter (·.get table.taskColumn ≠ .text id)

def set (db : Database) (table : Table) (rows : List Row) : Database := fun name =>
  if name = table.name then some rows else db name

@[simp] theorem set_self (db : Database) (table : Table) (rows : List Row) :
    db.set table rows table.name = some rows :=
  if_pos rfl

theorem set_of_ne {db : Database} {table other : Table} (ne : other ≠ table) {rows : List Row} :
    db.set table rows other.name = db other.name := by
  refine if_neg fun same => ne ?_
  revert same
  cases table <;> cases other <;> decide

theorem set_set (db : Database) (table : Table) (rows others : List Row) :
    (db.set table rows).set table others = db.set table others := by
  funext name
  by_cases h : name = table.name <;> simp [set, h]

theorem set_eq_self {db : Database} {table : Table} {rows : List Row}
    (has : db table.name = some rows) : db.set table rows = db := by
  funext name
  by_cases h : name = table.name <;> simp [set, h, has]

end Database

/-! ## Writing -/

/-- Whether a table can settle conflicts in this way: by its key, setting columns that it has, none
of them twice. -/
def Conflict.fits (table : Table) (c : Conflict) : Bool :=
  c.target.isPerm table.key && decide (c.updates.map Prod.fst).Nodup &&
    c.updates.all fun (column, source) =>
      table.columns.contains column && table.columns.contains source

namespace Write

/-- The new row of an insertion that gives each column of the table once. -/
def row? (table : Table) (columns : List String) (values : List Value) : Option Row :=
  if columns.isPerm table.columns && columns.length = values.length then
    some (table.columns.map fun c => (c, Row.get (columns.zip values) c))
  else none

/-- The rows with a new one among them. -/
def put? (table : Table) (new : Row) (conflict : Option Conflict) (rows : List Row) :
    Option (List Row) :=
  if rows.all (table.keyOf · ≠ table.keyOf new) then some (rows ++ [new])
  else do
    let c ← conflict
    return rows.map fun row =>
      if table.keyOf row = table.keyOf new then row.update new c.updates else row

def left? (column : String) (value : Value) : List Row → Option (List Row)
  | [] => some []
  | row :: rest => do
    let equal ← (← row.lookup column).equals? value
    let left ← left? column value rest
    return if equal = .boolean true then left else row :: left

/-- The database after a write that does not fail. -/
def execute? (db : Database) : Write → Option Database
  | begin | commit => some db
  | insert name columns values conflict => do
    let table ← Table.ofName? name
    let new ← row? table columns values
    let rows ← put? table new conflict (← db table.name)
    if conflict.all (·.fits table) ∧ (rows.map table.keyOf).Nodup then return db.set table rows
    else none
  | delete name column value => do
    let table ← Table.ofName? name
    return db.set table (← left? column value (← db table.name))

end Write

/-- The database after some statements, which are read by their texts. -/
def Database.after? (db : Database) (statements : List Statement) : Option Database :=
  statements.foldlM (fun db s => do (← Write.ofText? s.text s.values).execute? db) db

/-- The server accepts every statement that the database can execute after those before it. -/
def Server.Executes (server : Server) (db : Database) : Prop :=
  ∀ (before : List Statement) (s : Statement), (db.after? (before ++ [s])).isSome →
    ∃ answer, server before s = .ok answer

namespace Database

variable {db after : Database}

theorem after?_append (db : Database) (first rest : List Statement) :
    db.after? (first ++ rest) = (db.after? first).bind (·.after? rest) :=
  List.foldlM_append

theorem after?_cons {s : Statement} {w : Write} (read : Write.ofText? s.text s.values = some w)
    (executed : w.execute? db = some after) (rest : List Statement) :
    db.after? (s :: rest) = after.after? rest := by
  rw [after?, List.foldlM_cons, read]
  simp only [Option.bind_eq_bind, Option.bind_some, executed]
  rfl

end Database

theorem Server.Executes.accepts {server : Server} {db after : Database}
    (executes : server.Executes db) {before rest : List Statement}
    (executed : db.after? (before ++ rest) = some after) : server.Accepts before rest := by
  induction rest generalizing before with
  | nil => trivial
  | cons s rest ih =>
    rw [List.append_cons] at executed
    refine ⟨executes before s ?_, ih executed⟩
    rw [Database.after?_append] at executed
    obtain ⟨next, reached, -⟩ := Option.bind_eq_some_iff.mp executed
    rw [reached]
    rfl

/-! ## New rows -/

theorem filter_eq_singleton {α β : Type} [DecidableEq β] {f : α → β} {items : List α}
    (nodup : (items.map f).Nodup) {a : α} (mem : a ∈ items) :
    items.filter (fun b => f b = f a) = [a] := by
  induction items with
  | nil => cases mem
  | cons b rest ih =>
    obtain ⟨fresh, nodup⟩ := List.nodup_cons.mp nodup
    obtain rfl | later := List.mem_cons.mp mem
    · have none : rest.filter (fun b => f b = f a) = [] := by
        refine List.filter_eq_nil_iff.mpr fun b inRest same => fresh ?_
        exact of_decide_eq_true same ▸ List.mem_map_of_mem inRest
      rw [List.filter_cons_of_pos (by simp), none]
    · have ne : f b ≠ f a := fun same => fresh (same ▸ List.mem_map_of_mem later)
      rw [List.filter_cons_of_neg (by simpa using ne), ih nodup later]

variable {table : Table} {rows : List Row} {new : Row}

namespace Table

/-- The rows with a new one in the place of the one with its key, or at the end. -/
def place (table : Table) (new : Row) (rows : List Row) : List Row :=
  if rows.all (table.keyOf · ≠ table.keyOf new) then rows ++ [new]
  else rows.map fun row => if table.keyOf row = table.keyOf new then new else row

theorem filter_place_eq (held : table.Holds rows) :
    (table.place new rows).filter (fun row => table.keyOf row = table.keyOf new) = [new] := by
  unfold place
  split
  next fresh =>
    have none : rows.filter (fun row => table.keyOf row = table.keyOf new) = [] := by
      refine List.filter_eq_nil_iff.mpr fun row mem => ?_
      simpa using List.all_eq_true.mp fresh row mem
    simp [none]
  next old =>
    -- one old row has the key, and it is replaced
    obtain ⟨row, mem, same⟩ : ∃ row ∈ rows, table.keyOf row = table.keyOf new := by simpa using old
    have only : rows.filter (fun r => table.keyOf r = table.keyOf new) = [row] :=
      same ▸ filter_eq_singleton held.distinct mem
    have keys : (fun r => decide (table.keyOf r = table.keyOf new)) ∘
        (fun r => if table.keyOf r = table.keyOf new then new else r) =
          fun r => decide (table.keyOf r = table.keyOf new) := by
      funext r
      by_cases h : table.keyOf r = table.keyOf new <;> simp [h]
    rw [List.filter_map, keys, only]
    simp [same]

theorem filter_place_ne :
    (table.place new rows).filter (fun row => table.keyOf row ≠ table.keyOf new) =
      rows.filter fun row => table.keyOf row ≠ table.keyOf new := by
  unfold place
  split
  next => simp
  next old =>
    clear old
    induction rows with
    | nil => rfl
    | cons row rest ih =>
      by_cases h : table.keyOf row = table.keyOf new <;> simp_all

theorem Holds.append (held : table.Holds rows) (fits : table.Fits new)
    (fresh : ∀ row ∈ rows, table.keyOf row ≠ table.keyOf new) : table.Holds (rows ++ [new]) where
  fits := List.forall_mem_append.mpr ⟨held.fits, List.forall_mem_singleton.mpr fits⟩
  distinct := by
    have keys : ∀ key ∈ rows.map table.keyOf, key ≠ table.keyOf new := List.forall_mem_map.mpr fresh
    rw [List.map_append, List.nodup_append]
    exact ⟨held.distinct, List.nodup_singleton _, by simpa using keys⟩

theorem Holds.place (held : table.Holds rows) (fits : table.Fits new) :
    table.Holds (table.place new rows) := by
  unfold Table.place
  split
  next fresh => exact held.append fits (by simpa using fresh)
  next old =>
    have keys : table.keyOf ∘ (fun r => if table.keyOf r = table.keyOf new then new else r) =
        table.keyOf := by
      funext r
      by_cases h : table.keyOf r = table.keyOf new <;> simp [h]
    refine ⟨List.forall_mem_map.mpr fun row mem => ?_, ?_⟩
    · split
      · exact fits
      · exact held.fits row mem
    · rw [List.map_map, keys]
      exact held.distinct

end Table

namespace Write

theorem row?_eq_some (fits : table.Fits new) :
    row? table (new.map Prod.fst) (new.map Prod.snd) = some new := by
  have zipped : (new.map Prod.fst).zip (new.map Prod.snd) = new := by
    rw [List.zip_map']
    exact List.map_id new
  have perm : (new.map Prod.fst).isPerm table.columns = true := by
    rw [fits.columns, List.isPerm_iff]
  rw [row?, perm, zipped, ← fits.columns, ← Row.eq_map_get (fits.columns ▸ table.nodup_columns)]
  simp

/-- What an insertion does to an old row: it takes all columns but those of the key. -/
def Replaces (table : Table) (c : Conflict) : Prop :=
  c.fits table = true ∧
    ∀ column ∈ table.columns,
      c.updates.lookup column = if column ∈ table.key then none else some column

theorem lookup_map_self (columns : List String) (c : String) :
    (columns.map fun d => (d, d)).lookup c = if c ∈ columns then some c else none := by
  induction columns with
  | nil => rfl
  | cons d rest ih =>
    by_cases same : c = d
    · simp [same]
    · have other : (c == d) = false := beq_false_of_ne same
      simp [List.lookup_cons, other, ih, same]

theorem replaces_updatedColumns {cells : List Cell} (fits : Table.tasks.Fits cells) :
    Replaces .tasks ⟨[Column.taskId.name],
      (Statement.updatedColumns cells).map fun c => (c, c)⟩ := by
  have updated : Statement.updatedColumns cells = taskColumns.filter (· ≠ Column.taskId.name) := by
    rw [Statement.updatedColumns, ← show cells.map Prod.fst = taskColumns from fits.columns,
      List.filter_map]
    rfl
  rw [updated]
  refine ⟨by decide, fun c mem => ?_⟩
  rw [lookup_map_self]
  have inColumns : c ∈ taskColumns := mem
  by_cases same : c = Column.taskId.name <;> simp [Table.key, inColumns, same]

/-- A row with the key of a new one becomes the new one if all its other columns are updated. -/
theorem update_eq_new {c : Conflict} (replaces : Replaces table c) {row : Row}
    (old : table.Fits row) (fits : table.Fits new) (same : table.keyOf row = table.keyOf new) :
    row.update new c.updates = new := by
  have values : ∀ column ∈ table.columns,
      (match c.updates.lookup column with
        | some source => new.get source
        | none => row.get column) = new.get column := by
    intro column mem
    rw [replaces.2 column mem]
    by_cases inKey : column ∈ table.key
    · rw [if_pos inKey]
      exact List.map_inj_left.mp same column inKey
    · rw [if_neg inKey]
  -- a row is the list of its values by the columns of the table, all of which come from the new one
  calc row.update new c.updates
    _ = Row.update (table.columns.map fun column => (column, row.get column)) new c.updates := by
      rw [← old.columns, ← Row.eq_map_get (old.columns ▸ table.nodup_columns)]
    _ = table.columns.map fun column => (column, new.get column) := by
      rw [Row.update, List.map_map]
      exact List.map_congr_left fun column mem => congrArg (Prod.mk column) (values column mem)
    _ = new := by
      rw [← fits.columns, ← Row.eq_map_get (fits.columns ▸ table.nodup_columns)]

theorem put?_eq_place {c : Conflict} (replaces : Replaces table c) (held : table.Holds rows)
    (fits : table.Fits new) : put? table new (some c) rows = some (table.place new rows) := by
  unfold put? Table.place
  split
  · rfl
  · refine congrArg some (List.map_congr_left fun row mem => ?_)
    split
    next same => exact update_eq_new replaces (held.fits row mem) fits same
    next => rfl

/-! ## What writes do -/

variable {db : Database}

/-- An insertion that settles conflicts puts its row in the place of the one with its key. -/
theorem execute?_insert_replacing {c : Conflict} (replaces : Replaces table c)
    (has : db table.name = some rows) (held : table.Holds rows) (fits : table.Fits new) :
    (insert table.name (new.map Prod.fst) (new.map Prod.snd) (some c)).execute? db =
      some (db.set table (table.place new rows)) := by
  simp only [execute?, Table.ofName?_name, has, row?_eq_some fits, put?_eq_place replaces held fits,
    Option.bind_eq_bind, Option.bind_some, Option.all_some, replaces.1, (held.place fits).distinct]
  rfl

theorem execute?_insert_fresh (has : db table.name = some rows) (held : table.Holds rows)
    (fits : table.Fits new) (fresh : ∀ row ∈ rows, table.keyOf row ≠ table.keyOf new) :
    (insert table.name (new.map Prod.fst) (new.map Prod.snd) none).execute? db =
      some (db.set table (rows ++ [new])) := by
  have added : put? table new none rows = some (rows ++ [new]) :=
    if_pos (by simpa using fresh)
  simp only [execute?, Table.ofName?_name, has, row?_eq_some fits, added,
    Option.bind_eq_bind, Option.bind_some, (held.append fits fresh).distinct]
  rfl

theorem left?_eq_filter {column s : String}
    (known : ∀ row ∈ rows, column ∈ row.map Prod.fst ∧ ∃ held, row.get column = .text held) :
    left? column (.text s) rows = some (rows.filter (·.get column ≠ .text s)) := by
  induction rows with
  | nil => rfl
  | cons row rest ih =>
    obtain ⟨⟨mem, held, value⟩, others⟩ := List.forall_mem_cons.mp known
    by_cases same : held = s <;>
      simp [left?, Row.lookup_eq_some_get mem, value, Value.equals?, ih others, same]

/-- A deletion by a column of the key leaves the rows with other values there. -/
theorem execute?_delete {column s : String} (mem : column ∈ table.key)
    (has : db table.name = some rows) (held : table.Holds rows) :
    (delete table.name column (.text s)).execute? db =
      some (db.set table (rows.filter (·.get column ≠ .text s))) := by
  have known : ∀ row ∈ rows, column ∈ row.map Prod.fst ∧ ∃ s, row.get column = .text s :=
    fun row inRows => ⟨(held.fits row inRows).columns ▸ table.key_subset_columns mem,
      (held.fits row inRows).keyed column mem⟩
  simp only [execute?, Table.ofName?_name, has, left?_eq_filter known, Option.bind_eq_bind,
    Option.bind_some]
  rfl

end Write

theorem Table.Holds.filter (held : table.Holds rows) (keep : Row → Bool) :
    table.Holds (rows.filter keep) where
  fits row mem := held.fits row (List.mem_of_mem_filter mem)
  distinct := held.distinct.sublist (List.filter_sublist.map _)

end Caseload.Sql
