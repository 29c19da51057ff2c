import Caseload.Proofs.Sql.Decoding
import Caseload.Proofs.Sql.Execution
import Caseload.Proofs.Sql.Statement
import Caseload.Store.Database

/-!
# Saving keeps everything

A task that is saved is written in one transaction: its row is put in the place of the one with its
id, the role rows of that id are deleted, and its own are inserted.  Whatever the tables held
before, what a database holds under the id afterwards is the task, and what it holds under other ids
stays as it was (`reads_back_saved`).
-/

namespace Caseload

open Sql (Cell Column Database Limit OrderTerm Row Select Server Session Statement Step Table Write)

/-! ## The rows of a task -/

theorem Task.fits_cells (t : Task) : Table.tasks.Fits t.cells where
  columns := rfl
  keyed := List.forall_mem_singleton.mpr ⟨t.id, rfl⟩

theorem RoleRow.fits_cells (id : String) (row : RoleRow) : Table.roles.Fits (row.cells id) where
  columns := rfl
  keyed := List.forall_mem_cons.mpr ⟨⟨id, rfl⟩, List.forall_mem_singleton.mpr ⟨row.role, rfl⟩⟩

def Task.roleRows (t : Task) : List Row :=
  t.roles.map (·.cells t.id)

theorem RoleRow.keyOf_cells (id : String) (row : RoleRow) :
    Table.roles.keyOf (row.cells id) = [.text id, .text row.role] :=
  rfl

namespace Sql

theorem spelled_of_fits {table : Table} {row : Row} (fits : table.Fits row) :
    ∀ cell ∈ row, (Token.word cell.1).wellSpelled = true := by
  intro cell mem
  have named : cell.1 ∈ table.columns := fits.columns ▸ List.mem_map_of_mem mem
  cases table with
  | tasks => exact (readable_taskColumns cell.1 named).spelled
  | roles => exact (readable_roleColumns cell.1 named).spelled

/-- What a selection shows of a row of its table. -/
def Select.shows? (s : Select) (row : Row) : Option Row :=
  match s.output with
  | .columns names => Scope.row? names [(s.source.shortName, row)]
  | .countDistinct _ => none

theorem keyOf_tasks_eq_iff {row : Row} {t : Task} :
    Table.tasks.keyOf row = Table.tasks.keyOf t.cells ↔
      row.get Table.tasks.taskColumn = .text t.id :=
  ⟨fun same => (List.cons.inj same).1, fun same => congrArg (fun value => [value]) same⟩

end Sql

/-! ## What is sent -/

namespace DatabaseStore

def savingRows (id : String) (rows : List RoleRow) : List Statement :=
  rows.map fun row => .insertRow (row.cells id)

/-- The statements that save a task. -/
def saving (t : Task) : List Statement :=
  [.begin, .upsertTask t.cells, .deleteRows t.id] ++ savingRows t.id t.roles ++ [.commit]

def rowSteps (id : String) (rows : List RoleRow) : List Step :=
  rows.map fun row => ⟨.saveRole row.role id, .insertRow (row.cells id)⟩

/-- The steps in which a task is written, as long as nothing is committed. -/
def writingSteps (t : Task) : List Step :=
  [⟨.start, .begin⟩, ⟨.saveTask t.id, .upsertTask t.cells⟩, ⟨.clearRoles t.id, .deleteRows t.id⟩] ++
    rowSteps t.id t.roles

def savingSteps (t : Task) : List Step :=
  writingSteps t ++ [⟨.commit t.id, .commit⟩]

@[simp] theorem map_statement_savingSteps (t : Task) :
    (savingSteps t).map Step.statement = saving t := by
  simp [savingSteps, writingSteps, rowSteps, saving, savingRows]

theorem follows_saveRows (id : String) (rows : List RoleRow) :
    (saveRows id rows).Follows (rowSteps id rows) := by
  induction rows with
  | nil => exact Session.follows_pure ()
  | cons row rest ih => exact (Session.follows_send _ _).bind fun _ => ih

theorem follows_save (t : Task) : (save t).Follows (savingSteps t) :=
  (Session.follows_send _ _).bind fun _ => (Session.follows_send _ _).bind fun _ =>
    (Session.follows_send _ _).bind fun _ => (follows_saveRows _ _).bind fun _ =>
      Session.follows_send _ _

/-- A session that saves a task sends its statements as long as they are accepted. -/
theorem run_save {server : Server} {t : Task} (accepts : server.Accepts [] (saving t)) :
    (save t).run.run server [] = (saving t, .ok ()) := by
  rw [← map_statement_savingSteps] at accepts
  rw [(follows_save t).run_eq, Sql.attempt_of_accepts accepts, map_statement_savingSteps,
    List.nil_append]

/-! ## What is executed -/

variable {db : Database}

theorem after?_upsertTask {t : Task} {rows : List Row} (has : db Table.tasks.name = some rows)
    (held : Table.tasks.Holds rows) (rest : List Statement) :
    db.after? (.upsertTask t.cells :: rest) =
      (db.set .tasks (Table.tasks.place t.cells rows)).after? rest := by
  have nonempty : Statement.updatedColumns t.cells ≠ [] := List.cons_ne_nil _ _
  exact Database.after?_cons
    (Statement.ofText?_upsertTask nonempty (Sql.spelled_of_fits t.fits_cells))
    (Write.execute?_insert_replacing (Write.replaces_updatedColumns t.fits_cells) has held
      t.fits_cells) rest

theorem after?_deleteRows {id : String} {rows : List Row} (has : db Table.roles.name = some rows)
    (held : Table.roles.Holds rows) (rest : List Statement) :
    db.after? (.deleteRows id :: rest) =
      (db.set .roles (rows.filter (·.get Column.rowTask.name ≠ .text id))).after? rest :=
  Database.after?_cons (Statement.ofText?_deleteRows id)
    (Write.execute?_delete (List.mem_cons_self ..) has held) rest

/-- Role rows with names that are new under an id, and of which no two are the same, are added one
by one. -/
theorem after?_savingRows {id : String} {rows : List Row} {added : List RoleRow}
    (has : db Table.roles.name = some rows) (held : Table.roles.Holds rows)
    (distinct : (added.map RoleRow.role).Nodup)
    (fresh : ∀ row ∈ rows, ∀ new ∈ added, Table.roles.keyOf row ≠ Table.roles.keyOf (new.cells id))
    (rest : List Statement) :
    db.after? (savingRows id added ++ rest) =
        (db.set .roles (rows ++ added.map (·.cells id))).after? rest ∧
      Table.roles.Holds (rows ++ added.map (·.cells id)) := by
  induction added generalizing db rows with
  | nil => simpa [savingRows, Database.set_eq_self has] using held
  | cons new others ih =>
    obtain ⟨unused, distinct⟩ := List.nodup_cons.mp distinct
    have freshNew : ∀ row ∈ rows, Table.roles.keyOf row ≠ Table.roles.keyOf (new.cells id) :=
      fun row mem => fresh row mem new (.head _)
    have first : db.after? (.insertRow (new.cells id) :: (savingRows id others ++ rest)) =
        (db.set .roles (rows ++ [new.cells id])).after? (savingRows id others ++ rest) :=
      Database.after?_cons
        (Statement.ofText?_insertRow (List.cons_ne_nil _ _)
          (Sql.spelled_of_fits (new.fits_cells id)))
        (Write.execute?_insert_fresh has held (new.fits_cells id) freshNew) _
    -- the row that was just added has another name than those still to come
    have freshOthers : ∀ row ∈ rows ++ [new.cells id], ∀ other ∈ others,
        Table.roles.keyOf row ≠ Table.roles.keyOf (other.cells id) := by
      simp only [List.forall_mem_append, List.forall_mem_singleton]
      refine ⟨fun row mem other later => fresh row mem other (.tail _ later),
        fun other later same => unused ?_⟩
      have names : new.role = other.role := by simpa [RoleRow.keyOf_cells] using same
      exact names ▸ List.mem_map_of_mem later
    have step := ih (Database.set_self db .roles _) (held.append (new.fits_cells id) freshNew)
      distinct freshOthers
    rw [Database.set_set, List.append_assoc] at step
    exact ⟨first.trans step.1, step.2⟩

/-- What the tables hold after a task was saved. -/
theorem after?_saving {t : Task} (distinct : (t.roles.map RoleRow.role).Nodup)
    {tasks roles : List Row} (hasTasks : db Table.tasks.name = some tasks)
    (heldTasks : Table.tasks.Holds tasks) (hasRoles : db Table.roles.name = some roles)
    (heldRoles : Table.roles.Holds roles) :
    let kept := roles.filter (·.get Column.rowTask.name ≠ .text t.id)
    db.after? (saving t) = some ((db.set .tasks (Table.tasks.place t.cells tasks)).set .roles
        (kept ++ t.roleRows)) ∧
      Table.roles.Holds (kept ++ t.roleRows) := by
  intro kept
  let placed := db.set .tasks (Table.tasks.place t.cells tasks)
  let cleared := placed.set .roles kept
  have hasPlaced : placed Table.roles.name = some roles :=
    (Database.set_of_ne (by decide)).trans hasRoles
  have fresh : ∀ row ∈ kept, ∀ new ∈ t.roles,
      Table.roles.keyOf row ≠ Table.roles.keyOf (new.cells t.id) := by
    intro row mem new _ same
    have other : row.get Column.rowTask.name ≠ .text t.id := by
      simpa using (List.mem_filter.mp mem).2
    exact other (List.cons.inj same).1
  obtain ⟨added, held⟩ := after?_savingRows (Database.set_self placed .roles kept)
    (heldRoles.filter _) distinct fresh [.commit]
  refine ⟨?_, held⟩
  calc db.after? (saving t)
    _ = db.after? (.upsertTask t.cells ::
          .deleteRows t.id :: (savingRows t.id t.roles ++ [.commit])) := by
      rw [saving, List.append_assoc]
      exact Database.after?_cons Statement.ofText?_begin rfl _
    _ = placed.after? (.deleteRows t.id :: (savingRows t.id t.roles ++ [.commit])) :=
      after?_upsertTask hasTasks heldTasks _
    _ = cleared.after? (savingRows t.id t.roles ++ [.commit]) :=
      after?_deleteRows hasPlaced heldRoles _
    _ = (cleared.set .roles (kept ++ t.roleRows)).after? [.commit] := added
    _ = some (placed.set .roles (kept ++ t.roleRows)) := by
      rw [Database.set_set]
      exact Database.after?_cons Statement.ofText?_commit rfl []

/-! ## What is read back -/

/-- A listing shows all columns of a task, whatever its condition, its order and its page. -/
theorem shows?_listTasks (t : Task) (p : Predicate) (order : SortOrder) (limit : Option Limit) :
    ∃ select,
      Select.ofText? (Statement.listTasks (.ofPredicate p) (OrderTerm.ofOrder order) limit).text
        (Statement.listTasks (.ofPredicate p) (OrderTerm.ofOrder order) limit).values =
          some select ∧
      select.shows? t.cells = some t.cells := by
  have nonempty : OrderTerm.ofOrder order ≠ [] := by simp [OrderTerm.ofOrder]
  exact ⟨_, Statement.ofText?_listTasks p nonempty (Statement.readable_ofOrder order),
    Sql.row?_taskColumns⟩

section

variable {t : Task} {tasks roles : List Row}

theorem rowsOf_tasks_place (held : Table.tasks.Holds tasks) :
    (Table.tasks.place t.cells tasks).filter (·.get Table.tasks.taskColumn = .text t.id) =
      [t.cells] := by
  have only : (Table.tasks.place t.cells tasks).filter
      (fun row => Table.tasks.keyOf row = Table.tasks.keyOf t.cells) = [t.cells] :=
    Table.filter_place_eq held
  simpa only [Sql.keyOf_tasks_eq_iff] using only

theorem rowsBut_tasks_place :
    (Table.tasks.place t.cells tasks).filter (·.get Table.tasks.taskColumn ≠ .text t.id) =
      tasks.filter (·.get Table.tasks.taskColumn ≠ .text t.id) := by
  have others : (Table.tasks.place t.cells tasks).filter
      (fun row => Table.tasks.keyOf row ≠ Table.tasks.keyOf t.cells) =
        tasks.filter fun row => Table.tasks.keyOf row ≠ Table.tasks.keyOf t.cells :=
    Table.filter_place_ne
  simpa only [Sql.keyOf_tasks_eq_iff, ne_eq] using others

theorem taskColumn_roleRows : ∀ row ∈ t.roleRows, row.get Table.roles.taskColumn = .text t.id :=
  List.forall_mem_map.mpr fun _ _ => rfl

theorem rowsOf_roles_append :
    (roles.filter (·.get Table.roles.taskColumn ≠ .text t.id) ++ t.roleRows).filter
      (·.get Table.roles.taskColumn = .text t.id) = t.roleRows := by
  have cleared : (roles.filter (·.get Table.roles.taskColumn ≠ .text t.id)).filter
      (·.get Table.roles.taskColumn = .text t.id) = [] := by
    refine List.filter_eq_nil_iff.mpr fun row mem => ?_
    simpa using (List.mem_filter.mp mem).2
  have own : t.roleRows.filter (·.get Table.roles.taskColumn = .text t.id) = t.roleRows :=
    List.filter_eq_self.mpr fun row mem => decide_eq_true (taskColumn_roleRows row mem)
  rw [List.filter_append, cleared, own, List.nil_append]

theorem rowsBut_roles_append :
    (roles.filter (·.get Table.roles.taskColumn ≠ .text t.id) ++ t.roleRows).filter
      (·.get Table.roles.taskColumn ≠ .text t.id) =
        roles.filter (·.get Table.roles.taskColumn ≠ .text t.id) := by
  have own : t.roleRows.filter (·.get Table.roles.taskColumn ≠ .text t.id) = [] := by
    refine List.filter_eq_nil_iff.mpr fun row mem => ?_
    simpa using taskColumn_roleRows row mem
  rw [List.filter_append, List.filter_filter, own, List.append_nil]
  simp only [Bool.and_self]

end

theorem found?_loadRows {id : String} {rows : List Row} (has : db Table.roles.name = some rows)
    (held : Table.roles.Holds rows) (order : List Sql.SortTerm) :
    (Select.loading [id] order).found? db = db.rowsOf .roles id := by
  have keyed : ∀ row ∈ rows, ∃ s, row.get Column.rowTask.name = .text s :=
    fun row mem => (held.fits row mem).keyed _ (List.mem_cons_self ..)
  rw [Sql.found?_loading has (fun row mem => (held.fits row mem).columns) keyed, Database.rowsOf,
    has, Option.map_some]
  refine congrArg some (List.filter_congr fun row _ => ?_)
  rw [Bool.eq_iff_iff, decide_eq_true_eq]
  simp [Table.taskColumn]

/-- The role rows of a task are read back in the order in which they are given. -/
theorem assemble_of_perm {t : Task} {given : List Row} (perm : given.Perm t.roleRows) :
    ∃ roles : List RoleRow, roles.Perm t.roles ∧
      given.mapM RoleRow.ofRow = .ok (roles.map (t.id, ·)) ∧
      StoredTask.assemble (roles.map (t.id, ·)) [t.stored] = .ok [{ t with roles }] := by
  obtain ⟨roles, reordered, rfl⟩ := Sql.exists_perm_of_perm_map perm
  exact ⟨roles, reordered, RoleRow.mapM_ofRow_cells t.id roles, StoredTask.assemble_stored t roles⟩

/-- A task that was saved is read back.  Whatever rows the tables held before, a server that accepts
what the database can execute takes all statements of the task; afterwards there is one row under
its id, which listings show in full and which is read to the task together with the role rows that
are loaded for the id, in whatever order they come, and these are its own; the rows of other tasks
are the ones that were there. -/
theorem reads_back_saved (t : Task) (distinct : (t.roles.map RoleRow.role).Nodup) (db : Database)
    (formed : db.Formed) (server : Server) (executes : server.Executes db) :
    ∃ (sent : List Statement) (after : Database),
      (save t).run.run server [] = (sent, .ok ()) ∧ db.after? sent = some after ∧ after.Formed ∧
      (∃ (row : Row) (stored : StoredTask), after.rowsOf .tasks t.id = some [row] ∧
        (∀ (p : Predicate) (order : SortOrder) (limit : Option Limit), ∃ select shown,
          Select.ofText? (Statement.listTasks (.ofPredicate p) (OrderTerm.ofOrder order) limit).text
            (Statement.listTasks (.ofPredicate p) (OrderTerm.ofOrder order) limit).values =
              some select ∧
          select.shows? row = some shown ∧ StoredTask.ofRow shown = .ok stored) ∧
        ∃ select found,
          Select.ofText? (Statement.loadRows [t.id]).text (Statement.loadRows [t.id]).values =
            some select ∧
          select.found? after = some found ∧
          ∀ given : List Row, given.Perm found → ∃ roles : List RoleRow, roles.Perm t.roles ∧
            given.mapM RoleRow.ofRow = .ok (roles.map (t.id, ·)) ∧
            StoredTask.assemble (roles.map (t.id, ·)) [stored] = .ok [{ t with roles }]) ∧
      ∀ table : Table, after.rowsBut table t.id = db.rowsBut table t.id := by
  obtain ⟨tasks, hasTasks, heldTasks⟩ := formed .tasks
  obtain ⟨roles, hasRoles, heldRoles⟩ := formed .roles
  obtain ⟨executed, held⟩ := after?_saving distinct hasTasks heldTasks hasRoles heldRoles
  let after := (db.set .tasks (Table.tasks.place t.cells tasks)).set .roles
    (roles.filter (·.get Table.roles.taskColumn ≠ .text t.id) ++ t.roleRows)
  have newTasks : after Table.tasks.name = some (Table.tasks.place t.cells tasks) :=
    (Database.set_of_ne (by decide)).trans (Database.set_self ..)
  have newRoles : after Table.roles.name =
      some (roles.filter (·.get Table.roles.taskColumn ≠ .text t.id) ++ t.roleRows) :=
    Database.set_self ..
  have loaded : (Select.loading [t.id] (Statement.loadTerms.map OrderTerm.sortTerm)).found? after =
      some t.roleRows := by
    rw [found?_loadRows newRoles held, Database.rowsOf, newRoles, Option.map_some,
      rowsOf_roles_append]
  refine ⟨saving t, after, run_save (executes.accepts executed), executed, ?_,
    ⟨t.cells, t.stored, ?_, fun p order limit => ?_, _, _, Statement.ofText?_loadRows [t.id],
      loaded, fun given perm => assemble_of_perm perm⟩, ?_⟩
  · rintro (_ | _)
    · exact ⟨_, newTasks, heldTasks.place t.fits_cells⟩
    · exact ⟨_, newRoles, held⟩
  · rw [Database.rowsOf, newTasks, Option.map_some, rowsOf_tasks_place heldTasks]
  · obtain ⟨select, read, shows⟩ := shows?_listTasks t p order limit
    exact ⟨select, t.cells, read, shows, StoredTask.ofRow_cells t⟩
  · rintro (_ | _)
    · rw [Database.rowsBut, newTasks, Option.map_some, rowsBut_tasks_place, Database.rowsBut,
        hasTasks, Option.map_some]
    · rw [Database.rowsBut, newRoles, Option.map_some, rowsBut_roles_append, Database.rowsBut,
        hasRoles, Option.map_some]

/-- A server that accepts everything and finds nothing. -/
def agreeable : Server
  | _, .begin | _, .commit | _, .upsertTask _ | _, .deleteRows _ | _, .insertRow _ => .ok ()
  | _, .listTasks .. | _, .matchRows _ | _, .loadRows _ => .ok []
  | _, .countTasks _ => .ok (0 : Int64)

/-- A task is saved in the place of an older version, which had a role row of the same name; the
other task keeps its own. -/
theorem reads_back_overwritten :
    let old : Task :=
      { Task.bare "a" "review" .unassigned "IA" "1" "Asylum" with
        title := some "First", roles := [{ role := "judge" }] }
    let new : Task :=
      { Task.bare "a" "decide" .assigned "IA" "1" "Asylum" with
        assignee := some "7", roles := [{ role := "clerk", own := true }, { role := "judge" }] }
    let other : Task :=
      { Task.bare "b" "review" .unassigned "IA" "2" "Asylum" with roles := [{ role := "judge" }] }
    let db := Database.ofTasks [old, other]
    (new.roles.map RoleRow.role).Nodup ∧ db.Formed ∧ agreeable.Executes db ∧
      ∃ (sent : List Statement) (after : Database) (row : Row) (stored : StoredTask)
        (roles : List RoleRow),
        (save new).run.run agreeable [] = (sent, .ok ()) ∧ db.after? sent = some after ∧
        after.rowsOf .tasks "a" = some [row] ∧ roles.Perm new.roles ∧
        StoredTask.assemble (roles.map ("a", ·)) [stored] = .ok [{ new with roles }] ∧
        after.rowsBut .tasks "a" = some [other.cells] ∧
        after.rowsBut .roles "a" = some other.roleRows := by
  intro old new other db
  have distinct : (new.roles.map RoleRow.role).Nodup := by decide
  have formed : db.Formed := by
    rintro (_ | _)
    · exact ⟨[old.cells, other.cells], rfl, by simp [Task.fits_cells], by decide⟩
    · exact ⟨old.roleRows ++ other.roleRows, rfl,
        by simp [Task.roleRows, old, other, RoleRow.fits_cells], by decide⟩
  have executes : agreeable.Executes db := by
    intro before s _
    cases s <;> exact ⟨_, rfl⟩
  obtain ⟨sent, after, ran, executed, -, ⟨row, stored, only, -, select, found, -, loaded, reads⟩,
    others⟩ := reads_back_saved new distinct db formed agreeable executes
  obtain ⟨roles, perm, -, assembled⟩ := reads found (.refl _)
  refine ⟨distinct, formed, executes, sent, after, row, stored, roles, ran, executed, only, perm,
    assembled, (others .tasks).trans ?_, (others .roles).trans ?_⟩
  · decide
  · decide

end DatabaseStore

end Caseload
