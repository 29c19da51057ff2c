import Caseload.Proofs.SearchRequest.Conversion
import Caseload.Proofs.Sql.Schema
import Caseload.Proofs.Store.Listing

/-!
# Tasks put together from rows

A listing gives rows of tasks, and the rows of their roles are loaded in one go, those of all tasks
in one list.  Each task takes its own role rows out of what is left of that list.  No two tasks have
the same id, so nothing that a task takes is missed by a later one, and the tasks are made row by
row as if each of them saw the whole list (`assemble_eq_mapM`).  The first row that makes no task
then decides how the listing fails (`listing_assembles_rows`).
-/

namespace Caseload

open Sql (OrderTerm Row Server Session Statement Table roleColumns taskColumns)

/-! ## Names in rows -/

theorem TaskState.ofText?_eq_some_iff {value : String} {s : TaskState} :
    ofText? value = some s ↔ (Text.trim value).toUpper = s.name := by
  rw [ofText?, ofName?_eq_some_iff]

theorem Classification.ofName?_eq_some_iff {name : String} {c : Classification} :
    ofName? name = some c ↔ name = c.name := by
  constructor
  · intro found
    simpa [eq_comm] using List.find?_some found
  · rintro rfl
    exact ofName?_name c

/-- The state of the row is the name of one, trimmed and in upper case. -/
def Sql.Row.NamesState (row : Row) : Prop :=
  ∃ (text : String) (s : TaskState), row.get "state" = .text text ∧
    (Text.trim text).toUpper = s.name

/-- The classification of the row is exactly the name of one. -/
def Sql.Row.NamesClassification (row : Row) : Prop :=
  ∃ c : Classification, row.get "security_classification" = .text c.name

/-! ## One task -/

/-- A task has all columns of a row, and as role rows those of the same id, in their order. -/
structure Assembled (roleRows : List Row) (row : Row) (t : Task) : Prop where
  columns : ∀ column ∈ taskColumns, column ≠ "state" → Row.get t.cells column = row.get column
  state : ∃ text, row.get "state" = .text text ∧ (Text.trim text).toUpper = t.state.name
  roles : List.Forall₂
    (fun (r : RoleRow) given => ∀ column ∈ roleColumns, Row.get (r.cells t.id) column =
      given.get column)
    t.roles (roleRows.filter fun given => given.get "task_id" = row.get "task_id")

theorem Sql.Value.map_text_inj {xs ys : List String} :
    xs.map text = ys.map text ↔ xs = ys :=
  (List.map_injective_iff.mpr fun _ _ same => text.inj same).eq_iff

/-- The names of the roles are those of the role rows of the id. -/
theorem Assembled.map_role_eq {roleRows : List Row} {row : Row} {t : Task} {names : List String}
    (assembled : Assembled roleRows row t)
    (listed : (roleRows.filter fun given => given.get "task_id" = row.get "task_id").map
      (Row.get · "role_name") = names.map .text) :
    t.roles.map RoleRow.role = names := by
  have each : t.roles.map (fun r => Row.get (r.cells t.id) "role_name") = names.map .text := by
    rw [← listed, ← List.forall₂_eq_eq_eq, List.forall₂_map_left_iff, List.forall₂_map_right_iff]
    exact assembled.roles.imp fun r given same => same "role_name" (by decide)
  rw [← Sql.Value.map_text_inj, List.map_map]
  exact each

/-- The error names the task of a row and what is wrong with it, the state first. -/
inductive Refuses (row : Row) (e : Error) : Prop
  | state {id text : String} (task : row.get "task_id" = .text id)
    (stored : row.get "state" = .text text) (none : ¬ row.NamesState)
    (message : e.message = s!"internal error: task '{id}' has an invalid stored state: " ++
      s!"validation error: unknown task state '{text}'")
  | classification {id text : String} (task : row.get "task_id" = .text id)
    (stored : row.get "security_classification" = .text text) (named : row.NamesState)
    (none : ¬ row.NamesClassification)
    (message : e.message =
      s!"internal error: task '{id}' has an invalid stored classification: " ++
        s!"validation error: unknown classification '{text}'")

theorem Refuses.unnamed {row : Row} {e : Error} (refuses : Refuses row e) :
    ¬ (row.NamesState ∧ row.NamesClassification) := by
  cases refuses with
  | state _ _ none => exact fun named => none named.1
  | classification _ _ _ none => exact fun named => none named.2

/-- Only what stands between the id and the value tells the wordings of stored names apart. -/
theorem Error.label_noSuchStored {part subject between : String} (id value : String)
    (wording : "' has an invalid stored " ++ part ++ ": validation error: unknown " ++ subject ++
      " '" = between) :
    ErrorKind.internal.label (noSuchStored id part subject value) =
      s!"internal error: task '{id}{between}{value}'" := by
  subst wording
  have front : "internal" ++ " error: " ++ "task '" = "internal error: task '" := rfl
  have middle : ": " ++ ("validation" ++ " error: " ++ "unknown ") =
    ": validation error: unknown " := rfl
  rw [← front, ← middle]
  change "internal" ++ " error: " ++ ("task '" ++ id ++ "' has an invalid stored " ++ part ++
    ": " ++ ("validation" ++ " error: " ++ ("unknown " ++ subject ++ " '" ++ value ++ "'"))) = _
  simp only [String.append_assoc, toString]

theorem Error.message_storedState (id text : String) :
    (storedState id text).message = s!"internal error: task '{id}' has an invalid stored state: " ++
      s!"validation error: unknown task state '{text}'" := by
  refine (label_noSuchStored id text rfl).trans ?_
  simp only [String.append_assoc, toString]
  rfl

theorem Error.message_storedClassification (id text : String) :
    (storedClassification id text).message =
      s!"internal error: task '{id}' has an invalid stored classification: " ++
        s!"validation error: unknown classification '{text}'" := by
  refine (label_noSuchStored id text rfl).trans ?_
  simp only [String.append_assoc, toString]
  rfl

theorem RoleRow.get_task_of_ofRow {row : Row} {id : String} {r : RoleRow}
    (read : RoleRow.ofRow row = .ok (id, r)) : row.get "task_id" = .text id :=
  (RoleRow.get_cells_of_ofRow read "task_id" (by decide)).symm

theorem forall₂_filter_roles {roleRows : List Row} {read : List (String × RoleRow)} {row : Row}
    {id : String} (task : row.get "task_id" = .text id)
    (each : List.Forall₂ (fun given r => RoleRow.ofRow given = .ok r) roleRows read) :
    List.Forall₂
      (fun (r : RoleRow) given => ∀ column ∈ roleColumns, Row.get (r.cells id) column =
        given.get column)
      ((read.filter (·.1 = id)).map Prod.snd)
      (roleRows.filter fun given => given.get "task_id" = row.get "task_id") := by
  induction each with
  | nil => exact .nil
  | @cons given r roleRows read decoded _ ih =>
    have belongs := RoleRow.get_task_of_ofRow decoded
    by_cases own : r.1 = id
    · subst own
      rw [List.filter_cons_of_pos (by simp), List.filter_cons_of_pos (by simp [belongs, task])]
      exact .cons (RoleRow.get_cells_of_ofRow decoded) ih
    · rw [List.filter_cons_of_neg (by simpa using own),
        List.filter_cons_of_neg (by simpa [belongs, task] using own)]
      exact ih

namespace StoredTask

variable {row : Row} {s : StoredTask} {t : Task} {roles : List RoleRow} {e : Error}

theorem get_of_ofRow (read : ofRow row = .ok s) :
    row.get "task_id" = .text s.id ∧ row.get "state" = .text s.state ∧
      row.get "security_classification" = .text s.classification := by
  have columns := get_cells_of_ofRow read
  exact ⟨(columns "task_id" (by decide)).symm, (columns "state" (by decide)).symm,
    (columns "security_classification" (by decide)).symm⟩

theorem namesState_iff (read : ofRow row = .ok s) :
    row.NamesState ↔ ∃ state, TaskState.ofText? s.state = some state := by
  obtain ⟨-, stored, -⟩ := get_of_ofRow read
  simp [Row.NamesState, stored, TaskState.ofText?_eq_some_iff]

theorem namesClassification_iff (read : ofRow row = .ok s) :
    row.NamesClassification ↔ ∃ c, Classification.ofName? s.classification = some c := by
  obtain ⟨-, -, stored⟩ := get_of_ofRow read
  simp [Row.NamesClassification, stored, Classification.ofName?_eq_some_iff]

/-- What becomes of a stored task: it is refused for its state, or for its classification, or it is
a task with the role rows that it is given. -/
theorem toTask_cases (s : StoredTask) (roles : List RoleRow) :
    (TaskState.ofText? s.state = none ∧ s.toTask roles = .error (.storedState s.id s.state)) ∨
    (∃ state, TaskState.ofText? s.state = some state ∧
      Classification.ofName? s.classification = none ∧
      s.toTask roles = .error (.storedClassification s.id s.classification)) ∨
    ∃ t c, TaskState.ofText? s.state = some t.state ∧
      Classification.ofName? s.classification = some c ∧ s.toTask roles = .ok t ∧
      t.id = s.id ∧ t.roles = roles := by
  cases state : TaskState.ofText? s.state with
  | none => simp [toTask, state]
  | some state' =>
    cases c : Classification.ofName? s.classification with
    | none => simp [toTask, state, c]
    | some c' => simp [toTask, state, c]

/-- The role rows of a stored task among some that were read. -/
def rolesAmong (read : List (String × RoleRow)) (s : StoredTask) : List RoleRow :=
  (read.filter (·.1 = s.id)).map Prod.snd

theorem rolesAmong_filter_not {read : List (String × RoleRow)} {u : StoredTask} (ne : u.id ≠ s.id) :
    rolesAmong (read.filter fun r => !decide (r.1 = s.id)) u = rolesAmong read u := by
  rw [rolesAmong, List.filter_filter, rolesAmong]
  congr 1
  apply List.filter_congr
  intro r _
  by_cases mine : r.1 = u.id <;> simp [mine, ne]

/-- Where no two tasks have the same id, each of them is made as if it saw all role rows: those that
are left have all that belong to the tasks still to come. -/
theorem assemble_eq_mapM {read left : List (String × RoleRow)} {stored : List StoredTask}
    (distinct : (stored.map StoredTask.id).Nodup)
    (kept : ∀ s ∈ stored, rolesAmong left s = rolesAmong read s) :
    assemble left stored = stored.mapM fun s => s.toTask (rolesAmong read s) := by
  induction stored generalizing left with
  | nil => rfl
  | cons s rest ih =>
    obtain ⟨fresh, distinct⟩ := List.nodup_cons.mp distinct
    obtain ⟨own, others⟩ := List.forall_mem_cons.mp kept
    -- the role rows that go with the first task are those of its id, and no later task has it
    have later : ∀ u ∈ rest,
        rolesAmong (left.filter fun r => !decide (r.1 = s.id)) u = rolesAmong read u := by
      intro u mem
      have ne : u.id ≠ s.id := fun same => fresh (same ▸ List.mem_map_of_mem mem)
      rw [rolesAmong_filter_not ne, others u mem]
    have parted : left.partition (fun r => decide (r.1 = s.id)) =
        (left.filter (·.1 = s.id), left.filter fun r => !decide (r.1 = s.id)) :=
      List.partition_eq_filter_filter ..
    rw [assemble, show List.partition _ left = _ from parted, List.mapM_cons,
      ← ih distinct later, ← own]
    rfl

section

variable (decoded : ofRow row = .ok s)
include decoded

theorem assembled_of_toTask {roleRows : List Row} {read : List (String × RoleRow)}
    (each : List.Forall₂ (fun given r => RoleRow.ofRow given = .ok r) roleRows read)
    (made : s.toTask (rolesAmong read s) = .ok t) : Assembled roleRows row t := by
  obtain ⟨task, stored, -⟩ := get_of_ofRow decoded
  obtain ⟨-, failed⟩ | ⟨-, -, -, failed⟩ | ⟨u, c, state, -, made', id, roles⟩ :=
    s.toTask_cases (rolesAmong read s)
  · cases made.symm.trans failed
  · cases made.symm.trans failed
  · obtain rfl : t = u := Except.ok.inj (made.symm.trans made')
    refine ⟨fun column mem other => ?_, ⟨_, stored, TaskState.ofText?_eq_some_iff.mp state⟩, ?_⟩
    · rw [get_cells_of_toTask made other, get_cells_of_ofRow decoded column mem]
    · rw [roles, id]
      exact forall₂_filter_roles task each

theorem exists_toTask_iff :
    (∃ t, s.toTask roles = .ok t) ↔ row.NamesState ∧ row.NamesClassification := by
  rw [namesState_iff decoded, namesClassification_iff decoded]
  obtain ⟨state, failed⟩ | ⟨_, state, c, failed⟩ | ⟨t, c, state, named, made, -⟩ :=
    s.toTask_cases roles
  · simp [state, failed]
  · simp [state, c, failed]
  · simp [state, named, made]

theorem refuses_of_toTask (failed : s.toTask roles = .error e) :
    Refuses row e ∧ e.kind = .internal := by
  obtain ⟨task, storedState, storedClassification⟩ := get_of_ofRow decoded
  obtain ⟨state, failed'⟩ | ⟨_, state, c, failed'⟩ | ⟨t, c, -, -, made, -⟩ := s.toTask_cases roles
  · obtain rfl := Except.error.inj (failed.symm.trans failed')
    have none : ¬ row.NamesState := by simp [namesState_iff decoded, state]
    exact ⟨.state task storedState none (Error.message_storedState _ _), rfl⟩
  · obtain rfl := Except.error.inj (failed.symm.trans failed')
    have named : row.NamesState := by simp [namesState_iff decoded, state]
    have none : ¬ row.NamesClassification := by simp [namesClassification_iff decoded, c]
    exact ⟨.classification task storedClassification named none
      (Error.message_storedClassification _ _), rfl⟩
  · cases failed.symm.trans made

end

end StoredTask

/-! ## Rows that come back -/

namespace Sql.Server

variable (server : Server)

/-- Whatever is listed, the server replies with these rows. -/
def Lists (rows : List Row) : Prop :=
  ∀ before condition order limit, server before (.listTasks condition order limit) = .ok rows

/-- Whatever role rows are loaded, the server replies with these. -/
def Loads (rows : List Row) : Prop :=
  ∀ before ids, server before (.loadRows ids) = .ok rows

/-- A server that counts some number of tasks and replies with the same rows each time. -/
def giving (total : Int64) (rows roleRows : List Row) : Server
  | _, .begin | _, .commit | _, .upsertTask _ | _, .deleteRows _ | _, .insertRow _ => .ok ()
  | _, .listTasks .. => .ok rows
  | _, .matchRows _ | _, .loadRows _ => .ok roleRows
  | _, .countTasks _ => .ok total

end Sql.Server

namespace DatabaseStore

variable {server : Server} {before : List Statement} {stage : Stage} {α : Type}

theorem run_readRows_of_ok {read : Row → Except StatementFailure α} {rows : List Row}
    {values : List α} (readable : rows.mapM read = .ok values) :
    (readRows stage read rows).run.run server before = (before, .ok values) := by
  rw [readRows, readable]
  rfl

theorem run_loadRows_of_ok {ids : List String} {roleRows : List Row}
    {read : List (String × RoleRow)} (some : ids ≠ [])
    (loaded : server before (.loadRows ids) = .ok roleRows)
    (readable : roleRows.mapM RoleRow.ofRow = .ok read) :
    (loadRows ids).run.run server before = (before ++ [.loadRows ids], .ok read) := by
  unfold loadRows
  split
  next => exact absurd rfl some
  next => rw [Session.run_bind_of_ok (Session.run_send_of_ok loaded), run_readRows_of_ok readable]

theorem run_loadRows_of_error {ids : List String} {failure : StatementFailure} (some : ids ≠ [])
    (refused : server before (.loadRows ids) = .error failure) :
    (loadRows ids).run.run server before =
      (before ++ [.loadRows ids], .error (.statement .loadRoles failure)) := by
  unfold loadRows
  split
  next => exact absurd rfl some
  next => exact Session.run_bind_of_error (Session.run_send_of_error refused)

/-- Once tasks are listed and read, only their role rows are missing. -/
theorem run_list_of_ok {q : Query} {limit : Option Sql.Limit} {rows : List Row}
    {stored : List StoredTask} (converted : q.page.mapM Window.toLimit = .ok limit)
    (listed : server before (.listTasks (.ofPredicate q.predicate) (OrderTerm.ofOrder q.order)
      limit) = .ok rows)
    (readable : rows.mapM StoredTask.ofRow = .ok stored) :
    (list q).run.run server before =
      (do
        let read ← loadRows (stored.map StoredTask.id)
        liftExcept (StoredTask.assemble read stored) : Session (List Task)).run.run server
        (before ++ [.listTasks (.ofPredicate q.predicate) (OrderTerm.ofOrder q.order) limit]) := by
  rw [list, converted, Session.run_bind_of_ok (Session.run_liftExcept _),
    Session.run_bind_of_ok (Session.run_send_of_ok listed),
    Session.run_bind_of_ok (run_readRows_of_ok readable)]

/-- What becomes of a row beside all role rows that were read. -/
def making (read : List (String × RoleRow)) (row : Row) : Except Error Task := do
  let s ← (StoredTask.ofRow row).mapError (.statement .listTasks)
  s.toTask (StoredTask.rolesAmong read s)

section

variable {q : Query} {limit : Option Sql.Limit} {rows roleRows : List Row}
  {read : List (String × RoleRow)}

theorem making_of_ofRow {row : Row} {s : StoredTask} (decoded : StoredTask.ofRow row = .ok s) :
    making read row = s.toTask (StoredTask.rolesAmong read s) := by
  rw [making, decoded]
  rfl

theorem making_eq_ok_iff {row : Row} {t : Task} :
    making read row = .ok t ↔
      ∃ s, StoredTask.ofRow row = .ok s ∧ s.toTask (StoredTask.rolesAmong read s) = .ok t := by
  rw [making, bind_eq_ok_iff]
  cases StoredTask.ofRow row <;> simp [Except.mapError]

theorem map_id_of_ofRow {stored : List StoredTask}
    (each : List.Forall₂ (fun row s => StoredTask.ofRow row = .ok s) rows stored) :
    rows.map (Row.get · "task_id") = (stored.map StoredTask.id).map .text := by
  induction each with
  | nil => rfl
  | cons decoded _ ih =>
    rw [List.map_cons, List.map_cons, List.map_cons, ih, (StoredTask.get_of_ofRow decoded).1]

theorem run_list_of_read {stored : List StoredTask} (server : Server)
    (converted : q.page.mapM Window.toLimit = .ok limit) (lists : server.Lists rows)
    (loads : server.Loads roleRows) (readTasks : rows.mapM StoredTask.ofRow = .ok stored)
    (readRoles : roleRows.mapM RoleRow.ofRow = .ok read) :
    ((list q).run.run server []).2 = StoredTask.assemble read stored := by
  rw [run_list_of_ok converted (lists _ _ _ _) readTasks]
  cases stored with
  | nil => rfl
  | cons s rest =>
    have some : (s :: rest).map StoredTask.id ≠ [] := by simp
    rw [Session.run_bind_of_ok (run_loadRows_of_ok some (loads _ _) readRoles),
      Session.run_liftExcept]

/-- Where all rows can be read, they are made into tasks row by row. -/
theorem run_list_eq_mapM (server : Server) (converted : q.page.mapM Window.toLimit = .ok limit)
    (lists : server.Lists rows) (loads : server.Loads roleRows)
    (admitted : ∀ row ∈ rows, Table.tasks.Admits row)
    (readRoles : roleRows.mapM RoleRow.ofRow = .ok read)
    (distinct : (rows.map (Row.get · "task_id")).Nodup) :
    ((list q).run.run server []).2 = rows.mapM (making read) := by
  obtain ⟨stored, readTasks⟩ := StoredTask.exists_mapM_ofRow admitted
  have each := mapM_eq_ok_iff.mp readTasks
  rw [map_id_of_ofRow each] at distinct
  rw [run_list_of_read server converted lists loads readTasks readRoles,
    StoredTask.assemble_eq_mapM distinct.of_map fun _ _ => rfl]
  exact (mapM_eq_of_forall₂ (each.imp fun _ _ decoded => making_of_ofRow decoded)).symm

end

/-- Tasks are put together row by row.  Whatever a server lists, in columns that hold what their
tables promise, and with no id twice: where every row names a state and a classification, it
becomes a task of its own, with all of its columns and with just the role rows of its id, in the
order in which the server gives them.  Otherwise the listing fails with what is wrong with the first
row that does not. -/
theorem listing_assembles_rows (q : Query) (limit : Option Sql.Limit) (server : Server)
    (rows roleRows : List Row) (converted : q.page.mapM Window.toLimit = .ok limit)
    (lists : server.Lists rows) (loads : server.Loads roleRows)
    (admitted : ∀ row ∈ rows, Table.tasks.Admits row)
    (admittedRoles : ∀ row ∈ roleRows, Table.roles.Admits row)
    (distinct : (rows.map (Row.get · "task_id")).Nodup) :
    ((∀ row ∈ rows, row.NamesState ∧ row.NamesClassification) →
      ∃ tasks, ((list q).run.run server []).2 = .ok tasks ∧
        List.Forall₂ (Assembled roleRows) rows tasks) ∧
    ((∃ row ∈ rows, ¬ (row.NamesState ∧ row.NamesClassification)) →
      ∃ before row after e, rows = before ++ row :: after ∧
        (∀ given ∈ before, given.NamesState ∧ given.NamesClassification) ∧
        ((list q).run.run server []).2 = .error e ∧ e.kind = .internal ∧ Refuses row e) := by
  have readable : ∀ row ∈ rows, ∃ s, StoredTask.ofRow row = .ok s := fun row mem =>
    StoredTask.exists_ofRow_eq_ok_iff.mpr (admitted row mem)
  obtain ⟨read, readRoles⟩ := RoleRow.exists_mapM_ofRow admittedRoles
  have eachRole := mapM_eq_ok_iff.mp readRoles
  -- a row makes a task exactly where it has names for its state and its classification
  have makes : ∀ row ∈ rows,
      (∃ t, making read row = .ok t) ↔ row.NamesState ∧ row.NamesClassification := by
    intro row mem
    obtain ⟨s, decoded⟩ := readable row mem
    rw [making_of_ofRow decoded, StoredTask.exists_toTask_iff decoded]
  rw [run_list_eq_mapM server converted lists loads admitted readRoles distinct]
  refine ⟨fun named => ?assembled, fun ⟨row, mem, unnamed⟩ => ?refused⟩
  case assembled =>
    obtain ⟨tasks, made⟩ := exists_mapM_eq_ok fun row mem => (makes row mem).mpr (named row mem)
    refine ⟨tasks, made, (mapM_eq_ok_iff.mp made).imp fun row t making => ?_⟩
    obtain ⟨s, decoded, made⟩ := making_eq_ok_iff.mp making
    exact StoredTask.assembled_of_toTask decoded eachRole made
  case refused =>
    cases made : rows.mapM (making read) with
    | ok tasks => exact absurd ((makes row mem).mp (exists_ok_of_mapM_eq_ok made row mem)) unnamed
    | error e =>
      obtain ⟨before, first, after, rfl, fine, failed⟩ := mapM_eq_error_iff.mp made
      obtain ⟨s, decoded⟩ := readable first (by simp)
      rw [making_of_ofRow decoded] at failed
      obtain ⟨refuses, kind⟩ := StoredTask.refuses_of_toTask decoded failed
      refine ⟨before, first, after, e, rfl, fun given earlier => ?_, rfl, kind, refuses⟩
      exact (makes given (by simp [earlier])).mp (fine given earlier)

/-- Of two tasks the one takes a role row and the other one two, around a row of a third task; a
second task that has neither a state nor a classification is refused for its state. -/
theorem listing_assembles_two_rows :
    let a : StoredTask :=
      { (Task.bare "a" "review" .assigned "IA" "1" "Asylum").stored with state := " Assigned " }
    let b := (Task.bare "b" "decide" .unassigned "IA" "2" "Bail").stored
    let unnamed : StoredTask := { b with state := "open", classification := "public" }
    let role (id name : String) : Row := RoleRow.cells id { role := name }
    let roleRows := [role "b" "clerk", role "c" "judge", role "a" "clerk", role "b" "judge"]
    let q : Query := ⟨.constant true, ⟨[]⟩, none⟩
    (∃ t u, ((list q).run.run (.giving 2 [a.cells, b.cells] roleRows) []).2 = .ok [t, u] ∧
      t.state = .assigned ∧ t.roles.map RoleRow.role = ["clerk"] ∧
      u.roles.map RoleRow.role = ["clerk", "judge"]) ∧
    ∃ e, ((list q).run.run (.giving 2 [a.cells, unnamed.cells] roleRows) []).2 = .error e ∧
      e.message = "internal error: task 'b' has an invalid stored state: " ++
        "validation error: unknown task state 'open'" := by
  intro a b unnamed role roleRows q
  have admittedRoles : ∀ row ∈ roleRows, Table.roles.Admits row := by
    simp [roleRows, role, RoleRow.admits_cells]
  have run (s : StoredTask) (other : s.id = "b") := by
    exact listing_assembles_rows q none (.giving 2 [a.cells, s.cells] roleRows)
      [a.cells, s.cells] roleRows rfl (fun _ _ _ _ => rfl) (fun _ _ => rfl)
      (by simp [StoredTask.admits_cells]) admittedRoles
      (by simp [StoredTask.cells, Row.get_cons, a, other, Task.stored, Task.bare])
  have upper : (Text.trim " Assigned ").toUpper = TaskState.assigned.name := by
    rw [← String.toList_inj, String.toUpper, String.toList_map]
    decide
  have namedA : Row.NamesState a.cells ∧ Row.NamesClassification a.cells :=
    ⟨⟨" Assigned ", .assigned, rfl, upper⟩, .publicLevel, rfl⟩
  constructor
  · obtain ⟨assembles, -⟩ := run b rfl
    have upperB := TaskState.ofText?_eq_some_iff.mp (TaskState.ofText?_name .unassigned)
    have namedB : Row.NamesState b.cells ∧ Row.NamesClassification b.cells :=
      ⟨⟨_, .unassigned, rfl, upperB⟩, .publicLevel, rfl⟩
    obtain ⟨tasks, ran, each⟩ := assembles (by simp [namedA, namedB])
    obtain ⟨t, u, rfl⟩ : ∃ t u, tasks = [t, u] := List.length_eq_two.mp each.length_eq.symm
    obtain ⟨first, second, -⟩ :
        Assembled roleRows a.cells t ∧ Assembled roleRows b.cells u ∧ _ := by
      simpa only [List.forall₂_cons] using each
    obtain ⟨text, stored, named⟩ := first.state
    obtain rfl : " Assigned " = text := Sql.Value.text.inj stored
    have state := TaskState.ofText?_eq_some_iff.mpr named
    rw [TaskState.ofText?_eq_some_iff.mpr upper, Option.some.injEq] at state
    exact ⟨t, u, ran, state.symm, first.map_role_eq rfl, second.map_role_eq rfl⟩
  · obtain ⟨-, refuses⟩ := run unnamed rfl
    have none : TaskState.ofText? "open" = none := by
      have upper : (Text.trim "open").toUpper = "OPEN" := by
        rw [← String.toList_inj, String.toUpper, String.toList_map]
        decide
      rw [TaskState.ofText?, upper]
      decide
    have unnamedB : ¬ Row.NamesState unnamed.cells := by
      rintro ⟨text, state, stored, named⟩
      obtain rfl : "open" = text := Sql.Value.text.inj stored
      cases none.symm.trans (TaskState.ofText?_eq_some_iff.mpr named)
    obtain ⟨before, row, after, e, split, named, failed, -, refused⟩ :=
      refuses ⟨unnamed.cells, by simp, fun named => unnamedB named.1⟩
    have mem : row ∈ [a.cells, unnamed.cells] := by simp [split]
    obtain rfl | rfl : row = a.cells ∨ row = unnamed.cells := by simpa using mem
    · exact absurd namedA refused.unnamed
    · refine ⟨e, failed, ?_⟩
      cases refused with
      | state task stored none message =>
        obtain rfl := Sql.Value.text.inj task
        obtain rfl := Sql.Value.text.inj stored
        exact message
      | classification _ _ named => exact absurd named unnamedB

end DatabaseStore

end Caseload
