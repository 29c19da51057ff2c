import Caseload.Sql.Tables

/-!
# Reading back what was written

The rows that tasks and role rows become are read to the tasks and role rows that they came from.
-/

namespace Caseload

open Sql (Row Value)

/-! ## Columns -/

namespace Sql.Row

variable {row : Row} {column : String}

theorem text_of_get {s : String} (held : row.get column = .text s) : row.text column = .ok s := by
  rw [text, held]

theorem boolean_of_get {b : Bool} (held : row.get column = .boolean b) :
    row.boolean column = .ok b := by
  rw [boolean, held]

theorem text?_of_get {value : Option String} (held : row.get column = .ofOption .text value) :
    row.text? column = .ok value := by
  rw [text?, held]
  cases value <;> rfl

theorem texts?_of_get {value : Option (List String)}
    (held : row.get column = .ofOption .texts value) : row.texts? column = .ok value := by
  rw [texts?, held]
  cases value <;> rfl

theorem timestamp?_of_get {value : Option Instant}
    (held : row.get column = .ofOption .timestamp value) : row.timestamp? column = .ok value := by
  rw [timestamp?, held]
  cases value <;> rfl

/-- An integer that was written is in the range in which it is read. -/
theorem int32?_of_get {value : Option Int32}
    (held : row.get column = .ofOption (fun n => .integer n.toInt) value) :
    row.int32? column = .ok value := by
  rw [int32?, held]
  cases value with
  | none => rfl
  | some n =>
    have bounds : Int32.minValue.toInt ≤ n.toInt ∧ n.toInt ≤ Int32.maxValue.toInt :=
      ⟨n.minValue_le_toInt, n.toInt_le⟩
    simp only [Value.ofOption, if_pos bounds, Int32.ofInt_toInt]

end Sql.Row

/-! ## Names -/

/-- The name of a state has no blanks around it and is in upper case. -/
theorem TaskState.ofText?_name (s : TaskState) : TaskState.ofText? s.name = some s := by
  have upper : (Text.trim s.name).toUpper = s.name := by
    rw [← String.toList_inj, String.toUpper, String.toList_map]
    cases s <;> decide
  rw [ofText?, upper]
  cases s <;> decide

theorem Classification.ofName?_name (c : Classification) :
    Classification.ofName? c.name = some c := by
  cases c <;> decide

/-! ## Rows -/

theorem RoleRow.ofRow_cells (id : String) (row : RoleRow) :
    RoleRow.ofRow (row.cells id) = .ok (id, row) := by
  rw [RoleRow.ofRow]
  repeat rw [Row.text_of_get rfl]
  repeat rw [Row.boolean_of_get rfl]
  rw [Row.text?_of_get rfl, Row.texts?_of_get rfl]
  rfl

theorem RoleRow.mapM_ofRow_cells (id : String) (rows : List RoleRow) :
    (rows.map (·.cells id)).mapM RoleRow.ofRow = .ok (rows.map (id, ·)) := by
  induction rows with
  | nil => rfl
  | cons row rest ih =>
    rw [List.map_cons, List.mapM_cons, RoleRow.ofRow_cells, ih]
    rfl

/-- The row of the table of tasks that a task becomes. -/
def Task.stored (t : Task) : StoredTask :=
  { t with state := t.state.name, classification := t.classification.name }

theorem StoredTask.ofRow_cells (t : Task) : StoredTask.ofRow t.cells = .ok t.stored := by
  rw [StoredTask.ofRow]
  repeat rw [Row.text_of_get rfl]
  repeat rw [Row.text?_of_get rfl]
  repeat rw [Row.timestamp?_of_get rfl]
  repeat rw [Row.int32?_of_get rfl]
  rfl

/-- State and classification pass through their names unchanged. -/
theorem StoredTask.toTask_stored (t : Task) (roles : List RoleRow) :
    t.stored.toTask roles = .ok { t with roles } := by
  simp only [toTask, Task.stored, TaskState.ofText?_name, Classification.ofName?_name]

/-- A task takes all role rows that belong to it. -/
theorem StoredTask.assemble_stored (t : Task) (roles : List RoleRow) :
    StoredTask.assemble (roles.map (t.id, ·)) [t.stored] = .ok [{ t with roles }] := by
  have own : (roles.map (t.id, ·)).partition (fun row => row.1 = t.stored.id) =
      (roles.map (t.id, ·), []) := by
    have same : ∀ row ∈ roles.map (t.id, ·), row.1 = t.stored.id :=
      List.forall_mem_map.mpr fun _ _ => rfl
    rw [List.partition_eq_filter_filter]
    refine Prod.ext (List.filter_eq_self.mpr fun row mem => ?_)
      (List.filter_eq_nil_iff.mpr fun row mem => ?_)
    · exact decide_eq_true (same row mem)
    · simpa using same row mem
  have shown : (roles.map (t.id, ·)).map Prod.snd = roles := by
    rw [List.map_map]
    exact List.map_id roles
  rw [assemble, show List.partition _ (roles.map (t.id, ·)) = _ from own]
  simp only [shown, toTask_stored]
  rfl

end Caseload
