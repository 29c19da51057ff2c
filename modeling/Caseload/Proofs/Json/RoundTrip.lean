import Caseload.Proofs.Instant.RoundTrip
import Caseload.Proofs.Json.Records
import Caseload.RoleAssignment.Json
import Caseload.Task.Json

/-!
# Records in JSON and back

Tasks, their role rows and role assignments are read back from what they are written as, and also
from what is left of it when fields are left out that hold no more than what is read in their
place.
-/

namespace Caseload

open Json (Thins setField)

/-! ## Names and instants -/

theorem Instant.ofJson?_toJson (i : Instant) : Instant.ofJson? i.toJson = some i :=
  Instant.ofText?_toText i

theorem TaskState.ofJson?_toJson (s : TaskState) : TaskState.ofJson? s.toJson = some s := by
  cases s <;> rfl

theorem Classification.ofJson?_toJson (c : Classification) :
    Classification.ofJson? c.toJson = some c := by
  cases c <;> rfl

/-- Only its exact name, once trimmed, makes a text a guarded level. -/
theorem Classification.ofRoleText_eq (s : String) :
    ofRoleText s = if Text.trim s = "PRIVATE" then .privateLevel
      else if Text.trim s = "RESTRICTED" then .restrictedLevel else .publicLevel := by
  rw [ofRoleText]
  generalize Text.trim s = trimmed
  split
  next isPrivate =>
    subst isPrivate
    rfl
  next notPrivate =>
    split
    next isRestricted =>
      subst isRestricted
      rfl
    next notRestricted =>
      -- of the three names only that of the most open level is left
      have others : ∀ c : Classification, c.name = trimmed → c = .publicLevel
        | .publicLevel, _ => rfl
        | .privateLevel, same => absurd same.symm notPrivate
        | .restrictedLevel, same => absurd same.symm notRestricted
      cases found : ofName? trimmed with
      | none => rfl
      | some c => exact others c (by simpa using List.find?_some found)

theorem Classification.ofRoleText_name (c : Classification) : ofRoleText c.name = c := by
  cases c <;> decide +kernel

theorem Classification.ofRoleJson?_text (s : String) :
    ofRoleJson? (.text s) = some (ofRoleText s) := by
  simp only [ofRoleJson?, Json.option?, Json.text?, Option.map_some, Option.getD_some]

theorem Classification.ofRoleJson?_toJson (c : Classification) :
    ofRoleJson? c.toJson = some c := by
  rw [toJson, ofRoleJson?_text, ofRoleText_name]

theorem RoleScope.ofJson?_toJson (s : RoleScope) : RoleScope.ofJson? s.toJson = some s := by
  cases s <;> rfl

theorem Grant.ofJson?_toJson (g : Grant) : Grant.ofJson? g.toJson = some g := by
  cases g <;> rfl

namespace Json

theorem option?_text (o : Option String) : option? text? (ofOption .text o) = some o :=
  option?_ofOption (by simp) (by simp [text?]) o

theorem option?_texts (o : Option (List String)) : option? texts? (ofOption ofTexts o) = some o :=
  option?_ofOption (by simp [ofTexts, ofList]) texts?_ofTexts o

theorem option?_instant (o : Option Instant) :
    option? Instant.ofJson? (ofOption Instant.toJson o) = some o :=
  option?_ofOption (by simp [Instant.toJson]) Instant.ofJson?_toJson o

theorem option?_int32 (o : Option Int32) :
    option? int32? (ofOption (fun n => .integer n.toInt) o) = some o :=
  option?_ofOption (by simp) int32?_toInt o

end Json

/-! ## Role rows -/

namespace RoleRow

/-- The fields that a role row may lack: those that are `null`, and flags that are not set. -/
def MayLack (_name : String) (v : Json) : Prop :=
  v = .null ∨ v = .bool false

theorem eq_null_of_mayLack {α : Type} {encode : α → Json} {name : String} {o : Option α}
    (noFlag : ∀ a, encode a ≠ .bool false) (lacking : MayLack name (.ofOption encode o)) :
    Json.ofOption encode o = .null := by
  rcases lacking with null | flag
  · exact null
  · cases o with
    | none => rfl
    | some a => exact absurd flag (noFlag a)

theorem ofJson?_of_thins {row : RoleRow} {w : Json} (thins : Thins MayLack row.toJson w) :
    ofJson? w = some row := by
  obtain ⟨r, fields, kept⟩ :=
    Json.Record.exists_kept_of_thins (show fieldNames.Nodup by decide) rfl thins
  simp only [List.forall_mem_cons] at kept
  obtain ⟨role, category, read, own, execute, manage, cancel, refer, claim, assign, unassign,
    complete, authorizations, -⟩ := kept
  have role : r.required? "role_name" Json.text? = some row.role :=
    role.required? (by simp [MayLack]) rfl
  have category := category.optional? (Json.option?_text _) (eq_null_of_mayLack (by simp))
  have authorizations := authorizations.optional? (Json.option?_texts _)
    (eq_null_of_mayLack (by simp [Json.ofTexts, Json.ofList]))
  have flag {name : String} {b : Bool} (kept : r.Kept MayLack name (.bool b)) :
      r.withDefault? name false Json.bool? = some b :=
    kept.withDefault? rfl (by simp [MayLack])
  rw [ofJson?, bind_of_eq_some fields, bind_of_eq_some role, bind_of_eq_some category,
    bind_of_eq_some (flag read), bind_of_eq_some (flag own), bind_of_eq_some (flag execute),
    bind_of_eq_some (flag manage), bind_of_eq_some (flag cancel), bind_of_eq_some (flag refer),
    bind_of_eq_some (flag claim), bind_of_eq_some (flag assign), bind_of_eq_some (flag unassign),
    bind_of_eq_some (flag complete), bind_of_eq_some authorizations]
  rfl

end RoleRow

/-! ## Tasks -/

namespace Task

/-- The fields that a task may lack: those that are `null`, and an empty list of role rows. -/
def MayLack (name : String) (v : Json) : Prop :=
  v = .null ∨ name = "roles" ∧ v = .array []

section Fields

variable {r : Json.Record} {name : String}

theorem required?_text {s : String} (kept : r.Kept MayLack name (.text s)) :
    r.required? name Json.text? = some s :=
  kept.required? (by simp [MayLack]) rfl

theorem optional?_of_ne_roles {α : Type} {decode : Json.Decoder α} {x : Json} {o : Option α}
    (kept : r.Kept MayLack name x) (other : name ≠ "roles")
    (decoded : Json.option? decode x = some o) : r.optional? name decode = some o :=
  kept.optional? decoded (by simp [MayLack, other])

theorem optional?_text {o : Option String} (kept : r.Kept MayLack name (.ofOption .text o))
    (other : name ≠ "roles") : r.optional? name Json.text? = some o :=
  optional?_of_ne_roles kept other (Json.option?_text o)

theorem optional?_instant {o : Option Instant}
    (kept : r.Kept MayLack name (.ofOption Instant.toJson o)) (other : name ≠ "roles") :
    r.optional? name Instant.ofJson? = some o :=
  optional?_of_ne_roles kept other (Json.option?_instant o)

theorem optional?_int32 {o : Option Int32}
    (kept : r.Kept MayLack name (.ofOption (fun n => .integer n.toInt) o))
    (other : name ≠ "roles") : r.optional? name Json.int32? = some o :=
  optional?_of_ne_roles kept other (Json.option?_int32 o)

end Fields

/-- A task is read back from what is left of it when fields are left out of its role rows, and
then fields are left out of the task itself. -/
theorem ofJson?_of_thins {t : Task} {rows : List Json} {w : Json}
    (thinRows : List.Forall₂ (fun row v => Thins RoleRow.MayLack row.toJson v) t.roles rows)
    (thins : Thins MayLack (setField "roles" (.array rows) t.toJson) w) : ofJson? w = some t := by
  have readRows : Json.list? RoleRow.ofJson? (.array rows) = some t.roles :=
    mapM_eq_some_of_forall₂ (thinRows.imp fun _ _ => RoleRow.ofJson?_of_thins).flip
  rw [toJson, Json.setField_ofEntries] at thins
  obtain ⟨r, fields, kept⟩ :=
    Json.Record.exists_kept_of_thins (show fieldNames.Nodup by decide) rfl thins
  simp only [List.map_cons, List.map_nil, String.reduceEq, if_false, if_true,
    List.forall_mem_cons] at kept
  obtain ⟨id, name, type, state, jurisdiction, region, location, locationName, caseId, caseType,
    caseName, caseCategory, assignee, workType, roleCategory, classification, title, due,
    priorityDate, majorPriority, minorPriority, nextHearing, created, roles, -⟩ := kept
  have state := state.required? (by simp [MayLack, TaskState.toJson]) t.state.ofJson?_toJson
  have classification := classification.required? (by simp [MayLack, Classification.toJson])
    t.classification.ofJson?_toJson
  -- an empty list of rows can only be that of a task without role rows
  have roles : r.withDefault? "roles" [] (Json.list? RoleRow.ofJson?) = some t.roles := by
    refine roles.withDefault? readRows ?_
    rintro (null | ⟨-, empty⟩)
    · cases null
    · obtain rfl := Json.array.inj empty
      exact List.forall₂_nil_right_iff.mp thinRows
  rw [ofJson?, bind_of_eq_some fields, bind_of_eq_some (required?_text id),
    bind_of_eq_some (required?_text name), bind_of_eq_some (required?_text type),
    bind_of_eq_some state, bind_of_eq_some (required?_text jurisdiction),
    bind_of_eq_some (optional?_text region (by decide)),
    bind_of_eq_some (optional?_text location (by decide)),
    bind_of_eq_some (optional?_text locationName (by decide)),
    bind_of_eq_some (required?_text caseId), bind_of_eq_some (required?_text caseType),
    bind_of_eq_some (optional?_text caseName (by decide)),
    bind_of_eq_some (optional?_text caseCategory (by decide)),
    bind_of_eq_some (optional?_text assignee (by decide)),
    bind_of_eq_some (optional?_text workType (by decide)),
    bind_of_eq_some (optional?_text roleCategory (by decide)), bind_of_eq_some classification,
    bind_of_eq_some (optional?_text title (by decide)),
    bind_of_eq_some (optional?_instant due (by decide)),
    bind_of_eq_some (optional?_instant priorityDate (by decide)),
    bind_of_eq_some (optional?_int32 majorPriority (by decide)),
    bind_of_eq_some (optional?_int32 minorPriority (by decide)),
    bind_of_eq_some (optional?_instant nextHearing (by decide)),
    bind_of_eq_some (optional?_instant created (by decide)), bind_of_eq_some roles]
  rfl

theorem setField_roles_toJson (t : Task) :
    setField "roles" (.ofList RoleRow.toJson t.roles) t.toJson = t.toJson := by
  simp only [toJson, Json.setField_ofEntries, List.map_cons, List.map_nil, String.reduceEq,
    if_false, if_true]

theorem ofJson?_toJson (t : Task) : ofJson? t.toJson = some t := by
  have rows : List.Forall₂ (fun row v => Thins RoleRow.MayLack row.toJson v) t.roles
      (t.roles.map RoleRow.toJson) :=
    List.forall₂_map_right_iff.mpr (List.forall₂_same.mpr fun _ _ => Json.thins_refl _)
  refine ofJson?_of_thins rows ?_
  rw [← Json.ofList, setField_roles_toJson]
  exact Json.thins_refl _

end Task

/-! ## Role assignments -/

theorem TextSet.ofList_toList (held : TextSet) : .ofList held.toList = held :=
  Std.ExtTreeSet.ext_mem fun s => by simp

theorem TextMap.ofList_toList (attributes : TextMap) : .ofList attributes.toList = attributes := by
  refine Std.ExtTreeMap.ext_getElem? fun key => ?_
  cases found : attributes[key]? with
  | none =>
    refine Std.ExtTreeMap.getElem?_ofList_of_contains_eq_false ?_
    rw [Std.ExtTreeMap.map_fst_toList_eq_keys]
    simpa using found
  | some v =>
    exact Std.ExtTreeMap.getElem?_ofList_of_mem Std.ReflCmp.compare_self
      Std.ExtTreeMap.distinct_keys_toList
      (Std.ExtTreeMap.mem_toList_iff_getElem?_eq_some.mpr found)

theorem Json.option?_textSet (o : Option TextSet) :
    option? (fun v => (texts? v).map fun held => Std.ExtTreeSet.ofList held)
      (ofOption (fun held => ofTexts held.toList) o) = some o :=
  option?_ofOption (by simp [ofTexts, ofList])
    (fun held => by rw [texts?_ofTexts, Option.map_some, TextSet.ofList_toList]) o

theorem Json.entries?_toList (attributes : TextMap) :
    (entries? text? (.ofEntries (attributes.toList.map fun e => (e.1, .text e.2)))).map
      (fun entries => Std.ExtTreeMap.ofList entries) = some attributes := by
  rw [entries?_ofEntries (by simp [text?]), Option.map_some, TextMap.ofList_toList]

namespace RoleAssignment

/-- The fields that a role assignment may lack: those that are `null`, no attributes, and the most
open classification. -/
def MayLack (name : String) (v : Json) : Prop :=
  v = .null ∨ name = "attributes" ∧ v = .object [] ∨
    name = "classification" ∧ v = .text "PUBLIC"

/-- A role assignment is read back from what is left of it when fields are left out; where another
value stands for its classification, what that value is read as is all that changes. -/
theorem ofJson?_of_thins {r : RoleAssignment} {level w : Json} {c : Classification}
    (read : Classification.ofRoleJson? level = some c)
    (thins : Thins MayLack (setField "classification" level r.toJson) w) :
    ofJson? w = some { r with classification := c } := by
  rw [toJson, Json.setField_ofEntries] at thins
  obtain ⟨record, fields, kept⟩ :=
    Json.Record.exists_kept_of_thins (show fieldNames.Nodup by decide) rfl thins
  simp only [List.map_cons, List.map_nil, String.reduceEq, if_false, if_true,
    List.forall_mem_cons] at kept
  obtain ⟨actor, scope, role, classification, grant, category, authorisations, attributes, begins,
    ends, -⟩ := kept
  have actor : record.required? "actorId" Json.text? = some r.actor :=
    actor.required? (by simp [MayLack]) rfl
  have scope := scope.required? (by simp [MayLack, RoleScope.toJson]) r.scope.ofJson?_toJson
  have role : record.required? "roleName" Json.text? = some r.role :=
    role.required? (by simp [MayLack]) rfl
  -- both `null` and the name of the most open level are read as that level
  have classification :
      record.withDefault? "classification" .publicLevel Classification.ofRoleJson? = some c := by
    refine classification.withDefault? read ?_
    rintro (rfl | ⟨other, -⟩ | ⟨-, rfl⟩)
    · exact (Option.some.inj read).symm
    · exact absurd other (by decide)
    · have readPublic := Classification.ofRoleJson?_toJson .publicLevel
      exact Option.some.inj (read.symm.trans readPublic)
  have grant := grant.required? (by simp [MayLack, Grant.toJson]) r.grant.ofJson?_toJson
  have optional {α : Type} {name : String} {x : Json} {decode : Json.Decoder α} {o : Option α}
      (kept : record.Kept MayLack name x) (classified : name ≠ "classification")
      (attributed : name ≠ "attributes")
      (decoded : Json.option? decode x = some o) : record.optional? name decode = some o :=
    kept.optional? decoded (by simp [MayLack, classified, attributed])
  have category := optional category (by decide) (by decide) (Json.option?_text _)
  have authorisations := optional authorisations (by decide) (by decide)
    (Json.option?_textSet r.authorisations)
  have begins := optional begins (by decide) (by decide) (Json.option?_instant _)
  have ends := optional ends (by decide) (by decide) (Json.option?_instant _)
  have attributes : record.withDefault? "attributes" ∅
      (fun v => (Json.entries? Json.text? v).map fun entries => .ofList entries) =
        some r.attributes := by
    refine attributes.withDefault? (Json.entries?_toList r.attributes) ?_
    rintro (null | ⟨-, empty⟩ | ⟨other, -⟩)
    · cases null
    · have entries := List.map_eq_nil_iff.mp (List.map_eq_nil_iff.mp (Json.object.inj empty))
      exact Std.ExtTreeMap.toList_eq_nil_iff.mp entries
    · exact absurd other (by decide)
  rw [ofJson?, bind_of_eq_some fields, bind_of_eq_some actor, bind_of_eq_some scope,
    bind_of_eq_some role, bind_of_eq_some classification, bind_of_eq_some grant,
    bind_of_eq_some category, bind_of_eq_some authorisations, bind_of_eq_some attributes,
    bind_of_eq_some begins, bind_of_eq_some ends]
  rfl

theorem setField_classification_toJson (r : RoleAssignment) :
    setField "classification" r.classification.toJson r.toJson = r.toJson := by
  simp only [toJson, Json.setField_ofEntries, List.map_cons, List.map_nil, String.reduceEq,
    if_false, if_true]

end RoleAssignment

/-! ## Records read back -/

namespace Json

/-- Tasks and role assignments are read back from what they are written as.  Fields may be left
out of it, and out of the role rows of a task, where they are `null` or hold what is read in their
place.  Whatever text stands for the classification of a role assignment, it is read, and as a
guarded level only if it is the name of that level once trimmed. -/
theorem records_read_back :
    (∀ t : Task, Task.ofJson? t.toJson = some t ∧
      ∀ (rows : List Json) (w : Json),
        List.Forall₂ (fun row v => Thins RoleRow.MayLack row.toJson v) t.roles rows →
        Thins Task.MayLack (setField "roles" (.array rows) t.toJson) w →
        Task.ofJson? w = some t) ∧
    ∀ r : RoleAssignment, RoleAssignment.ofJson? r.toJson = some r ∧
      (∀ w, Thins RoleAssignment.MayLack r.toJson w → RoleAssignment.ofJson? w = some r) ∧
      ∀ s : String, RoleAssignment.ofJson? (setField "classification" (.text s) r.toJson) =
        some { r with
          classification :=
            if Text.trim s = "PRIVATE" then .privateLevel
            else if Text.trim s = "RESTRICTED" then .restrictedLevel
            else .publicLevel } := by
  refine ⟨fun t => ⟨t.ofJson?_toJson, fun _ _ => Task.ofJson?_of_thins⟩, fun r => ?_⟩
  have thinned (w : Json) (thins : Thins RoleAssignment.MayLack r.toJson w) :
      RoleAssignment.ofJson? w = some r := by
    rw [← r.setField_classification_toJson] at thins
    exact RoleAssignment.ofJson?_of_thins r.classification.ofRoleJson?_toJson thins
  refine ⟨thinned _ (thins_refl _), thinned, fun s => ?_⟩
  rw [← Classification.ofRoleText_eq]
  refine RoleAssignment.ofJson?_of_thins (Classification.ofRoleJson?_text s) ?_
  rw [RoleAssignment.toJson, setField_ofEntries]
  exact thins_refl _

/-- A task with one role row and a role assignment, as short as they can be written. -/
theorem sparse_records_read_back :
    Task.ofJson? (.ofEntries [("task_id", .text "1"), ("task_name", .text "review"),
      ("task_type", .text "review"), ("state", .text "ASSIGNED"), ("jurisdiction", .text "IA"),
      ("case_id", .text "17"), ("case_type_id", .text "Asylum"),
      ("security_classification", .text "PUBLIC"),
      ("roles", .array [.ofEntries [("role_name", .text "judge"), ("own", .bool true)]])]) =
      some ((Task.bare "1" "review" .assigned "IA" "17" "Asylum").withRole
        { role := "judge", own := true }) ∧
    RoleAssignment.ofJson? (.ofEntries [("actorId", .text "u"), ("roleType", .text "CASE"),
      ("roleName", .text "judge"), ("grantType", .text "SPECIFIC")]) =
      some { actor := "u", scope := .case, role := "judge", grant := .specific } := by
  let row : Json := .ofEntries [("role_name", .text "judge"), ("own", .bool true)]
  refine ⟨(records_read_back.1 _).2 [row] _ (.cons ?row .nil) ?task,
    (records_read_back.2 _).2.1 _ ?assignment⟩
  case row =>
    refine ⟨_, fun f => f.1 ∈ ["role_name", "own"], rfl, ?_, ?_⟩
    · rfl
    · simp [RoleRow.MayLack, ofOption]
  case task =>
    let names := ["task_id", "task_name", "task_type", "state", "jurisdiction", "case_id",
      "case_type_id", "security_classification", "roles"]
    refine ⟨_, fun f => f.1 ∈ names, setField_ofEntries _ _, ?_, ?_⟩
    · rfl
    · simp [names, Task.MayLack, Task.bare, Task.withRole, ofOption]
  case assignment =>
    refine ⟨_, fun f => f.1 ∈ ["actorId", "roleType", "roleName", "grantType"], rfl, ?_, ?_⟩
    · rfl
    · have noAttributes : (∅ : TextMap).toList = [] := Std.ExtTreeMap.toList_eq_nil_iff.mpr rfl
      simp [RoleAssignment.MayLack, ofOption, noAttributes, ofEntries, Classification.toJson,
        Classification.name]

end Json

end Caseload
