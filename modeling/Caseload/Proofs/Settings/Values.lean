import Caseload.Proofs.Settings.Loading
import Caseload.Proofs.Text.Integer

/-!
# The settings that variables set

`Settings.SetBy` says what an environment makes of each setting: what a variable is read as when it
holds something, and what stands for it when it holds nothing.  Loading gives these settings, and it
gives them whenever there are any (`load_eq_ok_iff`).
-/

namespace Caseload

namespace Environment

variable {env : Environment} {name value : String}

/-- A variable is set to more than blanks, and this is its text between blanks. -/
def Holds (env : Environment) (name value : String) : Prop :=
  value ≠ "" ∧ ∃ s, env name = some s ∧ Text.trim s = value

/-- A variable is not set, or to blanks only. -/
def Silent (env : Environment) (name : String) : Prop :=
  ∀ s, env name = some s → Text.trim s = ""

/-- A variable holds a text that is read as this, or it holds nothing and this is the default. -/
def Gives {α : Type} (env : Environment) (name : String) (reads : String → α → Prop)
    (default a : α) : Prop :=
  (∃ value, env.Holds name value ∧ reads value a) ∨ env.Silent name ∧ a = default

theorem holds_iff : env.Holds name value ↔ env.optional name = some value :=
  optional_eq_some_iff.symm

theorem holds_unique {other : String} (left : env.Holds name value) (right : env.Holds name other) :
    value = other :=
  Option.some.inj ((holds_iff.mp left).symm.trans (holds_iff.mp right))

theorem silent_iff : env.Silent name ↔ env.optional name = none := by
  rw [Silent, optional, Option.bind_eq_none_iff]
  simp [Text.nonBlank?]

/-- A variable gives an integer of 64 bits, written in decimal digits. -/
def GivesInteger (env : Environment) (name : String) (default n : Int64) : Prop :=
  env.Gives name (fun value n => Text.Numeral value.toList n.toInt) default n

section

variable {α : Type} {reads : String → α → Prop} {default a : α}

theorem gives_iff_of_some (given : env.optional name = some value) :
    env.Gives name reads default a ↔ reads value a := by
  simp [Gives, holds_iff, silent_iff, given]

theorem gives_iff_of_none (given : env.optional name = none) :
    env.Gives name reads default a ↔ a = default := by
  simp [Gives, holds_iff, silent_iff, given]

end

theorem required_eq_ok_iff : env.required name = .ok value ↔ env.Holds name value := by
  rw [required, holds_iff]
  cases env.optional name <;> simp

theorem integer_eq_ok_iff {default n : Int64} :
    env.integer name default = .ok n ↔ env.GivesInteger name default n := by
  rw [integer, GivesInteger]
  cases given : env.optional name with
  | none => simp [gives_iff_of_none given, eq_comm]
  | some value =>
    rw [gives_iff_of_some given, ← Text.parseInt64_eq_ok_iff]
    cases read : Text.parseInt64 value <;> simp [Except.mapError, read]

end Environment

namespace View

/-- The text is the word for a view, up to the case of its letters. -/
def Says (value : String) : View → Prop
  | tasks => value.toLower = "tasks"
  | summaries => value.toLower = "summaries"

theorem parse_eq_ok_iff {value : String} {view : View} :
    parse value = .ok view ↔ Says (Text.trim value) view := by
  constructor
  · intro read
    rw [parse] at read
    split at read
    next word =>
      cases read
      exact word
    next word =>
      cases read
      exact word
    next => cases read
  · intro word
    cases view with
    | tasks =>
      have folded : (Text.trim value).toLower = "tasks" := word
      rw [parse, folded]
      rfl
    | summaries =>
      have folded : (Text.trim value).toLower = "summaries" := word
      rw [parse, folded]
      rfl

end View

namespace Settings

/-- Where the tasks are: in memory as long as no other store is named, read from a file if one is
given, or at the address of the database. -/
inductive StoreSetBy (env : Environment) : StoreSetting → Prop
  | nowhere (inMemory : ∀ value, env.Holds "TASK_STORE" value → value.toLower = "memory")
      (noFile : env.Silent "TASK_FIXTURE_PATH") : StoreSetBy env (.memory none)
  | file {path : String}
      (inMemory : ∀ value, env.Holds "TASK_STORE" value → value.toLower = "memory")
      (given : env.Holds "TASK_FIXTURE_PATH" path) : StoreSetBy env (.memory (some path))
  | database {value url : String} (named : env.Holds "TASK_STORE" value)
      (inDatabase : value.toLower = "postgres") (given : env.Holds "DATABASE_URL" url) :
    StoreSetBy env (.database url)

/-- The pieces between commas that are more than blanks are names of these permissions, up to the
case of their letters, and there is one. -/
def Enumerates (value : String) (ps : List Permission) : Prop :=
  ps ≠ [] ∧ List.Forall₂ (fun piece p => piece.toLower = p.name)
    ((Text.trimmedPieces value).filter (· ≠ "")) ps

/-- The settings that the variables of an environment set. -/
structure SetBy (env : Environment) (s : Settings) : Prop where
  store : StoreSetBy env s.store
  offset : env.GivesInteger "SEARCH_OFFSET" 0 s.offset
  limit : env.GivesInteger "SEARCH_LIMIT" 25 s.limit
  permissions : env.Gives "SEARCH_PERMISSIONS" Enumerates [.read] s.permissions
  view : env.Gives "SEARCH_VIEW" View.Says .tasks s.view
  requestPath : env.Holds "SEARCH_REQUEST_PATH" s.requestPath
  rolesPath : env.Holds "ROLE_ASSIGNMENTS_PATH" s.rolesPath

variable {env : Environment}

/-! ## Each setting -/

theorem inMemory_iff :
    (∀ value, env.Holds "TASK_STORE" value → value.toLower = "memory") ↔
      storeName env = "memory" := by
  have folded : "memory".toLower = "memory" := by decide +kernel
  rw [storeName]
  cases given : env.optional "TASK_STORE" with
  | none => simp [Environment.holds_iff, given, folded]
  | some value => simp [Environment.holds_iff, given]

theorem inDatabase_iff :
    (∃ value, env.Holds "TASK_STORE" value ∧ value.toLower = "postgres") ↔
      storeName env = "postgres" := by
  have other : "memory".toLower ≠ "postgres" := by decide +kernel
  rw [storeName]
  cases given : env.optional "TASK_STORE" with
  | none => simp [Environment.holds_iff, given, other]
  | some value => simp [Environment.holds_iff, given]

theorem loadStore_eq_ok_iff {store : StoreSetting} :
    loadStore env = .ok store ↔ StoreSetBy env store := by
  rw [loadStore, ← storeName]
  constructor
  · intro loaded
    split at loaded
    next memory =>
      cases loaded
      have inMemory := inMemory_iff.mpr memory
      cases given : env.optional "TASK_FIXTURE_PATH" with
      | none => exact .nowhere inMemory (Environment.silent_iff.mpr given)
      | some path => exact .file inMemory (Environment.holds_iff.mpr given)
    next database =>
      obtain ⟨url, given, same⟩ := bind_eq_ok_iff.mp loaded
      cases same
      obtain ⟨value, named, inDatabase⟩ := inDatabase_iff.mpr database
      exact .database named inDatabase (Environment.required_eq_ok_iff.mp given)
    next => cases loaded
  · intro set
    cases set with
    | nowhere inMemory noFile =>
      rw [inMemory_iff.mp inMemory, Environment.silent_iff.mp noFile]
      rfl
    | file inMemory given =>
      rw [inMemory_iff.mp inMemory, Environment.holds_iff.mp given]
      rfl
    | database named inDatabase given =>
      rw [inDatabase_iff.mp ⟨_, named, inDatabase⟩]
      exact bind_eq_ok_iff.mpr ⟨_, Environment.required_eq_ok_iff.mpr given, rfl⟩

/-- Unless the database is asked for, the tasks are in memory, and one variable names their file. -/
theorem StoreSetBy.eq_memory {store : StoreSetting} (set : StoreSetBy env store)
    (inMemory : storeName env ≠ "postgres") :
    store = .memory (env.optional "TASK_FIXTURE_PATH") := by
  cases set with
  | nowhere _ noFile => rw [Environment.silent_iff.mp noFile]
  | file _ given => rw [Environment.holds_iff.mp given]
  | database named inDatabase =>
    exact absurd (inDatabase_iff.mp ⟨_, named, inDatabase⟩) inMemory

theorem parsePermissions_eq_ok_iff_enumerates {value : String} {ps : List Permission} :
    parsePermissions value = .ok ps ↔ Enumerates value ps := by
  rw [parsePermissions_eq_ok_iff, Enumerates, mapM_eq_ok_iff, ← Text.entries_eq_filter]
  -- pieces are trimmed already, so trimming each of them again leaves it as it is
  have each : ∀ entry ∈ Text.entries value, ∀ p,
      Permission.parse entry = .ok p ↔ entry.toLower = p.name :=
    fun entry mem p => parse_of_mem_entries mem
  refine and_congr_right fun _ => ⟨fun read => ?_, fun named => ?_⟩
  · have both := (List.forall₂_and_left _ _).mpr ⟨each, read⟩
    exact both.imp fun entry p ⟨reads, done⟩ => (reads p).mp done
  · have both := (List.forall₂_and_left _ _).mpr ⟨each, named⟩
    exact both.imp fun entry p ⟨reads, name⟩ => (reads p).mpr name

theorem loadPermissions_eq_ok_iff {ps : List Permission} :
    loadPermissions env = .ok ps ↔ env.Gives "SEARCH_PERMISSIONS" Enumerates [.read] ps := by
  rw [loadPermissions]
  cases given : env.optional "SEARCH_PERMISSIONS" with
  | none => simp [Environment.gives_iff_of_none given, eq_comm]
  | some value =>
    rw [Environment.gives_iff_of_some given]
    exact parsePermissions_eq_ok_iff_enumerates

theorem loadView_eq_ok_iff {view : View} :
    loadView env = .ok view ↔ env.Gives "SEARCH_VIEW" View.Says .tasks view := by
  rw [loadView]
  cases given : env.optional "SEARCH_VIEW" with
  | none => simp [Environment.gives_iff_of_none given, eq_comm]
  | some value =>
    -- a value is trimmed once more when it is read as a view
    obtain ⟨-, s, -, rfl⟩ := Environment.optional_eq_some_iff.mp given
    rw [Environment.gives_iff_of_some given, View.parse_eq_ok_iff, Text.trim_trim]

/-! ## All settings -/

theorem load_eq_ok_iff {s : Settings} : load env = .ok s ↔ SetBy env s := by
  simp only [load, bind_eq_ok_iff, loadStore_eq_ok_iff, loadPermissions_eq_ok_iff,
    loadView_eq_ok_iff, Environment.integer_eq_ok_iff, Environment.required_eq_ok_iff, pure,
    Except.pure, Except.ok.injEq]
  constructor
  · rintro ⟨_, store, _, offset, _, limit, _, permissions, _, view, _, request, _, roles, rfl⟩
    exact ⟨store, offset, limit, permissions, view, request, roles⟩
  · rintro ⟨store, offset, limit, permissions, view, request, roles⟩
    exact ⟨_, store, _, offset, _, limit, _, permissions, _, view, _, request, _, roles, rfl⟩

end Settings

end Caseload
