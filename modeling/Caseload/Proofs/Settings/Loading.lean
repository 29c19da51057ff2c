import Caseload.Proofs.Settings.Permissions

/-!
# Loading settings

Settings are made of what nine variables hold between blanks, so padding does not change them
(`load_congr`).  Eight checks go over the variables in a fixed order, and `Fault` says what each of
them finds wrong, whatever the others find.  Loading reports the first fault
(`load_eq_error_iff_firstFault`) and goes well when there is none.
-/

namespace Caseload

/-- Two variables hold the same: the same text between blanks, or both of them nothing. -/
inductive HoldSame : Option String → Option String → Prop
  | text {s u : String} (given : Text.trim s ≠ "") (same : Text.trim s = Text.trim u) :
    HoldSame (some s) (some u)
  | nothing {v w : Option String} (left : ∀ s ∈ v, Text.trim s = "")
      (right : ∀ s ∈ w, Text.trim s = "") : HoldSame v w

theorem holdSame_iff {v w : Option String} :
    HoldSame v w ↔ v.bind Text.nonBlank? = w.bind Text.nonBlank? := by
  have nothing {v : Option String} :
      v.bind Text.nonBlank? = none ↔ ∀ s ∈ v, Text.trim s = "" := by
    simp [Option.bind_eq_none_iff, Text.nonBlank?]
  constructor
  · intro same
    cases same with
    | text _ same => simp [Text.nonBlank?, same]
    | nothing left right => rw [nothing.mpr left, nothing.mpr right]
  · intro same
    cases given : v.bind Text.nonBlank? with
    | none => exact .nothing (nothing.mp given) (nothing.mp (same.symm.trans given))
    | some value =>
      obtain ⟨s, rfl, left⟩ := Option.bind_eq_some_iff.mp given
      obtain ⟨u, rfl, right⟩ := Option.bind_eq_some_iff.mp (same.symm.trans given)
      obtain ⟨nonblank, rfl⟩ := Text.nonBlank?_eq_some_iff.mp left
      obtain ⟨-, alike⟩ := Text.nonBlank?_eq_some_iff.mp right
      exact .text nonblank alike.symm

instance (v w : Option String) : Decidable (HoldSame v w) :=
  decidable_of_iff' _ holdSame_iff

namespace Environment

variable {env : Environment} {name : String}

theorem optional_eq_some_iff {value : String} :
    env.optional name = some value ↔
      value ≠ "" ∧ ∃ s, env name = some s ∧ Text.trim s = value := by
  rw [optional, Option.bind_eq_some_iff]
  simp only [Text.nonBlank?_eq_some_iff]
  constructor
  · rintro ⟨s, held, given, rfl⟩
    exact ⟨given, s, held, rfl⟩
  · rintro ⟨given, s, held, rfl⟩
    exact ⟨s, held, given, rfl⟩

/-- A variable that has to be given is not, and that is the fault. -/
def Lacks (env : Environment) (name : String) (e : Error) : Prop :=
  env.optional name = none ∧ e = .missingSetting name

/-- A variable is given and is no integer of 64 bits, and that is the fault. -/
def NoInteger (env : Environment) (name : String) (e : Error) : Prop :=
  ∃ value fault, env.optional name = some value ∧ Text.parseInt64 value = .error fault ∧
    e = .invalidInteger name fault

theorem required_eq_error_iff {e : Error} : env.required name = .error e ↔ env.Lacks name e := by
  rw [required, Lacks]
  cases env.optional name <;> simp [eq_comm]

theorem integer_eq_error_iff {default : Int64} {e : Error} :
    env.integer name default = .error e ↔ env.NoInteger name e := by
  rw [integer, NoInteger]
  cases env.optional name with
  | none => simp
  | some value => cases bad : Text.parseInt64 value <;> simp [Except.mapError, bad, eq_comm]

end Environment

namespace View

theorem parse_eq_error_iff {value : String} {e : Error} :
    parse value = .error e ↔
      (∀ v : View, (Text.trim value).toLower ≠ v.name) ∧
        e = .unknownView (Text.trim value).toLower := by
  rw [parse]
  split
  next named =>
    refine iff_of_false nofun fun unnamed => unnamed.1 .tasks named
  next named =>
    refine iff_of_false nofun fun unnamed => unnamed.1 .summaries named
  next other tasks summaries =>
    rw [Except.error.injEq, eq_comm]
    refine (and_iff_right fun v => ?_).symm
    cases v with
    | tasks => exact tasks
    | summaries => exact summaries

end View

namespace Settings

/-- The checks on the variables, in the order in which they are made. -/
inductive Check
  | store
  | databaseUrl
  | offset
  | limit
  | permissions
  | view
  | requestPath
  | rolesPath
  deriving DecidableEq

def Check.all : List Check :=
  [store, databaseUrl, offset, limit, permissions, view, requestPath, rolesPath]

/-- The store that is asked for, in lower case; where nothing is asked for, it is the memory. -/
def storeName (env : Environment) : String :=
  ((env.optional "TASK_STORE").getD "memory").toLower

/-- What a check finds wrong. -/
def Fault (env : Environment) : Check → Error → Prop
  | .store, e =>
    storeName env ≠ "memory" ∧ storeName env ≠ "postgres" ∧ e = .unknownStore (storeName env)
  | .databaseUrl, e => storeName env = "postgres" ∧ env.Lacks Settings.databaseUrl e
  | .offset, e => env.NoInteger "SEARCH_OFFSET" e
  | .limit, e => env.NoInteger "SEARCH_LIMIT" e
  | .permissions, e =>
    ∃ value, env.optional "SEARCH_PERMISSIONS" = some value ∧ NoPermissions value e
  | .view, e =>
    ∃ value, env.optional "SEARCH_VIEW" = some value ∧ (∀ v : View, value.toLower ≠ v.name) ∧
      e = .unknownView value.toLower
  | .requestPath, e => env.Lacks "SEARCH_REQUEST_PATH" e
  | .rolesPath, e => env.Lacks "ROLE_ASSIGNMENTS_PATH" e

variable {env : Environment} {e : Error}

/-! ## Each check -/

theorem loadStore_eq_error_iff :
    loadStore env = .error e ↔ FirstFault (Fault env) [.store, .databaseUrl] e := by
  rw [firstFault_cons_iff, firstFault_singleton_iff, loadStore, ← storeName]
  simp only [Fault]
  split
  next memory => simp [memory]
  next database =>
    rw [bind_eq_error_iff, Environment.required_eq_error_iff]
    simp [database, pure, Except.pure]
  next notMemory notDatabase =>
    have memory : storeName env ≠ "memory" := notMemory
    have database : storeName env ≠ "postgres" := notDatabase
    simp [memory, database, eq_comm]

theorem loadPermissions_eq_error_iff :
    loadPermissions env = .error e ↔ Fault env .permissions e := by
  rw [loadPermissions, Fault]
  cases env.optional "SEARCH_PERMISSIONS" with
  | none => simp
  | some value => simp [parsePermissions_eq_error_iff]

theorem loadView_eq_error_iff : loadView env = .error e ↔ Fault env .view e := by
  rw [loadView, Fault]
  cases given : env.optional "SEARCH_VIEW" with
  | none => simp
  | some value =>
    obtain ⟨-, s, -, rfl⟩ := Environment.optional_eq_some_iff.mp given
    simp [View.parse_eq_error_iff, Text.trim_trim]

/-! ## All checks -/

theorem load_eq_error_iff_firstFault (env : Environment) (e : Error) :
    load env = .error e ↔ FirstFault (Fault env) Check.all e := by
  refine bind_eq_error_iff_firstFault (fun _ => loadStore_eq_error_iff) fun store _ => ?_
  refine bind_eq_error_iff_firstFault_cons (fun _ => Environment.integer_eq_error_iff)
    fun offset _ => ?_
  refine bind_eq_error_iff_firstFault_cons (fun _ => Environment.integer_eq_error_iff)
    fun limit _ => ?_
  refine bind_eq_error_iff_firstFault_cons (fun _ => loadPermissions_eq_error_iff)
    fun permissions _ => ?_
  refine bind_eq_error_iff_firstFault_cons (fun _ => loadView_eq_error_iff) fun view _ => ?_
  refine bind_eq_error_iff_firstFault_cons (fun _ => Environment.required_eq_error_iff)
    fun request _ => ?_
  refine bind_eq_error_iff_firstFault_cons (fun _ => Environment.required_eq_error_iff)
    fun roles _ => ?_
  exact pure_eq_error_iff_firstFault

theorem load_congr {other : Environment}
    (same : ∀ name ∈ variableNames, HoldSame (env name) (other name)) :
    load env = load other := by
  have given : ∀ name ∈ variableNames, env.optional name = other.optional name :=
    fun name mem => holdSame_iff.mp (same name mem)
  -- nothing else of an environment is looked at
  simp only [variableNames, List.forall_mem_cons, List.not_mem_nil, IsEmpty.forall_iff,
    implies_true, and_true] at given
  obtain ⟨store, tasks, url, offset, limit, permissions, view, request, roles⟩ := given
  simp only [load, loadStore, loadPermissions, loadView, Environment.integer, Environment.required,
    store, tasks, url, offset, limit, permissions, view, request, roles]

theorem loadPermissions_of_given {value : String}
    (held : env "SEARCH_PERMISSIONS" = some value) (given : Text.trim value ≠ "") :
    loadPermissions env = parsePermissions (Text.trim value) := by
  have optional : env.optional "SEARCH_PERMISSIONS" = some (Text.trim value) :=
    Environment.optional_eq_some_iff.mpr ⟨given, value, held, rfl⟩
  rw [loadPermissions, optional]

theorem names_trim {value : String} {p : Permission} :
    Names (Text.trim value) p ↔ Names value p := by
  rw [Names, Names, Text.trimmedPieces_trim]

theorem listsPermissions_trim {value : String} :
    ListsPermissions (Text.trim value) ↔ ListsPermissions value := by
  rw [ListsPermissions, ListsPermissions, Text.trimmedPieces_trim]

/-- Loading settings goes by what the variables hold between blanks, and has one order of errors.
Environments whose variables hold the same give the same settings or the same error.  The error is
the first fault of the checks in their order, and there are settings when no check finds a fault.  A
text of required permissions is accepted exactly when it lists permissions, and texts that name the
same permissions make the same condition of every search. -/
theorem load_ignores_padding_and_orders_faults :
    (∀ env other : Environment, (∀ name ∈ variableNames, HoldSame (env name) (other name)) →
      load env = load other) ∧
    (∀ env : Environment,
      (∀ e, load env = .error e ↔ FirstFault (Fault env) Check.all e) ∧
        ((∃ s, load env = .ok s) ↔ ∀ c ∈ Check.all, ∀ e, ¬ Fault env c e)) ∧
    (∀ (env : Environment) (value : String), env "SEARCH_PERMISSIONS" = some value →
      Text.trim value ≠ "" →
        ((∃ ps, loadPermissions env = .ok ps) ↔ ListsPermissions value) ∧
          ∀ ps, loadPermissions env = .ok ps → ∀ p, p ∈ ps ↔ Names value p) ∧
    (∀ (env other : Environment) (value text : String) (ps qs : List Permission),
      env "SEARCH_PERMISSIONS" = some value → Text.trim value ≠ "" →
      other "SEARCH_PERMISSIONS" = some text → Text.trim text ≠ "" →
      loadPermissions env = .ok ps → loadPermissions other = .ok qs →
      (∀ p, Names value p ↔ Names text p) →
        ∀ (c : Caller) (r : SearchRequest), c.searchCondition r ps = c.searchCondition r qs) := by
  have members {env : Environment} {value : String} {ps : List Permission}
      (held : env "SEARCH_PERMISSIONS" = some value) (given : Text.trim value ≠ "")
      (loaded : loadPermissions env = .ok ps) (p : Permission) : p ∈ ps ↔ Names value p := by
    rw [loadPermissions_of_given held given] at loaded
    rw [mem_iff_names loaded, names_trim]
  refine ⟨fun env other => load_congr, fun env => ⟨load_eq_error_iff_firstFault env, ?_⟩, ?_, ?_⟩
  · exact exists_ok_iff_of_firstFault (load_eq_error_iff_firstFault env)
  · intro env value held given
    refine ⟨?_, fun ps loaded => members held given loaded⟩
    rw [loadPermissions_of_given held given, exists_parsePermissions_eq_ok_iff,
      listsPermissions_trim]
  · intro env other value text ps qs held given held' given' loaded loaded' same c r
    refine Caller.searchCondition_congr (fun p => ?_) c r
    rw [members held given loaded, same, members held' given' loaded']

/-- Padding around settings, and permissions named in another order, in capitals and twice. -/
theorem loads_alike_when_padded :
    let plain : Environment := fun name =>
      List.lookup name [("SEARCH_PERMISSIONS", "read,own"), ("SEARCH_REQUEST_PATH", "r.json")]
    let padded : Environment := fun name =>
      List.lookup name [("SEARCH_PERMISSIONS", " read,own "), ("SEARCH_REQUEST_PATH", "r.json\n"),
        ("SEARCH_LIMIT", "\t")]
    let another : Environment := fun name =>
      List.lookup name [("SEARCH_PERMISSIONS", "OWN, Read ,,own")]
    load padded = load plain ∧
      FirstFault (Fault padded) Check.all (.missingSetting "ROLE_ASSIGNMENTS_PATH") ∧
      loadPermissions padded = .ok [.read, .own] ∧
      loadPermissions another = .ok [.own, .read, .own] ∧
      ∀ (c : Caller) (r : SearchRequest),
        c.searchCondition r [.read, .own] = c.searchCondition r [.own, .read, .own] := by
  intro plain padded another
  obtain ⟨alike, faults, accepted, conditions⟩ := load_ignores_padding_and_orders_faults
  have first : loadPermissions padded = .ok [.read, .own] := by decide +kernel
  have second : loadPermissions another = .ok [.own, .read, .own] := by decide +kernel
  refine ⟨alike padded plain (by decide +kernel), ?_, first, second, ?_⟩
  · exact ((faults padded).1 _).mp (by decide +kernel)
  · refine conditions padded another _ _ _ _ rfl (by decide) rfl (by decide) first second
      fun p => ?_
    rw [← (accepted padded _ rfl (by decide)).2 _ first,
      ← (accepted another _ rfl (by decide)).2 _ second]
    cases p <;> decide

end Settings

end Caseload
