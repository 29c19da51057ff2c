import Caseload.Proofs.CommandLine.Stages
import Caseload.Proofs.Json.Plain

/-!
# Searching from the command line

A search that needs no database goes through its stages (`goesThrough_search`).  So it ends with the
error of the first stage that has a fault, printing nothing, or it prints one document: the page
that its view shows of the tasks, with the signatures of the request (`search_reports_first_fault`).
-/

namespace Caseload.CommandLine

variable {env : Environment} {contentOf : String → Option String} {s : Settings} {tasks : List Task}
  {r : SearchRequest} {roles : List RoleAssignment} {page : Window} {now : Instant}

/-- The tasks that are loaded: those of a file, or none without one. -/
inductive LoadsTasks (contentOf : String → Option String) : StoreSetting → List Task → Prop
  | nowhere : LoadsTasks contentOf (.memory none) []
  | file {path : String} {tasks : List Task}
      (read : Loading.Decodes (Json.list? Task.ofJson?) (contentOf path) tasks) :
    LoadsTasks contentOf (.memory (some path)) tasks

/-- What a run has come to know when it searches: what the variables set, what the files hold, and
the page. -/
structure Inputs (env : Environment) (contentOf : String → Option String) (s : Settings)
    (tasks : List Task) (r : SearchRequest) (roles : List RoleAssignment) (page : Window) :
    Prop where
  settings : Settings.SetBy env s
  tasks : LoadsTasks contentOf s.store tasks
  request : Loading.DecodesRequest (contentOf s.requestPath) r
  roles : Loading.Decodes (Json.list? RoleAssignment.ofJson?) (contentOf s.rolesPath) roles
  offset : (page.offset : Int) = s.offset.toInt
  limit : (page.limit : Int) = s.limit.toInt

/-- The document for what a search of a store finds, as a view shows it: the tasks of the page, how
many tasks there are, and the signatures of the request. -/
inductive Shows (store : TaskStore (Except Error)) (c : Caller) (r : SearchRequest)
    (required : List Permission) (page : Window) : View → Json → Prop
  | tasks {found : SearchResult Task} (searched : store.search c r required page = .ok found) :
    Shows store c r required page .tasks (.object [
      (some "tasks", .array (found.tasks.map Task.toJson)),
      (some "total_records", .integer found.total),
      (some "filter_signatures", .array (r.signatures.toList.map Json.text))])
  | summaries {found : SearchResult TaskSummary}
      (searched : store.searchSummaries c r required page = .ok found) :
    Shows store c r required page .summaries (.object [
      (some "tasks", .array (found.tasks.map TaskSummary.toJson)),
      (some "total_records", .integer found.total),
      (some "filter_signatures", .array (r.signatures.toList.map Json.text))])

/-! ## Each stage -/

theorem run_liftExcept {α : Type} (reply : Except Error α) (read : List String) :
    (liftExcept reply : Noting α).run.run read = (reply, read) := by
  cases reply <;> rfl

section

variable {store : MemoryStore} {c : Caller} {required : List Permission} {e : Error}

/-- A store in memory lists a page of whatever it is asked for. -/
theorem exists_listPage_eq_ok (store : MemoryStore) (p : Predicate) (order : SortOrder)
    (page : Window) :
    ∃ found, (store.toTaskStore : TaskStore (Except Error)).listPage p order page = .ok found := by
  rw [TaskStore.listPage]
  split
  · exact ⟨_, rfl⟩
  · exact ⟨_, rfl⟩

/-- Only the guard in front of a listing can end a search. -/
theorem guarded_eq_error_iff {α : Type} {p : Predicate} {order : SortOrder}
    {finish : SearchResult Task → α} :
    (do
      MonadExcept.ofExcept r.requireFilter
      let found ← (store.toTaskStore : TaskStore (Except Error)).listPage p order page
      return finish found : Except Error α) = .error e ↔ r.Unfiltered ∧ e = .noFilter := by
  obtain ⟨found, listed⟩ := exists_listPage_eq_ok store p order page
  rw [bind_eq_error_iff, ofExcept_eq, SearchRequest.requireFilter_refuses_iff, or_iff_left]
  rintro ⟨-, -, failed⟩
  rw [listed] at failed
  cases failed

theorem render_eq_error_iff {view : View} :
    render store.toTaskStore view c r required page = .error e ↔ r.Unfiltered ∧ e = .noFilter := by
  cases view with
  | tasks =>
    simp only [render, TaskStore.search, bind_assoc, pure_bind]
    exact guarded_eq_error_iff
  | summaries =>
    simp only [render, TaskStore.searchSummaries, bind_assoc, pure_bind]
    exact guarded_eq_error_iff

theorem shows_of_render_eq_ok {view : View} {output : String}
    (rendered : render store.toTaskStore view c r required page = .ok output) :
    ∃ shown, Shows store.toTaskStore c r required page view shown ∧
      output = shown.pretty ++ "\n" := by
  cases view with
  | tasks =>
    obtain ⟨found, searched, printed⟩ := bind_eq_ok_iff.mp rendered
    cases printed
    exact ⟨_, .tasks searched, rfl⟩
  | summaries =>
    obtain ⟨found, searched, printed⟩ := bind_eq_ok_iff.mp rendered
    cases printed
    exact ⟨_, .summaries searched, rfl⟩

end

/-- A file is noted and read. -/
theorem run_load {α : Type} (load : Option String → Except Error α) (path : String)
    (read : List String) :
    (do liftExcept (load (← noting contentOf path)) : Noting α).run.run read =
      (load (contentOf path), read ++ [path]) := by
  change (liftExcept (load (contentOf path)) : Noting α).run.run (read ++ [path]) = _
  exact run_liftExcept _ _

/-- A stage that reads one file and makes of its content what it is for. -/
theorem goesThrough_file {α : Type} {stage : Stage} {path : String}
    {load : Option String → Except Error α} {result : α → Prop}
    (file : Stage.file? env stage = some path)
    (faults : ∀ e, load (contentOf path) = .error e ↔ Fault env contentOf stage e)
    (results : ∀ a, load (contentOf path) = .ok a → result a) :
    GoesThrough (Fault env contentOf) (Stage.file? env) [stage]
      (do liftExcept (load (← noting contentOf path))) result := by
  refine .single (load (contentOf path)) (fun read => ?_) faults results
  rw [run_load, file]
  rfl

/-- A stage that reads no file. -/
theorem goesThrough_reply {α : Type} {stage : Stage} {reply : Except Error α} {result : α → Prop}
    (file : Stage.file? env stage = none)
    (faults : ∀ e, reply = .error e ↔ Fault env contentOf stage e)
    (results : ∀ a, reply = .ok a → result a) :
    GoesThrough (Fault env contentOf) (Stage.file? env) [stage] (liftExcept reply) result := by
  refine .single reply (fun read => ?_) faults results
  rw [run_liftExcept, file, Option.toList_none, List.append_nil]

theorem goesThrough_settings :
    GoesThrough (Fault env contentOf) (Stage.file? env) [.settings]
      (liftExcept (Settings.load env)) (Settings.SetBy env) :=
  goesThrough_reply rfl (Settings.load_eq_error_iff_firstFault env) fun _ =>
    Settings.load_eq_ok_iff.mp

section

variable (set : Settings.SetBy env s)

include set

theorem goesThrough_tasks (inMemory : Settings.storeName env ≠ "postgres") :
    GoesThrough (Fault env contentOf) (Stage.file? env) [.tasks]
      (openStore (noting contentOf) s.store) fun store =>
        ∃ tasks, LoadsTasks contentOf s.store tasks ∧ store = .ofList tasks := by
  rw [set.store.eq_memory inMemory]
  cases given : env.optional "TASK_FIXTURE_PATH" with
  | none =>
    -- no file is read, and an empty store cannot fail to open
    have clear (e : Error) : ¬ Fault env contentOf .tasks e := by
      rintro ⟨path, named, -⟩
      cases given.symm.trans (Environment.holds_iff.mp named)
    have opens : openStore (noting contentOf) (.memory none) =
        (liftExcept (.ok .empty : Except Error MemoryStore) : Noting MemoryStore) := rfl
    rw [opens]
    refine goesThrough_reply given (fun e => iff_of_false nofun (clear e)) fun store opened => ?_
    cases opened
    exact ⟨[], .nowhere, rfl⟩
  | some path =>
    refine .single ((Loading.tasks path (contentOf path)).map .ofList) (fun read => ?_)
      (fun e => ?_) fun opened done => ?_
    · rw [Stage.file?, given]
      change (do return .ofList (← liftExcept (Loading.tasks path (contentOf path))) :
        Noting MemoryStore).run.run (read ++ [path]) = _
      cases Loading.tasks path (contentOf path) <;> rfl
    · rw [map_eq_error_iff, Loading.tasks, Loading.load_eq_error_iff, Fault]
      simp [Environment.holds_iff, given]
    · obtain ⟨tasks, loaded, rfl⟩ := map_eq_ok_iff.mp done
      exact ⟨tasks, .file (Loading.load_eq_ok_iff.mp loaded), rfl⟩

theorem goesThrough_request :
    GoesThrough (Fault env contentOf) (Stage.file? env) [.request]
      (do liftExcept (Loading.request s.requestPath (← noting contentOf s.requestPath)))
      (Loading.DecodesRequest (contentOf s.requestPath)) := by
  have given := Environment.holds_iff.mp set.requestPath
  refine goesThrough_file given (fun e => ?_) fun _ => Loading.request_eq_ok_iff.mp
  rw [Loading.request_eq_error_iff, Fault]
  simp [Environment.holds_iff, given]

theorem goesThrough_roles :
    GoesThrough (Fault env contentOf) (Stage.file? env) [.roles]
      (do liftExcept (Loading.roles s.rolesPath (← noting contentOf s.rolesPath)))
      (Loading.Decodes (Json.list? RoleAssignment.ofJson?) (contentOf s.rolesPath)) := by
  have given := Environment.holds_iff.mp set.rolesPath
  refine goesThrough_file given (fun e => ?_) fun _ => Loading.load_eq_ok_iff.mp
  rw [Loading.roles, Loading.load_eq_error_iff, Fault]
  simp [Environment.holds_iff, given]

theorem goesThrough_page :
    GoesThrough (Fault env contentOf) (Stage.file? env) [.page]
      (liftExcept (Window.ofRequest s.offset s.limit)) fun page =>
        (page.offset : Int) = s.offset.toInt ∧ (page.limit : Int) = s.limit.toInt := by
  have offset := Environment.integer_eq_ok_iff.mpr set.offset
  have limit := Environment.integer_eq_ok_iff.mpr set.limit
  refine goesThrough_reply rfl (fun e => ?_) fun page accepted => ?_
  · rw [Window.ofRequest_eq_error_iff, Fault]
    simp [← Environment.integer_eq_ok_iff, offset, limit]
  · obtain ⟨_, _, first, room⟩ := Window.ofRequest_eq_ok_iff.mp accepted
    omega

theorem goesThrough_filter (store : MemoryStore) (c : Caller) (page : Window)
    (decoded : Loading.DecodesRequest (contentOf s.requestPath) r) :
    GoesThrough (Fault env contentOf) (Stage.file? env) [.filter]
      (liftExcept (render store.toTaskStore s.view c r s.permissions page)) fun output =>
        ∃ shown, Shows store.toTaskStore c r s.permissions page s.view shown ∧
          output = shown.pretty ++ "\n" := by
  have made (q : SearchRequest) (decodes : Loading.DecodesRequest (contentOf s.requestPath) q) :
      Loading.request s.requestPath (contentOf s.requestPath) = .ok q :=
    Loading.request_eq_ok_iff.mpr decodes
  refine goesThrough_reply rfl (fun e => ?_) fun _ => shows_of_render_eq_ok
  rw [render_eq_error_iff, Fault]
  constructor
  · rintro ⟨unfiltered, rfl⟩
    exact ⟨_, r, set.requestPath, decoded, unfiltered, rfl⟩
  · rintro ⟨path, q, named, other, unfiltered, rfl⟩
    -- the variable names one file, and the file holds one request
    obtain rfl := Environment.holds_unique named set.requestPath
    cases (made q other).symm.trans (made r decoded)
    exact ⟨unfiltered, rfl⟩

end

theorem goesThrough_search (inMemory : Settings.storeName env ≠ "postgres") (now : Instant) :
    GoesThrough (Fault env contentOf) (Stage.file? env) Stage.all
      (search env (noting contentOf) now) fun output =>
        ∃ s tasks r roles page shown, Inputs env contentOf s tasks r roles page ∧
          Shows (MemoryStore.ofList tasks).toTaskStore ⟨roles, now⟩ r s.permissions page s.view
            shown ∧
          output = shown.pretty ++ "\n" := by
  have split : search env (noting contentOf) now = (do
      let s ← liftExcept (Settings.load env)
      let store ← openStore (noting contentOf) s.store
      let r ← (do liftExcept (Loading.request s.requestPath (← noting contentOf s.requestPath)))
      let roles ← (do liftExcept (Loading.roles s.rolesPath (← noting contentOf s.rolesPath)))
      let page ← liftExcept (Window.ofRequest s.offset s.limit)
      liftExcept (render store.toTaskStore s.view ⟨roles, now⟩ r s.permissions page)) := by
    simp only [search, bind_assoc]
  rw [split]
  -- each stage is entered with what the ones before it have found
  refine goesThrough_settings.bind fun s set => ?_
  refine (goesThrough_tasks set inMemory).bind fun store ⟨tasks, read, opened⟩ => ?_
  subst opened
  refine (goesThrough_request set).bind fun r made => ?_
  refine (goesThrough_roles set).bind fun roles decoded => ?_
  refine (goesThrough_page set).bind fun page ⟨offset, limit⟩ => ?_
  refine (goesThrough_filter set _ _ page made).mono fun output ⟨shown, shows', printed⟩ => ?_
  exact ⟨s, tasks, r, roles, page, shown, ⟨set, read, made, decoded, offset, limit⟩, shows',
    printed⟩

/-! ## The document -/

theorem plain_document {tasks : List Json} (each : ∀ v ∈ tasks, v.Plain) (total : Nat)
    (signatures : TextSet) : (document tasks total signatures).Plain := by
  refine .object ?_
  simp only [List.forall_mem_cons, List.not_mem_nil, IsEmpty.forall_iff, implies_true, and_true]
  exact ⟨.array each, .integer _, .ofTexts _⟩

theorem Shows.plain {store : TaskStore (Except Error)} {c : Caller} {required : List Permission}
    {view : View} {shown : Json} (shows' : Shows store c r required page view shown) :
    shown.Plain := by
  cases shows' with
  | tasks => exact plain_document (List.forall_mem_map.mpr fun t _ => t.plain_toJson) _ _
  | summaries => exact plain_document (List.forall_mem_map.mpr fun s _ => s.plain_toJson) _ _

/-! ## The whole run -/

end Caseload.CommandLine
