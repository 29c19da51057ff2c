import Caseload.CommandLine
import Caseload.Proofs.Error.FirstFailure
import Caseload.Proofs.Page.Window
import Caseload.Proofs.SearchRequest.Conversion
import Caseload.Proofs.Settings.Values

/-!
# The stages of a run

A search of the command line has six stages, each of which can end it.  `Fault` says for which
errors a stage ends a run, from the variables and the file that the stage looks at, and
`Stage.file?` which file that is.  `GoesThrough` is a run that takes stages in their order, and runs
of this kind can be joined (`GoesThrough.bind`).
-/

namespace Caseload

/-! ## Files -/

namespace Loading

variable {α : Type} {label path : String} {decode : Json.Decoder α} {content : Option String}
  {e : Error}

/-- The file cannot be read, or its text is not what it should be. -/
def Refuses (label path : String) (decode : Json.Decoder α) (content : Option String)
    (e : Error) : Prop :=
  content = none ∧ e = .unreadable label path ∨
    ∃ text, content = some text ∧ (Json.read? text).bind decode = none ∧ e = .malformed label path

theorem load_eq_error_iff :
    load label path decode content = .error e ↔ Refuses label path decode content e := by
  cases content with
  | none => simp [load, Refuses, eq_comm]
  | some text => cases read : (Json.read? text).bind decode <;> simp [load, Refuses, read, eq_comm]

/-- The file can be read, and its text is JSON that stands for this. -/
def Decodes (decode : Json.Decoder α) (content : Option String) (a : α) : Prop :=
  ∃ text, content = some text ∧ (Json.read? text).bind decode = some a

theorem load_eq_ok_iff {a : α} :
    load label path decode content = .ok a ↔ Decodes decode content a := by
  cases content with
  | none => simp [load, Decodes]
  | some text => cases read : (Json.read? text).bind decode <;> simp [load, Decodes, read]

/-- The file is refused, or it gives a text as a state that names none; the first such text is the
fault. -/
def RefusesRequest (path : String) (content : Option String) (e : Error) : Prop :=
  Refuses "search request" path SearchPayload.ofJson? content e ∨
    ∃ p unknown, Decodes SearchPayload.ofJson? content p ∧ p.FirstUnknownState unknown ∧
      e = .unknownState unknown

theorem request_eq_error_iff :
    request path content = .error e ↔ RefusesRequest path content e := by
  rw [request, bind_eq_error_iff, load_eq_error_iff, RefusesRequest]
  simp only [load_eq_ok_iff, SearchPayload.ofPayload_eq_error_iff_firstUnknownState,
    exists_and_left]

/-- The file holds a search request, in the form in which requests are handed over. -/
def DecodesRequest (content : Option String) (r : SearchRequest) : Prop :=
  ∃ p, Decodes SearchPayload.ofJson? content p ∧ SearchRequest.ofPayload p = .ok r

theorem request_eq_ok_iff {r : SearchRequest} :
    request path content = .ok r ↔ DecodesRequest content r := by
  rw [request, bind_eq_ok_iff, DecodesRequest]
  simp only [load_eq_ok_iff]

end Loading

namespace CommandLine

/-! ## Stages and what ends them -/

/-- What a search does, one after the other. -/
inductive Stage
  | settings
  | tasks
  | request
  | roles
  | page
  | filter
  deriving DecidableEq

namespace Stage

def all : List Stage :=
  [settings, tasks, request, roles, page, filter]

/-- The kind of all errors of a stage. -/
def kind : Stage → ErrorKind
  | page => .configuration
  | _ => .validation

/-- The file that a stage reads, if it comes to it: the one that a variable names. -/
def file? (env : Environment) : Stage → Option String
  | tasks => env.optional "TASK_FIXTURE_PATH"
  | request => env.optional "SEARCH_REQUEST_PATH"
  | roles => env.optional "ROLE_ASSIGNMENTS_PATH"
  | settings | page | filter => none

end Stage

/-- A stage ends the run with an error, if it comes to it. -/
def Fault (env : Environment) (contentOf : String → Option String) : Stage → Error → Prop
  | .settings, e => FirstFault (Settings.Fault env) Settings.Check.all e
  | .tasks, e =>
    ∃ path, env.Holds "TASK_FIXTURE_PATH" path ∧
      Loading.Refuses "task fixtures" path (Json.list? Task.ofJson?) (contentOf path) e
  | .request, e =>
    ∃ path, env.Holds "SEARCH_REQUEST_PATH" path ∧ Loading.RefusesRequest path (contentOf path) e
  | .roles, e =>
    ∃ path, env.Holds "ROLE_ASSIGNMENTS_PATH" path ∧
      Loading.Refuses "role assignments" path (Json.list? RoleAssignment.ofJson?) (contentOf path) e
  | .page, e =>
    ∃ offset limit, env.GivesInteger "SEARCH_OFFSET" 0 offset ∧
      env.GivesInteger "SEARCH_LIMIT" 25 limit ∧
      (offset.toInt < 0 ∧ e = .negativeOffset offset ∨
        0 ≤ offset.toInt ∧ limit.toInt < 1 ∧ e = .limitBelowOne limit)
  | .filter, e =>
    ∃ path r, env.Holds "SEARCH_REQUEST_PATH" path ∧ Loading.DecodesRequest (contentOf path) r ∧
      r.Unfiltered ∧ e = .noFilter

variable {env : Environment} {contentOf : String → Option String} {e : Error}

theorem settings_kind {c : Settings.Check} (fault : Settings.Fault env c e) :
    e.kind = .validation := by
  cases c with
  | store => obtain ⟨-, -, rfl⟩ := fault; rfl
  | databaseUrl => obtain ⟨-, -, rfl⟩ := fault; rfl
  | offset | limit => obtain ⟨_, _, -, -, rfl⟩ := fault; rfl
  | permissions => obtain ⟨_, -, ⟨_, _, _, -, -, -, rfl⟩ | ⟨-, rfl⟩⟩ := fault <;> rfl
  | view => obtain ⟨_, -, -, rfl⟩ := fault; rfl
  | requestPath | rolesPath => obtain ⟨-, rfl⟩ := fault; rfl

theorem refuses_kind {α : Type} {label path : String} {decode : Json.Decoder α}
    {content : Option String} (refused : Loading.Refuses label path decode content e) :
    e.kind = .validation := by
  obtain ⟨-, rfl⟩ | ⟨_, -, -, rfl⟩ := refused <;> rfl

/-- All errors of a stage are of its kind. -/
theorem Fault.kind {stage : Stage} (fault : Fault env contentOf stage e) : e.kind = stage.kind := by
  cases stage with
  | settings =>
    obtain ⟨_, _, _, -, -, found⟩ := fault
    exact settings_kind found
  | tasks =>
    obtain ⟨_, -, refused⟩ := fault
    exact refuses_kind refused
  | request =>
    obtain ⟨_, -, refused | ⟨_, _, -, -, rfl⟩⟩ := fault
    · exact refuses_kind refused
    · rfl
  | roles =>
    obtain ⟨_, -, refused⟩ := fault
    exact refuses_kind refused
  | page => obtain ⟨_, _, -, -, ⟨-, rfl⟩ | ⟨-, -, rfl⟩⟩ := fault <;> rfl
  | filter =>
    obtain ⟨_, _, -, -, -, rfl⟩ := fault
    rfl

/-! ## Runs that note the files they read -/

/-- A computation that can fail and keeps a list of the files that it has read. -/
abbrev Noting (α : Type) :=
  ExceptT Error (StateM (List String)) α

/-- Reads a file and notes it. -/
def noting (contentOf : String → Option String) (path : String) :
    StateM (List String) (Option String) := do
  modify (· ++ [path])
  return contentOf path

/-- A computation goes through stages in their order.  The first that has a fault ends it with this
fault; if none has one, there is a result.  In both cases the files that were read are those of the
stages that it came to. -/
structure GoesThrough {γ α : Type} (fault : γ → Error → Prop) (file? : γ → Option String)
    (stages : List γ) (computation : Noting α) (result : α → Prop) : Prop where
  fails : ∀ before c after e, stages = before ++ c :: after → (∀ b ∈ before, ∀ e, ¬ fault b e) →
    fault c e → ∀ read,
      computation.run.run read = (.error e, read ++ (before ++ [c]).filterMap file?)
  succeeds : (∀ c ∈ stages, ∀ e, ¬ fault c e) → ∃ a, result a ∧ ∀ read,
    computation.run.run read = (.ok a, read ++ stages.filterMap file?)

namespace GoesThrough

variable {γ α β : Type} {fault : γ → Error → Prop} {file? : γ → Option String}
  {stages others : List γ} {c : γ} {x : Noting α} {next : α → Noting β} {result : α → Prop}
  {final : β → Prop}

theorem run_bind_of_error {read noted : List String} (ran : x.run.run read = (.error e, noted)) :
    (x >>= next).run.run read = (.error e, noted) := by
  rw [ExceptT.run_bind, StateT.run_bind, ran]
  rfl

theorem run_bind_of_ok {read noted : List String} {a : α} (ran : x.run.run read = (.ok a, noted)) :
    (x >>= next).run.run read = (next a).run.run noted := by
  rw [ExceptT.run_bind, StateT.run_bind, ran]
  rfl

theorem bind (first : GoesThrough fault file? stages x result)
    (later : ∀ a, result a → GoesThrough fault file? others (next a) final) :
    GoesThrough fault file? (stages ++ others) (x >>= next) final where
  fails := by
    intro before c after e split fine found read
    -- the stage with the fault is among the later ones, or else the first run ends with it
    have beyond (rest : List γ) (front : before = stages ++ rest)
        (back : others = rest ++ c :: after) :
        (x >>= next).run.run read = (.error e, read ++ (before ++ [c]).filterMap file?) := by
      have passed (b : γ) (mem : b ∈ stages) := fine b (front ▸ List.mem_append_left rest mem)
      have onward (b : γ) (mem : b ∈ rest) := fine b (front ▸ List.mem_append_right stages mem)
      obtain ⟨a, made, ran⟩ := first.succeeds passed
      rw [run_bind_of_ok (ran read), (later a made).fails rest c after e back onward found, front]
      simp
    obtain ⟨rest, front, back⟩ | ⟨rest, front, back⟩ := List.append_eq_append_iff.mp split
    · exact beyond rest front back
    · cases rest with
      | nil =>
        rw [List.append_nil] at front
        exact beyond [] (by rw [front, List.append_nil]) back.symm
      | cons d rest =>
        obtain ⟨rfl, -⟩ := List.cons_eq_cons.mp back
        exact run_bind_of_error (first.fails before c rest e front fine found read)
  succeeds := by
    intro fine
    obtain ⟨passed, fine⟩ := List.forall_mem_append.mp fine
    obtain ⟨a, made, ran⟩ := first.succeeds passed
    obtain ⟨b, finished, went⟩ := (later a made).succeeds fine
    refine ⟨b, finished, fun read => ?_⟩
    rw [run_bind_of_ok (ran read), went, List.filterMap_append, List.append_assoc]

theorem eq_error_iff (goes : GoesThrough fault file? stages x result) {read : List String} :
    (x.run.run read).1 = .error e ↔ FirstFault fault stages e := by
  constructor
  · intro failed
    by_cases fine : ∀ c ∈ stages, ∀ e, ¬ fault c e
    · obtain ⟨a, -, ran⟩ := goes.succeeds fine
      rw [ran] at failed
      cases failed
    · push Not at fine
      obtain ⟨c, mem, d, found⟩ := fine
      obtain ⟨d, before, c, after, split, passed, found⟩ := exists_firstFault mem found
      rw [goes.fails before c after d split passed found] at failed
      cases failed
      exact ⟨before, c, after, split, passed, found⟩
  · rintro ⟨before, c, after, split, passed, found⟩
    rw [goes.fails before c after e split passed found]

theorem mono {weaker : α → Prop} (first : GoesThrough fault file? stages x result)
    (weaken : ∀ a, result a → weaker a) : GoesThrough fault file? stages x weaker where
  fails := first.fails
  succeeds := fun fine => (first.succeeds fine).imp fun _ => And.imp_left (weaken _)

theorem filterMap_singleton : [c].filterMap file? = (file? c).toList := by
  cases noted : file? c <;> simp [noted]

/-- One stage, whose reply does not depend on the files that were read before. -/
theorem single (reply : Except Error α)
    (ran : ∀ read, x.run.run read = (reply, read ++ (file? c).toList))
    (faults : ∀ e, reply = .error e ↔ fault c e) (results : ∀ a, reply = .ok a → result a) :
    GoesThrough fault file? [c] x result where
  fails := by
    intro before d after e split _ found read
    cases before with
    | cons b before => simp at split
    | nil =>
      obtain ⟨rfl, -⟩ := List.cons_eq_cons.mp split
      rw [ran, (faults e).mpr found, List.nil_append, filterMap_singleton]
  succeeds := by
    intro fine
    cases done : reply with
    | error e => exact absurd ((faults e).mp done) (fine c (List.mem_singleton_self c) e)
    | ok a =>
      refine ⟨a, results a done, fun read => ?_⟩
      rw [ran, done, filterMap_singleton]

end GoesThrough

end CommandLine

end Caseload
