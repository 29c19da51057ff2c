import Caseload.Proofs.Store.Saving

/-!
# Saving stops at the first failure

A task is saved in one transaction: the statements that open it, write the task, remove its old role
rows and add the new ones come before the one that commits.  A statement is sent only after all
those before it were accepted, so a save that fails leaves the transaction open, and its error says
at which statement it stopped (`save_stops_at_failure`).

What carries the proofs is that saving follows its steps (`follows_save`); the loop over the role
rows does not show any more.
-/

namespace Caseload

open Sql (Row Server Statement Step)

/-! ## Servers at which one statement fails -/

namespace Sql.Server

/-- Of the statements that are sent to the server the `n`-th one fails, counted from 1, and no other
one.  For zero none fails. -/
def FailsAt (server : Server) (n : Nat) : Prop :=
  ∀ before s, (∃ failure, server before s = .error failure) ↔ before.length + 1 = n

variable {server : Server} {before : List Statement} {n : Nat}

theorem FailsAt.accepted (fails : server.FailsAt n) (ne : before.length + 1 ≠ n) (s : Statement) :
    ∃ answer, server before s = .ok answer := by
  cases answered : server before s with
  | ok answer => exact ⟨answer, rfl⟩
  | error failure => exact absurd ((fails before s).mp ⟨failure, answered⟩) ne

/-- Statements are accepted where the one that fails is not among them. -/
theorem FailsAt.accepts (fails : server.FailsAt n) {statements : List Statement}
    (others : n ≤ before.length ∨ before.length + statements.length < n) :
    server.Accepts before statements := by
  induction statements generalizing before with
  | nil => trivial
  | cons s rest ih =>
    rw [List.length_cons] at others
    refine ⟨fails.accepted (by omega) s, ih ?_⟩
    rw [List.length_append, List.length_singleton]
    omega

end Sql.Server

namespace DatabaseStore

variable {server : Server} {t : Task}

/-! ## What any server sees -/

theorem length_saving (t : Task) : (saving t).length = t.roles.length + 4 := by
  simp only [saving, savingRows, List.length_append, List.length_map, List.length_cons,
    List.length_nil]
  omega

theorem prefix_run_save (server : Server) (t : Task) :
    ((save t).run.run server []).1 <+: saving t := by
  have sent : (Sql.attempt server [] (savingSteps t)).1 <+: [] ++ _ := Sql.prefix_attempt _
  rwa [← (follows_save t).run_eq, map_statement_savingSteps, List.nil_append] at sent

/-- The statements that come before the one that commits. -/
abbrev writing (t : Task) : List Statement :=
  (writingSteps t).map Step.statement

theorem saving_eq_writing_append (t : Task) : saving t = writing t ++ [.commit] := by
  rw [← map_statement_savingSteps, savingSteps, List.map_append]
  rfl

theorem commit_not_mem_writing (t : Task) : Statement.commit ∉ writing t := by
  simp [writing, writingSteps, rowSteps]

/-- The only statement that commits is the last one. -/
theorem eq_writing_of_commit {earlier later : List Statement}
    (sent : earlier ++ .commit :: later <+: saving t) : earlier = writing t ∧ later = [] := by
  obtain ⟨unsent, split⟩ := sent
  rw [saving_eq_writing_append, List.append_assoc, List.cons_append] at split
  obtain ⟨between, written, last⟩ | ⟨between, rfl, last⟩ := List.append_eq_append_iff.mp split
  · cases between with
    | nil =>
      have none : later ++ unsent = [] := (List.cons.inj last).2
      exact ⟨by simpa using written.symm, (List.append_eq_nil_iff.mp none).1⟩
    | cons s between =>
      obtain rfl : Statement.commit = s := (List.cons.inj last).1
      exact absurd (by simp [written]) (commit_not_mem_writing t)
  · cases between with
    | nil =>
      have none : [] = later ++ unsent := (List.cons.inj last).2
      exact ⟨List.append_nil _, (List.append_eq_nil_iff.mp none.symm).1⟩
    | cons s between => simp at last

/-- Nothing is committed unless everything before it was accepted. -/
theorem accepts_writing_of_commit_mem
    (sent : .commit ∈ ((save t).run.run server []).1) : server.Accepts [] (writing t) := by
  obtain ⟨earlier, later, split⟩ := List.append_of_mem sent
  obtain ⟨rfl, rfl⟩ := eq_writing_of_commit (split ▸ prefix_run_save server t)
  have all : [] ++ writing t ++ [.commit] <+: (Sql.attempt server [] (savingSteps t)).1 := by
    rw [← (follows_save t).run_eq, split]
    exact List.prefix_rfl
  exact Sql.accepts_of_prefix_attempt all

/-- The server was sent the statement that commits and accepted it. -/
def Commits (server : Server) (sent : List Statement) : Prop :=
  ∃ earlier later answer, sent = earlier ++ .commit :: later ∧ server earlier .commit = .ok answer

/-- A save succeeds exactly when it is committed. -/
theorem run_save_eq_ok_iff (server : Server) (t : Task) :
    ((save t).run.run server []).2 = .ok () ↔ Commits server ((save t).run.run server []).1 := by
  constructor
  · intro succeeded
    rw [(follows_save t).run_eq] at succeeded
    have accepts := Sql.accepts_of_attempt_eq_ok succeeded
    rw [map_statement_savingSteps] at accepts
    rw [run_save accepts]
    rw [saving_eq_writing_append, Sql.Server.accepts_append] at accepts
    obtain ⟨-, ⟨answer, accepted⟩, -⟩ := accepts
    exact ⟨writing t, [], answer, saving_eq_writing_append t, accepted⟩
  · rintro ⟨earlier, later, answer, split, accepted⟩
    obtain ⟨rfl, rfl⟩ := eq_writing_of_commit (split ▸ prefix_run_save server t)
    have written : server.Accepts [] (writing t) :=
      accepts_writing_of_commit_mem (by simp [split])
    have accepts : server.Accepts [] (saving t) := by
      rw [saving_eq_writing_append, Sql.Server.accepts_append]
      exact ⟨written, ⟨answer, accepted⟩, trivial⟩
    rw [run_save accepts]

/-! ## Where a save stops -/

/-- What errors of a save say, one text for each statement. -/
def failureTexts (t : Task) : List String :=
  ["failed to start task save transaction", s!"failed to save task '{t.id}'",
    s!"failed to clear role rows for task '{t.id}'"] ++
  (t.roles.map fun row => s!"failed to save role row '{row.role}' for task '{t.id}'") ++
  [s!"failed to commit task '{t.id}'"]

theorem map_message_savingSteps (t : Task) :
    (savingSteps t).map (·.stage.message) = failureTexts t := by
  rw [savingSteps, List.map_append, writingSteps, List.map_append, rowSteps, List.map_map]
  rfl

theorem message_statement (stage : Stage) (failure : StatementFailure) :
    (Error.statement stage failure).message =
      "internal error: " ++ stage.message ++ ": " ++ failure.message := by
  have label : "internal" ++ " error: " = "internal error: " := rfl
  change "internal" ++ " error: " ++ (stage.message ++ ": " ++ failure.message) = _
  rw [label, ← String.append_assoc, ← String.append_assoc]

/-- A save ends with the step of which the statement fails. -/
theorem run_save_of_failsAt {first rest : List Step} {step : Step}
    (split : savingSteps t = first ++ step :: rest) (fails : server.FailsAt (first.length + 1)) :
    ∃ failure, server (first.map Step.statement) step.statement = .error failure ∧
      (save t).run.run server [] = (first.map Step.statement ++ [step.statement],
        .error (.statement step.stage failure)) := by
  have accepts : server.Accepts [] (first.map Step.statement) := by
    refine fails.accepts (.inr ?_)
    simp
  obtain ⟨failure, refused⟩ := (fails (first.map Step.statement) step.statement).mpr (by simp)
  refine ⟨failure, refused, ?_⟩
  rw [(follows_save t).run_eq, split]
  exact Sql.attempt_of_refused accepts refused

/-- A save stops at the first failure.  What is sent for a task with `k` role rows is always the
beginning of one list of `k + 4` statements.  All of it is sent, and the save succeeds, where none
of them fails; where the `n`-th one fails, just `n` are sent, and the error says which it was.  The
statement that commits is sent only after all others were accepted, and the save succeeds exactly
when it is accepted too. -/
theorem save_stops_at_failure (t : Task) (server : Server) (n : Nat) (fails : server.FailsAt n) :
    ∃ (sent : List Statement) (result : Except Error Unit),
      (save t).run.run server [] = (sent, result) ∧
      sent <+: [.begin, .upsertTask t.cells, .deleteRows t.id] ++
        (t.roles.map fun row => .insertRow (row.cells t.id)) ++ [.commit] ∧
      (n = 0 ∨ t.roles.length + 4 < n →
        sent.length = t.roles.length + 4 ∧ result = .ok ()) ∧
      (1 ≤ n → n ≤ t.roles.length + 4 → sent.length = n ∧ ∃ text earlier s failure e,
        (failureTexts t)[n - 1]? = some text ∧ sent = earlier ++ [s] ∧
        server earlier s = .error failure ∧ result = .error e ∧ e.kind = .internal ∧
        e.message = "internal error: " ++ text ++ ": " ++ failure.message) ∧
      (.commit ∈ sent → ∃ earlier, sent = earlier ++ [.commit] ∧ server.Accepts [] earlier) ∧
      (result = .ok () ↔ Commits server sent) := by
  refine ⟨((save t).run.run server []).1, ((save t).run.run server []).2, rfl,
    prefix_run_save server t, fun none => ?all, fun first last => ?stopped,
    fun committed => ?committed, run_save_eq_ok_iff server t⟩
  case all =>
    have accepts : server.Accepts [] (saving t) := by
      refine fails.accepts ?_
      rw [length_saving, List.length_nil]
      omega
    rw [run_save accepts]
    exact ⟨length_saving t, rfl⟩
  case stopped =>
    obtain ⟨i, rfl⟩ : ∃ i, n = i + 1 := ⟨n - 1, by omega⟩
    have inside : i < (savingSteps t).length := by
      have length := congrArg List.length (map_statement_savingSteps t)
      rw [List.length_map, length_saving] at length
      omega
    obtain ⟨before, step, rest, split, rfl⟩ :
        ∃ before step rest, savingSteps t = before ++ step :: rest ∧ before.length = i :=
      ⟨(savingSteps t).take i, (savingSteps t)[i], (savingSteps t).drop (i + 1), by simp,
        List.length_take_of_le (by omega)⟩
    obtain ⟨failure, refused, ran⟩ := run_save_of_failsAt split fails
    have text : (failureTexts t)[before.length]? = some step.stage.message := by
      simp [← map_message_savingSteps, split]
    rw [ran]
    refine ⟨by simp, step.stage.message, before.map Step.statement, step.statement, failure, _,
      text, rfl, refused, rfl, rfl, message_statement _ _⟩
  case committed =>
    have written := accepts_writing_of_commit_mem committed
    obtain ⟨earlier, later, split⟩ := List.append_of_mem committed
    obtain ⟨rfl, rfl⟩ := eq_writing_of_commit (split ▸ prefix_run_save server t)
    exact ⟨writing t, split, written⟩

/-- A server that refuses the `n`-th statement in some words and finds nothing. -/
def failingAt (n : Nat) (reason : String) : Server := fun before s =>
  if before.length + 1 = n then .error ⟨reason⟩ else agreeable before s

theorem failsAt_failingAt (n : Nat) (reason : String) : (failingAt n reason).FailsAt n := by
  intro before s
  unfold failingAt
  split
  next last => exact iff_of_true ⟨_, rfl⟩ last
  next other =>
    refine iff_of_false ?_ other
    rintro ⟨failure, refused⟩
    cases s <;> cases refused

/-- Where the second of two role rows is refused, the fifth of six statements is the last one. -/
theorem save_stops_at_second_row :
    let t : Task :=
      { Task.bare "a" "review" .unassigned "IA" "1" "Asylum" with
        roles := [{ role := "clerk" }, { role := "judge" }] }
    let server := failingAt 5 "error returned from database: disk full"
    server.FailsAt 5 ∧ ∃ (sent : List Statement) (e : Error),
      (save t).run.run server [] = (sent, .error e) ∧ sent.length = 5 ∧ ¬ Commits server sent ∧
      e.message = "internal error: failed to save role row 'judge' for task 'a': " ++
        "error returned from database: disk full" := by
  intro t server
  have fails : server.FailsAt 5 := failsAt_failingAt 5 _
  obtain ⟨sent, result, ran, -, -, stopped, -, committed⟩ := save_stops_at_failure t server 5 fails
  obtain ⟨length, text, earlier, s, failure, e, wording, rfl, refused, rfl, -, message⟩ :=
    stopped (by decide) (by decide)
  have last : earlier.length + 1 = 5 := by simpa using length
  obtain rfl : ⟨"error returned from database: disk full"⟩ = failure := by
    simpa [server, failingAt, last] using refused
  obtain rfl : "failed to save role row 'judge' for task 'a'" = text := Option.some.inj wording
  refine ⟨fails, _, e, ran, length, fun commits => ?_, message⟩
  cases committed.mpr commits

end DatabaseStore

end Caseload
