import Caseload.Sql.Dialogue
import Mathlib.Data.List.Basic

/-!
# Holding dialogues

What a server has seen only grows while a dialogue is held, and a dialogue that goes on where
another one ends is held after it.

Sessions that need no answer but success are a row of steps, each of which is taken only when the
one before was accepted (`Session.Follows`).  What such a session sends and how it ends is read off
its steps, for any server.
-/

namespace Caseload.Sql

namespace Dialogue

variable {α β : Type} {server : Server}

theorem run_bind (f : α → Dialogue β) (d : Dialogue α) (before : List Statement) :
    (d >>= f).run server before =
      (f (d.run server before).2).run server (d.run server before).1 := by
  change (d.bind f).run server before = _
  induction d generalizing before with
  | done a => rfl
  | ask s next ih => exact ih _ _

/-- What was sent before stays in front of what is sent. -/
theorem prefix_run (d : Dialogue α) (before : List Statement) :
    before <+: (d.run server before).1 := by
  induction d generalizing before with
  | done a => exact List.prefix_rfl
  | ask s next ih => exact (List.prefix_append before [s]).trans (ih _ _)

end Dialogue

namespace Session

variable {α β : Type} {server : Server} {before : List Statement}

theorem run_bind (d : Session α) (f : α → Session β) :
    (d >>= f).run.run server before =
      match d.run.run server before with
      | (sent, .ok a) => (f a).run.run server sent
      | (sent, .error e) => (sent, .error e) := by
  rw [ExceptT.run_bind, Dialogue.run_bind]
  rcases d.run.run server before with ⟨sent, _ | _⟩ <;> rfl

theorem run_send {stage : Stage} {s : Statement} :
    (send stage s).run.run server before =
      (before ++ [s], (server before s).mapError (.statement stage)) := by
  change Dialogue.run server (before ++ [s]) _ = _
  cases server before s <;> rfl

section

variable {sent : List Statement} {d : Session α} {f : α → Session β} {stage : Stage} {s : Statement}

theorem run_bind_of_ok {a : α} (ran : d.run.run server before = (sent, .ok a)) :
    (d >>= f).run.run server before = (f a).run.run server sent := by
  rw [run_bind, ran]

theorem run_bind_of_error {e : Error} (ran : d.run.run server before = (sent, .error e)) :
    (d >>= f).run.run server before = (sent, .error e) := by
  rw [run_bind, ran]

theorem run_send_of_ok {answer : s.Answer} (accepted : server before s = .ok answer) :
    (send stage s).run.run server before = (before ++ [s], .ok answer) := by
  rw [run_send, accepted]
  rfl

theorem run_send_of_error {failure : StatementFailure}
    (refused : server before s = .error failure) :
    (send stage s).run.run server before = (before ++ [s], .error (.statement stage failure)) := by
  rw [run_send, refused]
  rfl

theorem run_liftExcept (x : Except Error α) :
    (liftExcept x : Session α).run.run server before = (before, x) := by
  cases x <;> rfl

/-- What is made of a result changes nothing that is sent for it. -/
theorem run_bind_pure (d : Session α) (f : α → β) :
    (do return f (← d) : Session β).run.run server before =
      ((d.run.run server before).1, (d.run.run server before).2.map f) := by
  rw [run_bind]
  obtain ⟨sent, result⟩ := d.run.run server before
  cases result <;> rfl

end

/-- A session that begins by sending a statement has sent it before all others. -/
theorem head?_run_send {stage : Stage} {s : Statement} {f : s.Answer → Session β} :
    ((send stage s >>= f).run.run server []).1.head? = some s := by
  have first : [s] <+: ((send stage s >>= f).run.run server []).1 := by
    rw [run_bind, run_send]
    cases server [] s with
    | error failure => exact List.prefix_rfl
    | ok answer => exact Dialogue.prefix_run _ _
  obtain ⟨rest, sent⟩ := first
  rw [← sent]
  rfl

/-- Whatever the server replies, the session sends the statement before all others. -/
def Begins (d : Session α) (s : Statement) : Prop :=
  ∀ server : Server, (d.run.run server []).1.head? = some s

theorem Begins.unique {d : Session α} {s t : Statement} (left : d.Begins s) (right : d.Begins t) :
    s = t := by
  let server : Server := fun _ _ => .error ⟨""⟩
  exact Option.some.inj ((left server).symm.trans (right server))

end Session

/-! ## Servers that accept what is sent -/

/-- The server accepts some statements after those that it has seen. -/
def Server.Accepts (server : Server) : List Statement → List Statement → Prop
  | _, [] => True
  | before, s :: rest =>
    (∃ answer, server before s = .ok answer) ∧ Accepts server (before ++ [s]) rest

theorem Server.accepts_append {server : Server} {before first rest : List Statement} :
    server.Accepts before (first ++ rest) ↔
      server.Accepts before first ∧ server.Accepts (before ++ first) rest := by
  induction first generalizing before with
  | nil => simp [Accepts]
  | cons s first ih => simp [Accepts, ih, and_assoc]

/-! ## Sessions of steps -/

/-- A statement that has to be accepted, and the stage that is reported when it is not. -/
structure Step where
  stage : Stage
  statement : Statement

/-- Takes some steps until one fails: the statements that the server has seen in the end, and what
comes of it. -/
def attempt (server : Server) (before : List Statement) :
    List Step → List Statement × Except Error Unit
  | [] => (before, .ok ())
  | step :: rest =>
    match server before step.statement with
    | .ok _ => attempt server (before ++ [step.statement]) rest
    | .error failure => (before ++ [step.statement], .error (.statement step.stage failure))

section

variable {server : Server} {before : List Statement} {first rest : List Step} {step : Step}

theorem attempt_append :
    attempt server before (first ++ rest) =
      match attempt server before first with
      | (sent, .ok _) => attempt server sent rest
      | (sent, .error e) => (sent, .error e) := by
  induction first generalizing before with
  | nil => rfl
  | cons step first ih =>
    rw [List.cons_append, attempt, attempt]
    cases server before step.statement with
    | ok answer => exact ih
    | error failure => rfl

/-- Nothing is sent but the steps, and those in their order. -/
theorem prefix_attempt (steps : List Step) :
    (attempt server before steps).1 <+: before ++ steps.map Step.statement := by
  induction steps generalizing before with
  | nil => simp [attempt]
  | cons step rest ih =>
    rw [attempt, List.map_cons, List.append_cons before _ (rest.map Step.statement)]
    cases server before step.statement with
    | ok answer => exact ih
    | error failure => exact List.prefix_append _ _

theorem attempt_of_accepts {steps : List Step}
    (accepts : server.Accepts before (steps.map Step.statement)) :
    attempt server before steps = (before ++ steps.map Step.statement, .ok ()) := by
  induction steps generalizing before with
  | nil => simp [attempt]
  | cons step rest ih =>
    obtain ⟨⟨answer, accepted⟩, accepts⟩ := accepts
    rw [attempt, accepted, List.map_cons, List.append_cons before _ (rest.map Step.statement)]
    exact ih accepts

theorem attempt_of_refused {failure : StatementFailure}
    (accepts : server.Accepts before (first.map Step.statement))
    (refused : server (before ++ first.map Step.statement) step.statement = .error failure) :
    attempt server before (first ++ step :: rest) =
      (before ++ first.map Step.statement ++ [step.statement],
        .error (.statement step.stage failure)) := by
  rw [attempt_append, attempt_of_accepts accepts]
  simp only [attempt, refused]

theorem accepts_of_attempt_eq_ok {steps : List Step}
    (succeeded : (attempt server before steps).2 = .ok ()) :
    server.Accepts before (steps.map Step.statement) := by
  induction steps generalizing before with
  | nil => trivial
  | cons step rest ih =>
    rw [attempt] at succeeded
    cases answered : server before step.statement with
    | ok answer =>
      rw [answered] at succeeded
      exact ⟨⟨answer, answered⟩, ih succeeded⟩
    | error failure =>
      rw [answered] at succeeded
      cases succeeded

/-- A step is sent only after all those before it were accepted. -/
theorem accepts_of_prefix_attempt {s : Statement}
    (sent : before ++ first.map Step.statement ++ [s] <+:
      (attempt server before (first ++ rest)).1) :
    server.Accepts before (first.map Step.statement) := by
  induction first generalizing before with
  | nil => trivial
  | cons next first ih =>
    rw [List.cons_append, attempt] at sent
    cases answered : server before next.statement with
    | ok answer =>
      rw [answered, List.map_cons, List.append_cons before _ (first.map Step.statement)] at sent
      exact ⟨⟨answer, answered⟩, ih sent⟩
    | error failure =>
      -- nothing follows a step that failed, so the list that was sent is too short
      rw [answered] at sent
      have short := sent.length_le
      simp at short

end

namespace Session

/-- The session takes the steps and does nothing else; only its value may be more than success. -/
def Follows {α : Type} (d : Session α) (steps : List Step) : Prop :=
  ∀ server before, attempt server before steps =
    ((d.run.run server before).1, (d.run.run server before).2.map fun _ => ())

variable {α β : Type}

theorem follows_pure (a : α) : Follows (pure a) [] :=
  fun _ _ => rfl

theorem follows_send (stage : Stage) (s : Statement) : Follows (send stage s) [⟨stage, s⟩] := by
  intro server before
  rw [run_send, attempt]
  cases server before s with
  | ok answer => rfl
  | error failure => rfl

theorem Follows.bind {d : Session α} {f : α → Session β} {first rest : List Step}
    (follows : Follows d first) (later : ∀ a, Follows (f a) rest) :
    Follows (d >>= f) (first ++ rest) := by
  intro server before
  rw [attempt_append, follows server before, run_bind]
  obtain ⟨sent, result⟩ := d.run.run server before
  cases result with
  | ok a => exact later a server sent
  | error e => rfl

/-- Where success is the value, the steps say all about a session. -/
theorem Follows.run_eq {d : Session Unit} {steps : List Step} (follows : Follows d steps)
    (server : Server) (before : List Statement) :
    d.run.run server before = attempt server before steps := by
  rw [follows server before]
  obtain ⟨sent, result⟩ := d.run.run server before
  cases result with
  | ok value => rfl
  | error e => rfl

end Session

end Caseload.Sql
