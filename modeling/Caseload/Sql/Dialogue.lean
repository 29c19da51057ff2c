import Caseload.Sql.Statement

/-!
# Dialogues with a database

A dialogue sends statements one after the other, each of which may depend on what came back from
those before.  `Dialogue.run` holds it with a server and also gives the statements that were
sent.
-/

namespace Caseload.Sql

abbrev Statement.Reply (s : Statement) : Type :=
  Except StatementFailure s.Answer

/-- A server: it replies to a statement, and may remember those before it. -/
abbrev Server :=
  (before : List Statement) → (s : Statement) → s.Reply

/-- A sequence of statements that ends in a value. -/
inductive Dialogue (α : Type) : Type
  | done (value : α)
  /-- Sends a statement and goes on by what comes back. -/
  | ask (s : Statement) (next : s.Reply → Dialogue α)

namespace Dialogue

/-- Goes on with another dialogue where one ends. -/
protected def bind {α β : Type} (f : α → Dialogue β) : Dialogue α → Dialogue β
  | done a => f a
  | ask s next => ask s fun reply => (next reply).bind f

instance : Monad Dialogue where
  pure := done
  bind d f := d.bind f

/-- Holds a dialogue with a server that has seen some statements, and gives all statements that
the server has seen in the end. -/
def run {α : Type} (server : Server) (before : List Statement) : Dialogue α → List Statement × α
  | done a => (before, a)
  | ask s next => (next (server before s)).run server (before ++ [s])

end Dialogue

/-- A dialogue that may end in an error. -/
abbrev Session :=
  ExceptT Error Dialogue

namespace Session

/-- Sends a statement; if it fails, the session ends with an error that names the stage. -/
def send (stage : Stage) (s : Statement) : Session s.Answer :=
  .mk <| .ask s fun
    | .ok answer => .done (.ok answer)
    | .error failure => .done (.error (.statement stage failure))

end Session

end Caseload.Sql
