import Caseload.Predicate.Matching
import Caseload.Store.Basic

/-!
# Tasks in memory

A store that holds its tasks as a list in which no id occurs twice.  Saving a task puts it in the
place of the one with its id, if there is one.
-/

namespace Caseload

/-- Puts a task in the place of the one with its id, or at the end. -/
def putTask (t : Task) : List Task → List Task
  | [] => [t]
  | u :: rest => if u.id = t.id then t :: rest else u :: putTask t rest

theorem mem_ids_putTask {t : Task} {id : String} {tasks : List Task} :
    id ∈ (putTask t tasks).map Task.id ↔ id = t.id ∨ id ∈ tasks.map Task.id := by
  induction tasks with
  | nil => simp [putTask]
  | cons u rest ih =>
    by_cases h : u.id = t.id
    · simp [putTask, h]
    · simp only [putTask, if_neg h, List.map_cons, List.mem_cons, ih]
      grind

theorem nodup_ids_putTask {t : Task} {tasks : List Task} (h : (tasks.map Task.id).Nodup) :
    ((putTask t tasks).map Task.id).Nodup := by
  induction tasks with
  | nil => simp [putTask]
  | cons u rest ih =>
    simp only [List.map_cons, List.nodup_cons] at h
    by_cases hu : u.id = t.id
    · simp only [putTask, if_pos hu, List.map_cons, List.nodup_cons]
      exact ⟨hu ▸ h.1, h.2⟩
    · simp only [putTask, if_neg hu, List.map_cons, List.nodup_cons, mem_ids_putTask]
      exact ⟨by grind, ih h.2⟩

/-- Tasks of which no two have the same id. -/
structure MemoryStore where
  tasks : List Task
  /-- No two of them have the same id. -/
  distinct : (tasks.map Task.id).Nodup

namespace MemoryStore

def empty : MemoryStore :=
  ⟨[], List.nodup_nil⟩

/-- The store with a task saved to it. -/
def save (s : MemoryStore) (t : Task) : MemoryStore :=
  ⟨putTask t s.tasks, nodup_ids_putTask s.distinct⟩

/-- The store of some tasks; of those with the same id the last one stays. -/
def ofList (tasks : List Task) : MemoryStore :=
  tasks.foldl save empty

def find? (s : MemoryStore) (id : String) : Option Task :=
  s.tasks.find? fun t => t.id = id

def matching (s : MemoryStore) (p : Predicate) : List Task :=
  s.tasks.filter p.matchesTask

/-- The tasks that a query asks for. -/
def list (s : MemoryStore) (q : Query) : List Task :=
  let sorted := q.order.sort (s.matching q.predicate)
  match q.page with
  | none => sorted
  | some w => w.cut sorted

def count (s : MemoryStore) (p : Predicate) : Nat :=
  (s.matching p).length

/-- The role rows that satisfy a predicate, by the ids of their tasks. -/
def rows (s : MemoryStore) (p : Predicate) : List RoleRow :=
  (SortOrder.sort ⟨[]⟩ s.tasks).flatMap p.matchingRows

/-- The store as one that can be asked. -/
def toTaskStore {m : Type → Type} [Monad m] (s : MemoryStore) : TaskStore m where
  list q := pure (s.list q)
  count p := pure (s.count p)
  rows p := pure (s.rows p)

end MemoryStore

end Caseload
