import Caseload.Sort.Field
import Caseload.Task.Basic

/-!
# The order of tasks

Tasks are sorted by some keys, the first one first.  A task that lacks the value of a key comes
after those that have one, in either direction, and tasks that no key tells apart come in the
order of their ids.
-/

namespace Caseload

/-- What a task has in a field by which it can be sorted. -/
inductive SortValue
  /-- Text, by code points. -/
  | text (value : String)
  | number (value : Int32)
  | instant (value : Instant)
  deriving DecidableEq

namespace SortValue

/-- Compares two values of one field; values of different kinds, which no field has, come as
text, number and instant. -/
def compare : SortValue → SortValue → Ordering
  | text a, text b => Ord.compare a b
  | number a, number b => Ord.compare a.toInt b.toInt
  | instant a, instant b => Ord.compare a b
  | text _, _ | number _, instant _ => .lt
  | _, _ => .gt

end SortValue

/-- What the task has in a field by which it can be sorted. -/
def Task.sortValue? (t : Task) : SortField → Option SortValue
  | .due => t.due.map .instant
  | .title => t.title.map .text
  | .locationName => t.locationName.map .text
  | .caseCategory => t.caseCategory.map .text
  | .caseId => some (.text t.caseId)
  | .caseName => t.caseName.map .text
  | .nextHearing => t.nextHearing.map .instant
  | .majorPriority => t.majorPriority.map .number
  | .priorityDate => t.priorityDate.map .instant
  | .minorPriority => t.minorPriority.map .number

namespace SortDirection

/-- Compares two values, either of which may be missing: a missing one comes last. -/
def compare (d : SortDirection) : Option SortValue → Option SortValue → Ordering
  | some a, some b =>
    match d with
    | ascending => SortValue.compare a b
    | descending => SortValue.compare b a
  | some _, none => .lt
  | none, some _ => .gt
  | none, none => .eq

end SortDirection

def SortKey.compare (k : SortKey) (a b : Task) : Ordering :=
  k.direction.compare (a.sortValue? k.field) (b.sortValue? k.field)

/-- The keys by which tasks are sorted. -/
structure SortOrder where
  /-- The keys, the first one first. -/
  keys : List SortKey
  deriving DecidableEq, Repr

namespace SortOrder

/-- Compares by some keys, and by ids where the keys see no difference. -/
def compareBy : List SortKey → Task → Task → Ordering
  | [], a, b => Ord.compare a.id b.id
  | k :: keys, a, b => (k.compare a b).then (compareBy keys a b)

def compare (order : SortOrder) (a b : Task) : Ordering :=
  compareBy order.keys a b

def sort (order : SortOrder) (tasks : List Task) : List Task :=
  tasks.mergeSort fun a b => (order.compare a b).isLE

/-- The order of tasks when nothing else is asked for: what is due last comes first. -/
def taskDefault : SortOrder :=
  ⟨[⟨.due, .descending⟩]⟩

/-- The order of summaries when nothing else is asked for: by priority. -/
def summaryDefault : SortOrder :=
  ⟨[⟨.majorPriority, .ascending⟩, ⟨.priorityDate, .ascending⟩, ⟨.minorPriority, .ascending⟩]⟩

/-- Adds a key, unless an earlier one has its field. -/
def addKey (keys : List SortKey) (k : SortKey) : List SortKey :=
  if keys.any (·.field = k.field) then keys else keys ++ [k]

/-- The order that instructions ask for: the first key for each field, or `default` when no
instruction resolves. -/
def compose (instructions : List SortInstruction) (default : SortOrder) : SortOrder :=
  match (instructions.filterMap SortInstruction.resolve?).foldl addKey [] with
  | [] => default
  | keys => ⟨keys⟩

end SortOrder

end Caseload
