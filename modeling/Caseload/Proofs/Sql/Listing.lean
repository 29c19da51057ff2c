import Caseload.Proofs.Sort.Order
import Caseload.Proofs.Sql.Grammar
import Caseload.Proofs.Sql.Statement
import Caseload.Proofs.Text.Bytes

/-!
# In which order rows are listed

The terms of an order compare rows by one column after the other, and the first that tells two rows
apart decides.  A missing value counts as larger than all others, unless the term says that missing
values come last.  Text is compared by its bytes in the collation `C`, and without a collation as
the database is set up, which may be any way at all (`locale`).

The terms that are written for an order of tasks compare the rows of tasks as that order compares
the tasks, whatever the set-up (`compareAll?_ofOrder`).  As it leaves no two stored tasks level,
there is one way to list them, and a page of the listing is a page of the sorted tasks
(`gives_listing_iff`).
-/

namespace Caseload

namespace Sql

/-! ## Comparing rows -/

/-- Compares two values that are there.  Only text has a collation. -/
def Value.compare? (locale : String → String → Ordering) (collation : Option String) :
    Value → Value → Option Ordering
  | text a, text b =>
    match collation with
    | none => some (locale a b)
    | some name => if name = "C" then some (compare (Text.bytes a) (Text.bytes b)) else none
  | integer a, integer b => if collation.isNone then some (compare a b) else none
  | timestamp a, timestamp b => if collation.isNone then some (compare a b) else none
  | _, _ => none

namespace SortTerm

def nullsFirst (term : SortTerm) : Bool :=
  !term.nullsLast && term.direction = some .descending

/-- Compares two values, either of which may be missing. -/
def compareValues? (locale : String → String → Ordering) (term : SortTerm) :
    Value → Value → Option Ordering
  | .null, .null => some .eq
  | .null, _ => some (if term.nullsFirst then .lt else .gt)
  | _, .null => some (if term.nullsFirst then .gt else .lt)
  | a, b =>
    if term.direction = some .descending then b.compare? locale term.collation a
    else a.compare? locale term.collation b

def compare? (locale : String → String → Ordering) (term : SortTerm) (a b : Scope) :
    Option Ordering := do
  term.compareValues? locale (← a.value? term.name) (← b.value? term.name)

/-- Compares two rows by some terms, the first one first. -/
def compareAll? (locale : String → String → Ordering) :
    List SortTerm → Scope → Scope → Option Ordering
  | [], _, _ => some .eq
  | term :: rest, a, b => do
    let first ← term.compare? locale a b
    return first.then (← compareAll? locale rest a b)

/-- The terms of an order that is written by itself. -/
def ofText? (text : String) (values : List Value) : Option (List SortTerm) := do
  match ← Item.read? [] [] (← Token.read? values text) with
  | .token (.word "ORDER") :: terms => listOfItems? terms
  | _ => none

end SortTerm

/-! ## What a listing gives -/

def Value.count? : Value → Option Nat
  | integer (.ofNat n) => some n
  | _ => none

@[simp] theorem Value.count?_natCast (n : Nat) : (integer n).count? = some n :=
  rfl

namespace Select

def cut? {α : Type} (s : Select) (items : List α) : Option (List α) :=
  match s.page with
  | none => some items
  | some (limit, offset) => do return (items.drop (← offset.count?)).take (← limit.count?)

/-- No row that is listed comes after one that the order puts behind it. -/
def Ordered (locale : String → String → Ordering) (order : List SortTerm)
    (scopes : List Scope) : Prop :=
  scopes.Pairwise fun a b => ∃ o, SortTerm.compareAll? locale order a b = some o ∧ o.isLE = true

/-- Rows that a selection of columns may give: it keeps some rows, puts them in order, cuts the page
out of them and shows the columns of what is left.  Rows that the order leaves level may come in any
order. -/
def Gives (locale : String → String → Ordering) (db : Database) (s : Select)
    (rows : List Row) : Prop :=
  ∃ (names : List Name) (kept arranged : List Scope), s.output = .columns names ∧
    s.kept? db = some kept ∧ arranged.Perm kept ∧ Ordered locale s.order arranged ∧
    (s.cut? arranged).bind (·.mapM (Scope.row? names)) = some rows

end Select

end Sql

/-! ## Orders of tasks -/

open Sql

def SortValue.cell : SortValue → Value
  | text s => .text s
  | number n => .integer n.toInt
  | instant i => .timestamp i

/-- Each field by which tasks can be sorted holds values of one kind, and text just where it is said
to. -/
theorem SortField.sortValue?_kind (f : SortField) :
    (f.isText = true ∧ ∀ t : Task, ∃ value, t.sortValue? f = Option.map .text value) ∨
    (f.isText = false ∧ ∀ t : Task, ∃ value, t.sortValue? f = Option.map .number value) ∨
    (f.isText = false ∧ ∀ t : Task, ∃ value, t.sortValue? f = Option.map .instant value) := by
  cases f with
  | title | locationName | caseCategory | caseName => exact .inl ⟨rfl, fun t => ⟨_, rfl⟩⟩
  | caseId => exact .inl ⟨rfl, fun t => ⟨some t.caseId, rfl⟩⟩
  | majorPriority | minorPriority => exact .inr (.inl ⟨rfl, fun t => ⟨_, rfl⟩⟩)
  | due | nextHearing | priorityDate => exact .inr (.inr ⟨rfl, fun t => ⟨_, rfl⟩⟩)

theorem value?_column (t : Task) (f : SortField) :
    (taskScope t).value? ⟨Select.tasks.shortName, f.column⟩ =
      some (.ofOption SortValue.cell (t.sortValue? f)) := by
  have map : ∀ {α β : Type} (g : β → Value) (h : α → β) (value : Option α),
      Value.ofOption g (value.map h) = .ofOption (fun a => g (h a)) value := by
    intro α β g h value
    cases value <;> rfl
  cases f <;> simp only [Task.sortValue?, map] <;> rfl

variable (locale : String → String → Ordering)

/-- What makes a collation right for two values: they compare as the values of a field do. -/
def SortValue.Agrees (collation : Option String)
    (a b : SortValue) : Prop :=
  a.cell.compare? locale collation b.cell = some (a.compare b)

theorem agrees_text (a b : String) :
    SortValue.Agrees locale (some "C") (.text a) (.text b) := by
  simp [SortValue.Agrees, SortValue.cell, Value.compare?, SortValue.compare, Text.compare_bytes]

theorem agrees_number (a b : Int32) : SortValue.Agrees locale none (.number a) (.number b) :=
  rfl

theorem agrees_instant (a b : Instant) : SortValue.Agrees locale none (.instant a) (.instant b) :=
  rfl

namespace SortKey

/-- Two values of a field agree in the collation that the term for the field says. -/
theorem agrees_sortValue? {f : SortField} {a b : Task} {v w : SortValue}
    (ha : a.sortValue? f = some v) (hb : b.sortValue? f = some w) :
    SortValue.Agrees locale (if f.isText then some "C" else none) v w := by
  obtain ⟨isText, holds⟩ | ⟨isText, holds⟩ | ⟨isText, holds⟩ := f.sortValue?_kind
  all_goals
    obtain ⟨x, hx⟩ := holds a
    obtain ⟨y, hy⟩ := holds b
    rw [ha, eq_comm, Option.map_eq_some_iff] at hx
    rw [hb, eq_comm, Option.map_eq_some_iff] at hy
    obtain ⟨x, -, rfl⟩ := hx
    obtain ⟨y, -, rfl⟩ := hy
    rw [isText]
  · exact agrees_text locale x y
  · exact agrees_number locale x y
  · exact agrees_instant locale x y

/-- The term for a key compares two values of its field as the key does. -/
theorem compareValues?_ofKey (k : SortKey) (a b : Task) :
    (OrderTerm.ofKey k).sortTerm.compareValues? locale
        (.ofOption SortValue.cell (a.sortValue? k.field))
        (.ofOption SortValue.cell (b.sortValue? k.field)) = some (k.compare a b) := by
  rw [SortKey.compare]
  cases ha : a.sortValue? k.field with
  | none =>
    cases hb : b.sortValue? k.field with
    | none => rfl
    | some w => cases w <;> rfl
  | some v =>
    cases hb : b.sortValue? k.field with
    | none => cases v <;> rfl
    | some w =>
      -- neither value is missing, so the direction says which of the two is compared first
      have present : (OrderTerm.ofKey k).sortTerm.compareValues? locale v.cell w.cell =
          if some k.direction = some .descending then
            w.cell.compare? locale (if k.field.isText then some "C" else none) v.cell
          else v.cell.compare? locale (if k.field.isText then some "C" else none) w.cell := by
        cases v <;> cases w <;> rfl
      have forward := agrees_sortValue? locale ha hb
      have backward := agrees_sortValue? locale hb ha
      refine present.trans ?_
      cases k.direction with
      | ascending => exact forward
      | descending => exact backward

end SortKey

theorem compare?_ofKey (k : SortKey) (a b : Task) :
    (OrderTerm.ofKey k).sortTerm.compare? locale (taskScope a) (taskScope b) =
      some (k.compare a b) := by
  have name : (OrderTerm.ofKey k).sortTerm.name = ⟨Select.tasks.shortName, k.field.column⟩ := rfl
  simp only [SortTerm.compare?, name, value?_column, Option.bind_eq_bind, Option.bind_some]
  exact k.compareValues?_ofKey locale a b

theorem compare?_taskId (a b : Task) :
    (OrderTerm.sortTerm ⟨.taskId, true, some .ascending, false⟩).compare? locale
      (taskScope a) (taskScope b) = some (compare a.id b.id) := by
  have ids : ∀ t : Task,
      (taskScope t).value? ⟨Select.tasks.shortName, "task_id"⟩ = some (.text t.id) :=
    fun _ => rfl
  have name : (OrderTerm.sortTerm ⟨.taskId, true, some .ascending, false⟩).name =
      ⟨Select.tasks.shortName, "task_id"⟩ := rfl
  simp only [SortTerm.compare?, name, ids, Option.bind_eq_bind, Option.bind_some]
  exact agrees_text locale a.id b.id

/-- The terms that are written for an order compare the rows of tasks as the order compares the
tasks. -/
theorem compareAll?_ofOrder (order : SortOrder) (a b : Task) :
    SortTerm.compareAll? locale ((OrderTerm.ofOrder order).map OrderTerm.sortTerm)
      (taskScope a) (taskScope b) = some (order.compare a b) := by
  obtain ⟨keys⟩ := order
  simp only [OrderTerm.ofOrder, SortOrder.compare]
  induction keys with
  | nil =>
    simp [SortTerm.compareAll?, compare?_taskId, SortOrder.compareBy]
  | cons k keys ih =>
    rw [List.map_cons, List.cons_append, List.map_cons, SortTerm.compareAll?, compare?_ofKey, ih]
    rfl

theorem ofText?_orderTokens (order : SortOrder) :
    SortTerm.ofText? (Token.spell (orderTokens (OrderTerm.ofOrder order)))
        (Token.values (orderTokens (OrderTerm.ofOrder order))) =
      some ((OrderTerm.ofOrder order).map OrderTerm.sortTerm) := by
  have legible := legible_orderTokens (Statement.readable_ofOrder order)
  have nonempty : OrderTerm.ofOrder order ≠ [] := by simp [OrderTerm.ofOrder]
  rw [SortTerm.ofText?, Token.read?_spell legible]
  simp only [Option.bind_eq_bind, Option.bind_some, reads_orderTokens.read?_eq]
  exact listOfItems?_orderItems nonempty

/-! ## Rows in order -/

theorem ordered_scopes_iff {order : SortOrder} {tasks : List Task} :
    Select.Ordered locale ((OrderTerm.ofOrder order).map OrderTerm.sortTerm)
        (tasks.map taskScope) ↔
      tasks.Pairwise fun a b => (order.compare a b).isLE = true := by
  simp only [Select.Ordered, List.pairwise_map, compareAll?_ofOrder, Option.some.injEq,
    exists_eq_left']

/-- Where a page cuts `cut tasks` out of any tasks, the listing for a predicate can give one list of
rows, which are those of the page of the sorted tasks. -/
theorem gives_listing_iff {db : Database} {ts : List Task} (stores : db.Stores ts) (p : Predicate)
    (order : SortOrder) {page : Option (Value × Value)} {cut : List Task → List Task}
    (cuts : ∀ tasks : List Task,
      ((Select.listing (.ofPredicate p) ((OrderTerm.ofOrder order).map OrderTerm.sortTerm)).withPage
        page).cut? (tasks.map taskScope) = some ((cut tasks).map taskScope)) {rows : List Row} :
    ((Select.listing (.ofPredicate p) ((OrderTerm.ofOrder order).map OrderTerm.sortTerm)).withPage
        page).Gives locale db rows ↔
      rows = (cut (order.sort (ts.filter p.matchesTask))).map Task.cells := by
  obtain ⟨tasks, perm, kept⟩ := kept?_listing (p := p) stores
    ((OrderTerm.ofOrder order).map OrderTerm.sortTerm) page
  have distinct : ((ts.filter p.matchesTask).map Task.id).Nodup :=
    stores.distinct.sublist (List.filter_sublist.map _)
  have shown : ∀ tasks : List Task, (tasks.map taskScope).mapM
      (Scope.row? (taskColumns.map (⟨Select.tasks.shortName, ·⟩))) = some (tasks.map Task.cells) :=
    fun tasks => mapM_map_eq_some fun _ _ => row?_taskColumns
  constructor
  -- two lists of the kept tasks that the order allows are the same, since no two of them are level
  · rintro ⟨names, scopes, arranged, output, found, reordered, ordered, given⟩
    obtain rfl := Output.columns.inj output
    obtain rfl := Option.some.inj (kept.symm.trans found)
    obtain ⟨listed, samePerm, rfl⟩ := exists_perm_of_perm_map reordered
    have sorted := order.eq_sort_of_pairwise_isLE (samePerm.trans perm) distinct
      ((ordered_scopes_iff locale).mp ordered)
    rw [cuts, Option.bind_some, shown, Option.some.injEq] at given
    rw [← given, sorted]
  · rintro rfl
    refine ⟨_, _, (order.sort (ts.filter p.matchesTask)).map taskScope, rfl, kept, ?_, ?_, ?_⟩
    · exact ((order.sort_perm _).trans perm.symm).map _
    · exact (ordered_scopes_iff locale).mpr (order.pairwise_isLE_sort _)
    · rw [cuts, Option.bind_some, shown]

end Caseload
