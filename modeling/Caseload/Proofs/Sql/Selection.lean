import Caseload.Proofs.Error.FirstFailure
import Caseload.Proofs.Sql.Expression
import Mathlib.Data.List.Dedup
import Mathlib.Data.List.Perm.Basic

/-!
# What selections find

A selection takes the rows of a table, or the pairs of rows of two tables, and keeps those for
which its condition is `TRUE`.  What it shows of them is a row for each, or how many values one of
their columns has.  Its order and its page come after that and are not looked at here:
`Select.found?` is what there is to list, in no particular order.

The three selections of this project find what their predicate says (`found?_listing`,
`found?_counting`, `found?_matching`) in every database that stores some tasks of which no two have
the same id, in whatever order it keeps their rows.
-/

namespace Caseload.Sql

/-! ## Selections -/

/-- What a selection shows of the rows that it keeps. -/
inductive Output
  | columns (names : List Name)
  | countDistinct (name : Name)

/-- A term of an order as it is read. -/
structure SortTerm where
  name : Name
  collation : Option String
  direction : Option SortDirection
  nullsLast : Bool

/-- A selection. -/
structure Select where
  output : Output
  source : Source
  join : Option (Source × Expr)
  condition : Expr
  order : List SortTerm
  page : Option (Value × Value)

/-- The values of some columns, as a row. -/
def Scope.row? (names : List Name) (scope : Scope) : Option Row :=
  names.mapM fun name => do return (name.column, ← scope.value? name)

/-- The scopes in which an expression is `TRUE`, if it has a truth value in each. -/
def Expr.keep? (db : Database) (e : Expr) : List Scope → Option (List Scope)
  | [] => some []
  | scope :: rest => do
    let truth ← e.truth? db scope
    let kept ← e.keep? db rest
    return if truth = some true then scope :: kept else kept

namespace Select

/-- The scopes that a selection looks at: the rows of its table, each with every row of the table
that is joined for which the joining condition is `TRUE`. -/
def scopes? (db : Database) (s : Select) : Option (List Scope) := do
  let rows ← db s.source.table
  let scopes := rows.map fun row => [(s.source.shortName, row)]
  match s.join with
  | none => return scopes
  | some (joined, condition) => do
    let others ← db joined.table
    condition.keep? db <| scopes.flatMap fun scope =>
      others.map fun row => (joined.shortName, row) :: scope

/-- The scopes that a selection keeps, in no particular order. -/
def kept? (db : Database) (s : Select) : Option (List Scope) := do
  s.condition.keep? db (← s.scopes? db)

/-- The rows that a selection finds, in no particular order. -/
def found? (db : Database) (s : Select) : Option (List Row) := do
  let kept ← s.condition.keep? db (← s.scopes? db)
  match s.output with
  | .columns names => kept.mapM (Scope.row? names)
  | .countDistinct name => do
    -- missing values are not counted
    let values ← kept.mapM (·.value? name)
    return [[("count", .integer (values.filter (· ≠ .null)).dedup.length)]]

/-- The selection with another page. -/
def withPage (s : Select) (page : Option (Value × Value)) : Select :=
  { s with page }

/-- That a role row belongs to a task. -/
def link : Expr :=
  .equals (.ofColumn .rowTask) (.ofColumn .taskId)

def tasks : Source :=
  ⟨Table.tasks.name, Table.tasks.shortName⟩

def roles : Source :=
  ⟨Table.roles.name, Table.roles.shortName⟩

/-- Lists the tasks that have a role row for which a condition holds. -/
def listing (condition : Expr) (order : List SortTerm) : Select where
  output := .columns (taskColumns.map (⟨tasks.shortName, ·⟩))
  source := tasks
  join := none
  condition := .existsRow roles (.group .conjunction [link, condition])
  order
  page := none

/-- Counts the tasks that have a role row for which a condition holds. -/
def counting (condition : Expr) : Select where
  output := .countDistinct ⟨tasks.shortName, Column.taskId.name⟩
  source := tasks
  join := some (roles, link)
  condition
  order := []
  page := none

/-- Lists the role rows for which a condition holds. -/
def matching (condition : Expr) (order : List SortTerm) : Select where
  output := .columns (roleColumns.map (⟨roles.shortName, ·⟩))
  source := tasks
  join := some (roles, link)
  condition
  order
  page := none

/-- Lists the role rows of some tasks. -/
def loading (ids : List String) (order : List SortTerm) : Select where
  output := .columns (roleColumns.map (⟨roles.shortName, ·⟩))
  source := roles
  join := none
  condition := .equalsAny (.ofColumn .rowTask) (.value (.texts ids))
  order
  page := none

end Select

/-! ## Rows -/

namespace Row

theorem get_cons (row : Row) (c d : String) (v : Value) :
    get ((c, v) :: row) d = if d = c then v else row.get d := by
  by_cases same : d = c
  · simp [get, same]
  · have other : (d == c) = false := beq_false_of_ne same
    simp only [get, List.lookup_cons, other, if_neg same]

theorem lookup_eq_some_get {row : Row} {c : String} (mem : c ∈ row.map Prod.fst) :
    row.lookup c = some (row.get c) := by
  have found : row.lookup c ≠ none := by
    obtain ⟨cell, inRow, rfl⟩ := List.mem_map.mp mem
    intro missing
    simpa using List.lookup_eq_none_iff.mp missing cell inRow
  obtain ⟨v, found⟩ := Option.ne_none_iff_exists'.mp found
  rw [get, found]
  rfl

/-- A row whose columns have different names is known by the values of its columns. -/
theorem eq_map_get {row : Row} (nodup : (row.map Prod.fst).Nodup) :
    row = (row.map Prod.fst).map fun c => (c, row.get c) := by
  induction row with
  | nil => rfl
  | cons cell rest ih =>
    obtain ⟨fresh, nodup⟩ := List.nodup_cons.mp nodup
    have others : ∀ c ∈ rest.map Prod.fst, get (cell :: rest) c = get rest c := by
      intro c mem
      rw [get_cons, if_neg]
      rintro rfl
      exact fresh mem
    rw [List.map_cons, List.map_cons, get_cons, if_pos rfl]
    congr 1
    rw [List.map_congr_left fun c mem => congrArg (Prod.mk c) (others c mem)]
    exact ih nodup

end Row

/-! ## Stored tasks -/

/-- The role rows of some tasks, each with its task. -/
def rolesOf (ts : List Task) : List (Task × RoleRow) :=
  ts.flatMap fun t => t.roles.map (t, ·)

/-- A database stores some tasks: it has a row for each task and for each role row, in any order,
and no two tasks have the same id. -/
structure Database.Stores (db : Database) (ts : List Task) : Prop where
  tasks : ∃ rows, db Table.tasks.name = some rows ∧ rows.Perm (ts.map Task.cells)
  roles : ∃ rows, db Table.roles.name = some rows ∧
    rows.Perm ((rolesOf ts).map fun x => x.2.cells x.1.id)
  distinct : (ts.map Task.id).Nodup

/-- The database that keeps the rows of some tasks in their order. -/
def Database.ofTasks (ts : List Task) : Database := fun name =>
  if name = Table.tasks.name then some (ts.map Task.cells)
  else if name = Table.roles.name then some ((rolesOf ts).map fun x => x.2.cells x.1.id)
  else none

theorem Database.stores_ofTasks {ts : List Task} (distinct : (ts.map Task.id).Nodup) :
    (ofTasks ts).Stores ts :=
  ⟨⟨_, rfl, .refl _⟩, ⟨_, rfl, .refl _⟩, distinct⟩

theorem exists_perm_of_perm_map {α β : Type} {f : α → β} {rows : List β} {items : List α}
    (perm : rows.Perm (items.map f)) :
    ∃ others : List α, others.Perm items ∧ rows = others.map f := by
  have rel : List.Forall₂ (fun b a => b = f a) (items.map f) items := by
    induction items <;> simp_all
  obtain ⟨others, same, reordered⟩ := List.perm_comp_forall₂ perm rel
  refine ⟨others, reordered, ?_⟩
  clear perm reordered
  induction same <;> simp_all

/-- The rows of a database that stores some tasks are those of the tasks in some order. -/
theorem Database.Stores.exists_rows {db : Database} {ts : List Task} (stores : db.Stores ts) :
    ∃ (tasks : List Task) (roles : List (Task × RoleRow)), tasks.Perm ts ∧ roles.Perm (rolesOf ts) ∧
      db Table.tasks.name = some (tasks.map Task.cells) ∧
      db Table.roles.name = some (roles.map fun x => x.2.cells x.1.id) := by
  obtain ⟨taskRows, hasTasks, permTasks⟩ := stores.tasks
  obtain ⟨roleRows, hasRoles, permRoles⟩ := stores.roles
  obtain ⟨tasks, tasksPerm, rfl⟩ := exists_perm_of_perm_map permTasks
  obtain ⟨roles, rolesPerm, rfl⟩ := exists_perm_of_perm_map permRoles
  exact ⟨tasks, roles, tasksPerm, rolesPerm, hasTasks, hasRoles⟩

theorem mem_rolesOf {ts : List Task} {x : Task × RoleRow} :
    x ∈ rolesOf ts ↔ x.1 ∈ ts ∧ x.2 ∈ x.1.roles := by
  obtain ⟨t, row⟩ := x
  simp only [rolesOf, List.mem_flatMap, List.mem_map, Prod.mk.injEq]
  constructor
  · rintro ⟨_, mem, _, inRoles, rfl, rfl⟩
    exact ⟨mem, inRoles⟩
  · rintro ⟨mem, inRoles⟩
    exact ⟨t, mem, row, inRoles, rfl, rfl⟩

/-- Of the role rows of some tasks, those with the id of one of them are its own. -/
theorem filter_rolesOf {ts : List Task} (distinct : (ts.map Task.id).Nodup) {t : Task}
    (mem : t ∈ ts) : (rolesOf ts).filter (fun x => x.1.id = t.id) = t.roles.map (t, ·) := by
  induction ts with
  | nil => cases mem
  | cons u rest ih =>
    simp only [List.map_cons, List.nodup_cons] at distinct
    have split : rolesOf (u :: rest) = u.roles.map (u, ·) ++ rolesOf rest := rfl
    rw [split, List.filter_append]
    cases mem with
    | head =>
      have own : (t.roles.map (t, ·)).filter (fun x => x.1.id = t.id) = t.roles.map (t, ·) :=
        List.filter_eq_self.mpr (by simp)
      -- a row of another task with this id would give that task the id a second time
      have others : (rolesOf rest).filter (fun x => x.1.id = t.id) = [] := by
        refine List.filter_eq_nil_iff.mpr fun x mem => ?_
        have : x.1.id ∈ rest.map Task.id := List.mem_map_of_mem (mem_rolesOf.mp mem).1
        grind
      rw [own, others, List.append_nil]
    | tail _ mem =>
      have ne : u.id ≠ t.id := fun same => distinct.1 (same ▸ List.mem_map_of_mem mem)
      have none : (u.roles.map (u, ·)).filter (fun x => x.1.id = t.id) = [] := by
        simp [List.filter_eq_nil_iff, ne]
      rw [none, List.nil_append, ih distinct.2 mem]

/-- Pairing tasks with role rows of the same id pairs each task with its own role rows. -/
theorem filter_product_rolesOf {ts : List Task} (distinct : (ts.map Task.id).Nodup) :
    (ts.product (rolesOf ts)).filter (fun x => x.2.1.id = x.1.id) =
      (rolesOf ts).map fun x => (x.1, x) := by
  calc (ts.product (rolesOf ts)).filter (fun x => x.2.1.id = x.1.id)
    _ = ts.flatMap fun t => ((rolesOf ts).filter fun x => x.1.id = t.id).map (t, ·) := by
      simp only [List.product, List.filter_flatMap, List.filter_map, Function.comp_def]
    _ = ts.flatMap fun t => (t.roles.map (t, ·)).map (t, ·) :=
      List.flatMap_congr fun t mem => by rw [filter_rolesOf distinct mem]
    _ = (rolesOf ts).map fun x => (x.1, x) := by
      simp only [rolesOf, List.map_flatMap, List.map_map, Function.comp_def]

/-! ## Keeping rows -/

section

variable {db : Database}

theorem keep?_map {α : Type} {e : Expr} {scope : α → Scope} {truth : α → Option Bool}
    {items : List α} (known : ∀ a ∈ items, e.truth? db (scope a) = some (truth a)) :
    e.keep? db (items.map scope) = some ((items.filter (truth · = some true)).map scope) := by
  induction items with
  | nil => rfl
  | cons a rest ih =>
    obtain ⟨first, others⟩ := List.forall_mem_cons.mp known
    by_cases h : truth a = some true <;> simp [Expr.keep?, first, ih others, h]

theorem truth?_existsRow {α : Type} {source : Source} {condition : Expr} {scope : Scope}
    {row : α → Row} {truth : α → Option Bool} {items : List α}
    (has : db source.table = some (items.map row))
    (known : ∀ a ∈ items,
      condition.truth? db ((source.shortName, row a) :: scope) = some (truth a)) :
    (Expr.existsRow source condition).truth? db scope =
      some (some (items.any fun a => truth a = some true)) := by
  have truths : (items.map row).mapM
      (fun r => condition.truth? db ((source.shortName, r) :: scope)) = some (items.map truth) :=
    mapM_map_eq_some known
  have found : (items.map truth).contains (some true) = items.any fun a => truth a = some true := by
    rw [Bool.eq_iff_iff]
    simp
  have value : (Expr.existsRow source condition).eval db scope =
      some (.boolean ((items.map truth).contains (some true))) := by
    simp only [Expr.eval, has, Option.bind_eq_bind, Option.bind_some]
    exact congrArg (Option.bind · _) truths
  rw [Expr.truth?, value, found]
  rfl

end

/-- What a selection of columns finds is shown of what it keeps. -/
theorem Select.found?_of_kept? {db : Database} {s : Select} {scopes : List Scope}
    (kept : s.kept? db = some scopes) {names : List Name} (output : s.output = .columns names) :
    s.found? db = scopes.mapM (Scope.row? names) := by
  obtain ⟨all, found, kept⟩ := Option.bind_eq_some_iff.mp kept
  simp only [found?, found, kept, output, Option.bind_eq_bind, Option.bind_some]

/-- Whether a role row belongs to a task is known of any two. -/
theorem eval_link {db : Database} {t : Task} {id : String} {row : RoleRow} :
    Select.link.eval db (rowScope t id row) = some (.boolean (id = t.id)) := by
  simp [Select.link, Expr.eval, eval_rowTask, eval_taskId, Value.equals?]

theorem truth?_link {db : Database} {t : Task} {id : String} {row : RoleRow} :
    Select.link.truth? db (rowScope t id row) = some (some (decide (id = t.id))) := by
  simp [Expr.truth?, eval_link, Value.truth?]

theorem truth?_ofPredicate {db : Database} {t : Task} {id : String} {row : RoleRow}
    (p : Predicate) :
    (Expr.ofPredicate p).truth? db (rowScope t id row) = some (p.truth t row) := by
  simp [Expr.truth?, eval_ofPredicate p]

theorem truth?_link_and {db : Database} {t : Task} {id : String} {row : RoleRow} {p : Predicate} :
    (Expr.group .conjunction [Select.link, .ofPredicate p]).truth? db (rowScope t id row) =
      some (Connective.conjunction.join [some (decide (id = t.id)), p.truth t row]) := by
  simp [Expr.truth?, Expr.eval, Expr.truths?, eval_link, eval_ofPredicate]

/-! ## What is found -/

/-- The row of a task in a listing. -/
def taskScope (t : Task) : Scope :=
  [(Select.tasks.shortName, t.cells)]

section

variable {db : Database} {ts : List Task} {p : Predicate}

/-- A task is kept where one of its own role rows satisfies the predicate. -/
theorem truth?_existsRow_link (stores : db.Stores ts) {t : Task} (mem : t ∈ ts) :
    (Expr.existsRow Select.roles (.group .conjunction [Select.link, .ofPredicate p])).truth? db
      (taskScope t) = some (some (p.matchesTask t)) := by
  obtain ⟨-, roles, -, rolesPerm, -, hasRoles⟩ := stores.exists_rows
  rw [truth?_existsRow hasRoles fun x _ => truth?_link_and (p := p)]
  simp only [Option.some.injEq]
  rw [Bool.eq_iff_iff]
  simp only [Connective.join_conjunction, List.mem_cons, List.not_mem_nil, or_false,
    forall_eq_or_imp, forall_eq, Option.some.injEq, decide_eq_true_eq, List.any_eq_true,
    Predicate.truth_eq_some_true_iff, Predicate.matchesTask]
  constructor
  · rintro ⟨⟨u, row⟩, stored, same, holds⟩
    obtain ⟨inTs, inRoles⟩ := mem_rolesOf.mp (rolesPerm.mem_iff.mp stored)
    -- the row is linked by the id alone, and only one task has it
    obtain rfl : u = t := List.inj_on_of_nodup_map stores.distinct inTs mem same
    exact ⟨row, inRoles, holds⟩
  · rintro ⟨row, inRoles, holds⟩
    exact ⟨(t, row), rolesPerm.mem_iff.mpr (mem_rolesOf.mpr ⟨mem, inRoles⟩), rfl, holds⟩

/-- What is shown of a task that is listed is its row. -/
theorem row?_taskColumns {t : Task} :
    Scope.row? (taskColumns.map (⟨Select.tasks.shortName, ·⟩)) (taskScope t) = some t.cells :=
  rfl

theorem row?_roleColumns {t : Task} {id : String} {row : RoleRow} :
    Scope.row? (roleColumns.map (⟨Select.roles.shortName, ·⟩)) (rowScope t id row) =
      some (row.cells id) :=
  rfl

/-- Joining pairs each task with its own role rows. -/
theorem scopes?_joined (stores : db.Stores ts) {s : Select} (source : s.source = Select.tasks)
    (join : s.join = some (Select.roles, Select.link)) :
    ∃ pairs : List (Task × RoleRow), pairs.Perm (rolesOf ts) ∧
      s.scopes? db = some (pairs.map fun x => rowScope x.1 x.1.id x.2) := by
  obtain ⟨tasks, roles, tasksPerm, rolesPerm, hasTasks, hasRoles⟩ := stores.exists_rows
  -- the tables may keep their rows in any order, which reorders the pairs and nothing else
  have own : ((tasks.product roles).filter fun x => x.2.1.id = x.1.id).Perm
      ((rolesOf ts).map fun x => (x.1, x)) := by
    rw [← filter_product_rolesOf stores.distinct]
    exact (tasksPerm.product rolesPerm).filter _
  obtain ⟨pairs, perm, joined⟩ := exists_perm_of_perm_map own
  refine ⟨pairs, perm, ?_⟩
  have known : ∀ x ∈ tasks.product roles,
      Select.link.truth? db (rowScope x.1 x.2.1.id x.2.2) =
        some (some (decide (x.2.1.id = x.1.id))) :=
    fun _ _ => truth?_link
  have kept := keep?_map known
  simp only [Option.some.injEq, decide_eq_true_eq, joined, List.map_map] at kept
  simp only [Select.scopes?, source, join]
  rw [Select.tasks, Select.roles, hasTasks, hasRoles]
  simp only [Option.bind_eq_bind, Option.bind_some, List.map_map, List.flatMap_map]
  refine Eq.trans (congrArg _ ?_) kept
  simp only [List.product, List.map_flatMap, List.map_map]
  rfl

/-- A listing keeps the matching tasks, whatever its order and its page. -/
theorem kept?_listing (stores : db.Stores ts) (order : List SortTerm)
    (page : Option (Value × Value)) :
    ∃ tasks : List Task, tasks.Perm (ts.filter p.matchesTask) ∧
      ((Select.listing (.ofPredicate p) order).withPage page).kept? db =
        some (tasks.map taskScope) := by
  obtain ⟨tasks, -, tasksPerm, -, hasTasks, -⟩ := stores.exists_rows
  have known : ∀ t ∈ tasks,
      (Expr.existsRow Select.roles (.group .conjunction [Select.link, .ofPredicate p])).truth? db
        (taskScope t) = some (some (p.matchesTask t)) :=
    fun t mem => truth?_existsRow_link stores (tasksPerm.mem_iff.mp mem)
  have kept := keep?_map known
  simp only [Option.some.injEq, Bool.decide_eq_true] at kept
  have scopes : ((Select.listing (.ofPredicate p) order).withPage page).scopes? db =
      some (tasks.map taskScope) := by
    simp [Select.scopes?, Select.withPage, Select.listing, Select.tasks, hasTasks, taskScope,
      Function.comp_def]
  refine ⟨tasks.filter p.matchesTask, tasksPerm.filter _, ?_⟩
  rw [Select.kept?, scopes]
  exact kept

theorem found?_listing (stores : db.Stores ts) (order : List SortTerm) :
    ∃ rows : List Row, (Select.listing (.ofPredicate p) order).found? db = some rows ∧
      rows.Perm ((ts.filter p.matchesTask).map Task.cells) := by
  obtain ⟨tasks, perm, kept⟩ := kept?_listing (p := p) stores order none
  refine ⟨tasks.map Task.cells, (Select.found?_of_kept? kept rfl).trans ?_, perm.map _⟩
  exact mapM_map_eq_some fun t _ => row?_taskColumns

/-- What is kept of the pairs of a task with its role rows. -/
theorem keep?_ofPredicate {pairs : List (Task × RoleRow)} :
    (Expr.ofPredicate p).keep? db (pairs.map fun x => rowScope x.1 x.1.id x.2) =
      some ((pairs.filter fun x => p.holds x.1 x.2).map fun x => rowScope x.1 x.1.id x.2) := by
  rw [keep?_map fun x _ => truth?_ofPredicate p]
  simp only [Predicate.truth_eq_some_true_iff, Bool.decide_eq_true]

/-- The ids of the pairs that are kept are those of the matching tasks, each once or more. -/
theorem perm_dedup_ids (stores : db.Stores ts) {pairs : List (Task × RoleRow)}
    (perm : pairs.Perm (rolesOf ts)) :
    (((pairs.filter fun x => p.holds x.1 x.2).map fun x => Value.text x.1.id).dedup).Perm
      ((ts.filter p.matchesTask).map fun t => .text t.id) := by
  have distinct : ((ts.filter p.matchesTask).map fun t => Value.text t.id).Nodup := by
    have ids : ((ts.filter p.matchesTask).map Task.id).Nodup :=
      stores.distinct.sublist (List.filter_sublist.map _)
    simpa [Function.comp_def] using ids.map fun _ _ same => Value.text.inj same
  refine (List.perm_ext_iff_of_nodup (List.nodup_dedup _) distinct).mpr fun v => ?_
  simp only [List.mem_dedup, List.mem_map, List.mem_filter]
  constructor
  · rintro ⟨x, ⟨kept, holds⟩, rfl⟩
    obtain ⟨inTs, inRoles⟩ := mem_rolesOf.mp (perm.mem_iff.mp kept)
    exact ⟨x.1, ⟨inTs, List.any_eq_true.mpr ⟨x.2, inRoles, holds⟩⟩, rfl⟩
  · rintro ⟨t, ⟨inTs, hasRow⟩, rfl⟩
    obtain ⟨row, inRoles, holds⟩ := List.any_eq_true.mp hasRow
    exact ⟨(t, row), ⟨perm.mem_iff.mpr (mem_rolesOf.mpr ⟨inTs, inRoles⟩), holds⟩, rfl⟩

theorem found?_counting (stores : db.Stores ts) :
    (Select.counting (.ofPredicate p)).found? db =
      some [[("count", .integer (ts.filter p.matchesTask).length)]] := by
  obtain ⟨pairs, perm, scopes⟩ := scopes?_joined (s := .counting (.ofPredicate p)) stores rfl rfl
  have ids : ((pairs.filter fun x => p.holds x.1 x.2).map fun x => rowScope x.1 x.1.id x.2).mapM
      (Scope.value? · ⟨Select.tasks.shortName, Column.taskId.name⟩) =
        some ((pairs.filter fun x => p.holds x.1 x.2).map fun x => .text x.1.id) :=
    mapM_map_eq_some fun x _ => rfl
  -- no id is null, so leaving nulls out of the count leaves out nothing
  have present : ((pairs.filter fun x => p.holds x.1 x.2).map fun x => Value.text x.1.id).filter
      (· ≠ .null) = (pairs.filter fun x => p.holds x.1 x.2).map fun x => Value.text x.1.id := by
    refine List.filter_eq_self.mpr fun v mem => ?_
    obtain ⟨x, -, rfl⟩ := List.mem_map.mp mem
    rfl
  rw [Select.found?, scopes]
  simp only [Select.counting, Option.bind_eq_bind, Option.bind_some, keep?_ofPredicate, ids,
    present, (perm_dedup_ids stores perm).length_eq, List.length_map]
  rfl

/-- A row that has just the columns that are selected is shown as it is. -/
theorem row?_self {row : Row} {shortName : String} {columns : List String}
    (names : row.map Prod.fst = columns) (nodup : columns.Nodup) :
    Scope.row? (columns.map (⟨shortName, ·⟩)) [(shortName, row)] = some row := by
  have values : ∀ c ∈ columns, (do return (c, ← Scope.value? [(shortName, row)] ⟨shortName, c⟩)) =
      some (c, row.get c) := by
    intro c mem
    have held := Row.lookup_eq_some_get (names ▸ mem)
    simp [Scope.value?, held]
  rw [Scope.row?, mapM_map_eq_some values, ← names, ← Row.eq_map_get (names ▸ nodup)]

theorem found?_loading {rows : List Row} (has : db Table.roles.name = some rows)
    (columns : ∀ row ∈ rows, row.map Prod.fst = roleColumns)
    (keyed : ∀ row ∈ rows, ∃ s, row.get Column.rowTask.name = .text s) (ids : List String)
    (order : List SortTerm) :
    (Select.loading ids order).found? db =
      some (rows.filter fun row => (ids.map .text).contains (row.get Column.rowTask.name)) := by
  have known : ∀ row ∈ rows,
      (Select.loading ids order).condition.truth? db [(Select.roles.shortName, row)] =
        some (some ((ids.map .text).contains (row.get Column.rowTask.name))) := by
    intro row mem
    obtain ⟨s, value⟩ := keyed row mem
    have named : Column.rowTask.name ∈ row.map Prod.fst := by
      rw [columns row mem]
      decide
    have held : (Expr.ofColumn .rowTask).eval db [(Select.roles.shortName, row)] =
        some (.text s) := by
      have found : row.lookup Column.rowTask.name = some (.text s) :=
        value ▸ Row.lookup_eq_some_get named
      simp [Expr.eval, Expr.ofColumn, Scope.value?, Select.roles, Column.rowTask] at found ⊢
      exact found
    have listed : (ids.map Value.text).contains (.text s) = ids.contains s := by
      rw [Bool.eq_iff_iff]
      simp
    simp only [Expr.truth?, Select.loading, Expr.eval, held, value, listed, Value.equalsAny?,
      Option.bind_eq_bind, Option.bind_some, Value.truth?_boolean]
  have kept := keep?_map known
  simp only [Option.some.injEq, Bool.decide_eq_true] at kept
  have scopes : (Select.loading ids order).scopes? db =
      some (rows.map fun row => [(Select.roles.shortName, row)]) := by
    simp only [Select.scopes?, Select.loading, Select.roles, has, Option.bind_eq_bind,
      Option.bind_some]
    rfl
  have found : (Select.loading ids order).kept? db = some ((rows.filter fun row =>
      (ids.map .text).contains (row.get Column.rowTask.name)).map fun row =>
        [(Select.roles.shortName, row)]) := by
    rw [Select.kept?, scopes]
    exact kept
  have shown : ∀ row ∈ rows.filter fun row =>
      (ids.map .text).contains (row.get Column.rowTask.name),
      Scope.row? (roleColumns.map (⟨Select.roles.shortName, ·⟩)) [(Select.roles.shortName, row)] =
        some (id row) :=
    fun row mem => row?_self (columns row (List.mem_of_mem_filter mem)) (by decide)
  rw [Select.found?_of_kept? found rfl, mapM_map_eq_some shown, List.map_id]

/-- The selection for a predicate keeps the pairs of a task and a role row for which it holds. -/
theorem kept?_matching (stores : db.Stores ts) (order : List SortTerm) :
    ∃ pairs : List (Task × RoleRow), pairs.Perm ((rolesOf ts).filter fun x => p.holds x.1 x.2) ∧
      (Select.matching (.ofPredicate p) order).kept? db =
        some (pairs.map fun x => rowScope x.1 x.1.id x.2) := by
  obtain ⟨pairs, perm, scopes⟩ :=
    scopes?_joined (s := .matching (.ofPredicate p) order) stores rfl rfl
  refine ⟨pairs.filter fun x => p.holds x.1 x.2, perm.filter _, ?_⟩
  rw [Select.kept?, scopes]
  exact keep?_ofPredicate

theorem found?_matching (stores : db.Stores ts) (order : List SortTerm) :
    ∃ rows : List Row, (Select.matching (.ofPredicate p) order).found? db = some rows ∧
      rows.Perm (ts.flatMap fun t => (p.matchingRows t).map (·.cells t.id)) := by
  obtain ⟨pairs, perm, kept⟩ := kept?_matching (p := p) stores order
  refine ⟨pairs.map fun x => x.2.cells x.1.id, (Select.found?_of_kept? kept rfl).trans ?_,
    (perm.map fun x => x.2.cells x.1.id).trans ?_⟩
  · exact mapM_map_eq_some fun _ _ => row?_roleColumns
  · simp only [rolesOf, List.filter_flatMap, List.map_flatMap, List.filter_map, List.map_map]
    rfl

end

end Caseload.Sql
