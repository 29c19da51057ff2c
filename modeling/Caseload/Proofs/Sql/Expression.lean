import Caseload.Proofs.Predicate.Fold
import Caseload.Sql.Tables

/-!
# What expressions mean to a database

An expression is what a condition is once its text is read.  `Expr.eval` gives its value in the
scope of some rows, which go by the short names of their tables.  Truth has three values: a missing
value is neither equal nor unequal to anything, so a comparison may be unknown (`none`).  An
expression that mixes types, or that names what is not there, has no value at all.

`Predicate.truth` says which of the three a predicate becomes, and `truth?_ofPredicate` that its
expression has that truth value.  It is `TRUE` exactly where the predicate holds.
-/

namespace Caseload

/-! ## Truth -/

/-- Joins truth values: a part that decides the group does so whatever else is unknown. -/
def Connective.join (c : Connective) (parts : List (Option Bool)) : Option Bool :=
  if some (!c.unit) ∈ parts then some !c.unit
  else if none ∈ parts then none
  else some c.unit

theorem Connective.join_eq_unit_iff {c : Connective} {parts : List (Option Bool)} :
    c.join parts = some c.unit ↔ ∀ truth ∈ parts, truth = some c.unit := by
  unfold join
  split
  next decided =>
    refine iff_of_false (by simp) fun all => ?_
    simpa using all _ decided
  next undecided =>
    split
    next unknown =>
      refine iff_of_false (by simp) fun all => ?_
      simpa using all _ unknown
    next known =>
      refine iff_of_true rfl fun truth mem => ?_
      cases truth with
      | none => exact absurd mem known
      | some b =>
        have : b ≠ !c.unit := by
          rintro rfl
          exact undecided mem
        simpa using this

theorem Connective.join_eq_not_unit_iff {c : Connective} {parts : List (Option Bool)} :
    c.join parts = some (!c.unit) ↔ some (!c.unit) ∈ parts := by
  unfold join
  split
  · simp_all
  · split <;> simp_all

theorem Connective.join_conjunction {parts : List (Option Bool)} :
    conjunction.join parts = some true ↔ ∀ truth ∈ parts, truth = some true :=
  join_eq_unit_iff

theorem Connective.join_disjunction {parts : List (Option Bool)} :
    disjunction.join parts = some true ↔ some true ∈ parts :=
  join_eq_not_unit_iff

theorem Connective.join_singleton {c : Connective} {truth : Option Bool} :
    c.join [truth] = truth := by
  cases c <;> rcases truth with _ | _ | _ <;> rfl

namespace Predicate

mutual

/-- The truth value that a database finds for a predicate. -/
def truth (t : Task) (row : RoleRow) : Predicate → Option Bool
  | .constant value => some value
  | .group c parts => c.join (truths t row parts)
  | .equals field value => (field.value? t row).map (· = value)
  | .oneOf field values =>
    if values.isEmpty then some false else (field.value? t row).map values.contains
  | .rowOpen => some row.isOpen
  | .rowAdmits held => row.authorizations.map fun asked => asked.any held.contains
  | .granted permission => some (row.grants permission)

/-- The truth values that a database finds for some predicates. -/
def truths (t : Task) (row : RoleRow) : List Predicate → List (Option Bool)
  | [] => []
  | p :: rest => truth t row p :: truths t row rest

end

variable {t : Task} {row : RoleRow}

theorem mem_truths {truth : Option Bool} {parts : List Predicate} :
    truth ∈ truths t row parts ↔ ∃ p ∈ parts, truth = p.truth t row := by
  induction parts with
  | nil => simp [truths]
  | cons p rest ih => simp [truths, ih]

mutual

/-- A database finds that a predicate is `TRUE`, not only that it is not `FALSE`, exactly where the
predicate holds. -/
theorem truth_eq_some_true_iff : (p : Predicate) →
    (p.truth t row = some true ↔ p.holds t row = true)
  | .constant b => by simp [truth]
  | .group .conjunction parts => by
    have each := truths_eq_some_true_iff parts
    rw [truth, Connective.join_conjunction, holds, holdsAll_eq_true_iff]
    simp only [mem_truths]
    constructor
    · exact fun all p mem => (each p mem).mp (all _ ⟨p, mem, rfl⟩)
    · rintro all _ ⟨p, mem, rfl⟩
      exact (each p mem).mpr (all p mem)
  | .group .disjunction parts => by
    have each := truths_eq_some_true_iff parts
    rw [truth, Connective.join_disjunction, holds, holdsAny_eq_true_iff]
    simp only [mem_truths]
    exact exists_congr fun p => and_congr_right fun mem => eq_comm.trans (each p mem)
  | .equals field value => by simp [truth]
  | .oneOf field values => by
    -- a missing column is unknown, except that no value at all is never one of none
    cases values with
    | nil => simp [truth]
    | cons v rest => cases h : field.value? t row <;> simp [truth, holds, h]
  | .rowOpen => by simp [truth, holds]
  | .rowAdmits held => by
    cases h : row.authorizations <;> simp [truth, holds, RoleRow.admits, h]
  | .granted permission => by simp [truth, holds]

theorem truths_eq_some_true_iff :
    (parts : List Predicate) → ∀ p ∈ parts, (p.truth t row = some true ↔ p.holds t row = true)
  | [], _, mem => nomatch mem
  | q :: rest, p, mem => by
    cases mem with
    | head => exact truth_eq_some_true_iff q
    | tail _ mem => exact truths_eq_some_true_iff rest p mem

end

end Predicate

namespace Sql

namespace Value

/-- A truth value, which may be unknown, as a value. -/
def ofTruth : Option Bool → Value :=
  ofOption .boolean

/-- A value as a truth value; values of other types are none. -/
def truth? : Value → Option (Option Bool)
  | null => some none
  | boolean b => some (some b)
  | _ => none

@[simp] theorem truth?_boolean (b : Bool) : (boolean b).truth? = some (some b) :=
  rfl

@[simp] theorem truth?_ofTruth (truth : Option Bool) : (ofTruth truth).truth? = some truth := by
  cases truth <;> rfl

/-- Whether two values are equal. -/
def equals? : Value → Value → Option Value
  | null, _ | _, null => some null
  | text a, text b => some (boolean (a = b))
  | integer a, integer b => some (boolean (a = b))
  | boolean a, boolean b => some (boolean (a = b))
  | texts a, texts b => some (boolean (a = b))
  | timestamp a, timestamp b => some (boolean (a = b))
  | _, _ => none

/-- Whether a value is one of a list.  Nothing is in a list without items, not even a missing
value. -/
def equalsAny? : Value → Value → Option Value
  | null, null | text _, null => some null
  | null, texts items => some (if items.isEmpty then boolean false else null)
  | text s, texts items => some (boolean (items.contains s))
  | _, _ => none

/-- Whether two lists share an item. -/
def overlaps? : Value → Value → Option Value
  | null, null | null, texts _ | texts _, null => some null
  | texts a, texts b => some (boolean (a.any b.contains))
  | _, _ => none

/-- How many items a list has. -/
def cardinality? : Value → Option Value
  | null => some null
  | texts items => some (integer items.length)
  | _ => none

end Value

/-! ## Expressions -/

/-- A column of a row that goes by a short name. -/
structure Name where
  row : String
  column : String
  deriving DecidableEq

/-- A table with the short name for its rows. -/
structure Source where
  table : String
  shortName : String
  deriving DecidableEq

/-- The rows that can be referred to, by their short names. -/
abbrev Scope :=
  List (String × Row)

/-- The tables of a database, by name. -/
abbrev Database :=
  String → Option (List Row)

/-- The value of a column, if there is that column. -/
def Scope.value? (scope : Scope) (name : Name) : Option Value := do
  (← scope.lookup name.row).lookup name.column

/-- An expression. -/
inductive Expr
  | value (v : Value)
  | column (name : Name)
  | cardinality (list : Expr)
  | isNull (e : Expr)
  | equals (left right : Expr)
  | equalsAny (left right : Expr)
  | overlaps (left right : Expr)
  | group (connective : Connective) (parts : List Expr)
  | existsRow (source : Source) (condition : Expr)

namespace Expr

mutual

/-- The value of an expression, if it has one. -/
def eval (db : Database) (scope : Scope) : Expr → Option Value
  | value v => some v
  | column name => scope.value? name
  | cardinality list => do (← eval db scope list).cardinality?
  | isNull e => do return .boolean ((← eval db scope e) = .null)
  | equals left right => do (← eval db scope left).equals? (← eval db scope right)
  | equalsAny left right => do (← eval db scope left).equalsAny? (← eval db scope right)
  | overlaps left right => do (← eval db scope left).overlaps? (← eval db scope right)
  | group c parts => do return .ofTruth (c.join (← truths? db scope parts))
  | existsRow source condition => do
    let rows ← db source.table
    let found ← rows.mapM fun row => do
      (← eval db ((source.shortName, row) :: scope) condition).truth?
    return .boolean (found.contains (some true))

/-- The truth values of some expressions, if they all have one. -/
def truths? (db : Database) (scope : Scope) : List Expr → Option (List (Option Bool))
  | [] => some []
  | e :: rest => do
    let first ← (← eval db scope e).truth?
    return first :: (← truths? db scope rest)

end

/-- The truth value of an expression, if it has one. -/
def truth? (db : Database) (scope : Scope) (e : Expr) : Option (Option Bool) := do
  (← e.eval db scope).truth?

/-- A group of some expressions; a single one stands for itself. -/
def ofParts (c : Connective) : List Expr → Expr
  | [] => value (.boolean c.unit)
  | [e] => e
  | parts => group c parts

/-- A column of one of the two tables. -/
def ofColumn (c : Column) : Expr :=
  column ⟨c.table.shortName, c.name⟩

mutual

/-- The expression that a predicate becomes. -/
def ofPredicate : Predicate → Expr
  | .constant b => value (.boolean b)
  | .group c parts => ofParts c (ofPredicates parts)
  | .equals field v => equals (ofColumn (.ofField field)) (value (.text v))
  | .oneOf field values => equalsAny (ofColumn (.ofField field)) (value (.texts values))
  | .rowOpen =>
    group .disjunction [isNull (ofColumn .authorizations),
      equals (cardinality (ofColumn .authorizations)) (value (.integer 0))]
  | .rowAdmits held => overlaps (ofColumn .authorizations) (value (.texts held))
  | .granted permission => equals (ofColumn (.ofPermission permission)) (value (.boolean true))

/-- The expressions that some predicates become. -/
def ofPredicates : List Predicate → List Expr
  | [] => []
  | p :: rest => ofPredicate p :: ofPredicates rest

end

end Expr

/-- The row of a task, with a role row that is stored for some task. -/
def rowScope (t : Task) (id : String) (row : RoleRow) : Scope :=
  [(Table.roles.shortName, row.cells id), (Table.tasks.shortName, t.cells)]

/-! ## What predicates become -/

section

variable {db : Database} {t : Task} {id : String} {row : RoleRow}

theorem eval_ofField {field : Field} :
    (Expr.ofColumn (.ofField field)).eval db (rowScope t id row) =
      some (.ofOption .text (field.value? t row)) := by
  cases field <;> rfl

theorem eval_authorizations :
    (Expr.ofColumn .authorizations).eval db (rowScope t id row) =
      some (.ofOption .texts row.authorizations) :=
  rfl

theorem eval_ofPermission {permission : Permission} :
    (Expr.ofColumn (.ofPermission permission)).eval db (rowScope t id row) =
      some (.boolean (row.grants permission)) := by
  cases permission <;> rfl

theorem eval_taskId :
    (Expr.ofColumn .taskId).eval db (rowScope t id row) = some (.text t.id) :=
  rfl

theorem eval_rowTask :
    (Expr.ofColumn .rowTask).eval db (rowScope t id row) = some (.text id) :=
  rfl

theorem Value.truth?_eq_some_iff {v : Value} {truth : Option Bool} :
    v.truth? = some truth ↔ v = .ofTruth truth := by
  cases v <;> cases truth <;> simp [truth?, ofTruth, ofOption]

theorem Expr.eval_ofParts {scope : Scope} {c : Connective} {parts : List Expr}
    {truths : List (Option Bool)} (found : truths? db scope parts = some truths) :
    (ofParts c parts).eval db scope = some (.ofTruth (c.join truths)) := by
  match parts with
  | [] =>
    obtain rfl : [] = truths := by simpa [truths?] using found
    simp [ofParts, eval, Connective.join, Value.ofTruth, Value.ofOption]
  | [e] =>
    -- a group of one part has the truth value of that part
    obtain ⟨v, value, found⟩ := Option.bind_eq_some_iff.mp found
    obtain ⟨truth, isTruth, found⟩ := Option.bind_eq_some_iff.mp found
    obtain rfl : [truth] = truths := by simpa [truths?] using found
    rw [ofParts, value, Value.truth?_eq_some_iff.mp isTruth, Connective.join_singleton]
  | e :: f :: rest => simp [ofParts, eval, found]

mutual

theorem eval_ofPredicate : (p : Predicate) →
    (Expr.ofPredicate p).eval db (rowScope t id row) = some (.ofTruth (p.truth t row))
  | .constant b => by simp [Expr.ofPredicate, Expr.eval, Predicate.truth]; rfl
  | .group c parts => by
    simp only [Expr.ofPredicate, Predicate.truth]
    exact Expr.eval_ofParts (truths?_ofPredicates parts)
  | .equals field v => by
    cases h : field.value? t row <;>
      simp [Expr.ofPredicate, Expr.eval, eval_ofField, Predicate.truth, h, Value.equals?,
        Value.ofTruth, Value.ofOption]
  | .oneOf field values => by
    cases h : field.value? t row <;> cases values <;>
      simp [Expr.ofPredicate, Expr.eval, eval_ofField, Predicate.truth, h, Value.equalsAny?,
        Value.ofTruth, Value.ofOption]
  | .rowOpen => by
    have parts : Expr.truths? db (rowScope t id row)
        [.isNull (.ofColumn .authorizations),
          .equals (.cardinality (.ofColumn .authorizations)) (.value (.integer 0))] =
        some [some row.authorizations.isNone, row.authorizations.map List.isEmpty] := by
      rcases h : row.authorizations with _ | _ | _ <;>
        simp [Expr.truths?, Expr.eval, eval_authorizations, h, Value.cardinality?, Value.equals?,
          Value.truth?, Value.ofOption]
      omega
    -- the number of items is unknown only where the list is missing, which decides
    have joined : Connective.disjunction.join
        [some row.authorizations.isNone, row.authorizations.map List.isEmpty] =
        some row.isOpen := by
      rcases h : row.authorizations with _ | _ | _ <;> simp [RoleRow.isOpen, h] <;> rfl
    simp [Expr.ofPredicate, Expr.eval, parts, joined, Predicate.truth]
  | .rowAdmits held => by
    cases h : row.authorizations <;>
      simp [Expr.ofPredicate, Expr.eval, eval_authorizations, Predicate.truth, h, Value.overlaps?,
        Value.ofTruth, Value.ofOption]
  | .granted permission => by
    simp [Expr.ofPredicate, Expr.eval, eval_ofPermission, Predicate.truth, Value.equals?,
      Value.ofTruth, Value.ofOption]

theorem truths?_ofPredicates : (parts : List Predicate) →
    Expr.truths? db (rowScope t id row) (Expr.ofPredicates parts) =
      some (Predicate.truths t row parts)
  | [] => rfl
  | p :: rest => by
    simp [Expr.ofPredicates, Expr.truths?, Predicate.truths, eval_ofPredicate p,
      truths?_ofPredicates rest]

end

end

end Sql

end Caseload
