import Caseload.Proofs.Sql.Condition
import Caseload.Sql.Statement

/-!
# Statements mean what predicates say

The text of a statement that is made from a predicate, read with the values that are bound to it, is
the selection that was meant.  Together with what selections find, a database that stores some tasks
lists, counts and matches just what the predicate says of them (`text_means_predicate`).
-/

namespace Caseload

/-! ## Orders -/

namespace Sql.OrderTerm

variable {term : OrderTerm}

/-- The items that the pieces of a term become. -/
def parts (term : OrderTerm) : List (List Item) :=
  [term.column.items] ++
  (if term.byCodePoints then [[.token (.word "COLLATE")], [.token (.quoted "C")]] else []) ++
  (term.direction.toList.map fun d => (directionTokens d).map .token) ++
  (if term.nullsLast then [[.token (.word "NULLS"), .token (.word "LAST")]] else [])

/-- What a term is read to. -/
def sortTerm (term : OrderTerm) : SortTerm where
  name := ⟨term.column.table.shortName, term.column.name⟩
  collation := if term.byCodePoints then some "C" else none
  direction := term.direction
  nullsLast := term.nullsLast

theorem ofItems?_parts : SortTerm.ofItems? term.parts.flatten = some term.sortTerm := by
  obtain ⟨column, byCodePoints, direction, nullsLast⟩ := term
  cases byCodePoints <;> cases nullsLast <;> rcases direction with _ | _ | _ <;> rfl

theorem free_parts (readable : term.column.Readable) : ∀ part ∈ term.parts, Free part := by
  simp only [parts, List.forall_mem_append, List.forall_mem_singleton]
  refine ⟨⟨⟨readable.free, ?_⟩, ?_⟩, ?_⟩
  · cases term.byCodePoints <;> decide
  · cases term.direction with
    | none => decide
    | some d => cases d <;> decide
  · cases term.nullsLast <;> decide

theorem not_is_comma : ∀ part ∈ term.parts, ∀ i ∈ part, i.is (.mark ",") = false := by
  simp only [parts, List.forall_mem_append, List.forall_mem_singleton]
  refine ⟨⟨⟨Column.not_is_mark (by decide), ?_⟩, ?_⟩, ?_⟩
  · cases term.byCodePoints <;> decide
  · cases term.direction with
    | none => decide
    | some d => cases d <;> decide
  · cases term.nullsLast <;> decide

theorem legible_tokens (readable : term.column.Readable) : Token.Legible term.tokens := by
  refine .spaced ?_
  simp only [List.forall_mem_append, List.forall_mem_singleton]
  refine ⟨⟨⟨readable.legible, ?_⟩, ?_⟩, ?_⟩
  · cases term.byCodePoints <;> simp
    decide
  · cases term.direction with
    | none => simp
    | some d => cases d <;> simp [directionTokens] <;> decide
  · cases term.nullsLast <;> simp
    exact .words (by decide)

theorem reads_tokens : Reads term.tokens term.parts.flatten := by
  refine .spaced (List.rel_append (List.rel_append (List.rel_append
    (.cons Column.reads_tokens .nil) ?_) ?_) ?_)
  · cases term.byCodePoints with
    | false => exact .nil
    | true => exact .cons .word (.cons (.token (by decide)) .nil)
  · cases term.direction with
    | none => exact .nil
    | some d => cases d <;> exact .cons .word .nil
  · cases term.nullsLast with
    | false => exact .nil
    | true => exact .cons .words .nil

end Sql.OrderTerm

namespace Sql

/-- The items of an order. -/
def orderItems (terms : List OrderTerm) : List Item :=
  List.intercalate [.token (.mark ",")] (terms.map fun term => term.parts.flatten)

theorem legible_orderTokens {terms : List OrderTerm}
    (readable : ∀ term ∈ terms, term.column.Readable) : Token.Legible (orderTokens terms) := by
  have each : ∀ tokens ∈ terms.map OrderTerm.tokens, Token.Legible tokens :=
    List.forall_mem_map.mpr fun term mem => OrderTerm.legible_tokens (readable term mem)
  have words : Token.Legible (Token.words ["ORDER", "BY"]) := .words (by decide)
  exact .spaced (by simpa using ⟨words, Token.Legible.commas each⟩)

theorem reads_orderTokens {terms : List OrderTerm} :
    Reads (orderTokens terms)
      (.token (.word "ORDER") :: .token (.word "BY") :: orderItems terms) := by
  have each : Reads (Token.commas (terms.map OrderTerm.tokens)) (orderItems terms) :=
    .commas (forall₂_map fun _ _ => OrderTerm.reads_tokens)
  have words : Reads (Token.words ["ORDER", "BY"]) [.token (.word "ORDER"), .token (.word "BY")] :=
    .words
  rw [orderTokens]
  simpa using Reads.spaced (.cons words (.cons each .nil))

theorem free_orderItems {terms : List OrderTerm}
    (readable : ∀ term ∈ terms, term.column.Readable) : Free (orderItems terms) := by
  refine forall_mem_intercalate (by decide) (List.forall_mem_map.mpr fun term mem => ?_)
  exact List.forall_mem_flatten.mpr (OrderTerm.free_parts (readable term mem))

theorem listOfItems?_orderItems {terms : List OrderTerm} (nonempty : terms ≠ []) :
    SortTerm.listOfItems? (.token (.word "BY") :: orderItems terms) =
      some (terms.map OrderTerm.sortTerm) := by
  have split : (orderItems terms).splitOnP (Item.is (.mark ",")) =
      terms.map fun term => term.parts.flatten :=
    splitOnP_intercalate Item.is_token (by simpa using nonempty)
      (List.forall_mem_map.mpr fun term _ => List.forall_mem_flatten.mpr OrderTerm.not_is_comma)
  rw [SortTerm.listOfItems?, split]
  exact mapM_eq_some_of_forall₂ (forall₂_map fun _ _ => OrderTerm.ofItems?_parts)

/-! ## Columns that are shown -/

/-- The items of some columns. -/
def columnItems (table : Table) (names : List String) : List Item :=
  List.intercalate [.token (.mark ",")] (names.map fun name => (Column.mk table name).items)

section

variable {table : Table} {names : List String}

theorem legible_columnTokens (readable : ∀ name ∈ names, (Column.mk table name).Readable) :
    Token.Legible (Statement.columnTokens table names) :=
  .commas (List.forall_mem_map.mpr fun name mem => (readable name mem).legible)

theorem reads_columnTokens : Reads (Statement.columnTokens table names) (columnItems table names) :=
  .commas (forall₂_map fun _ _ => Column.reads_tokens)

theorem free_columnItems (readable : ∀ name ∈ names, (Column.mk table name).Readable) :
    Free (columnItems table names) :=
  forall_mem_intercalate (by decide)
    (List.forall_mem_map.mpr fun name mem => (readable name mem).free)

theorem ofItems?_columnItems (nonempty : names ≠ []) :
    Output.ofItems? (columnItems table names) =
      some (.columns (names.map (⟨table.shortName, ·⟩))) := by
  have split : (columnItems table names).splitOnP (Item.is (.mark ",")) =
      names.map fun name => (Column.mk table name).items :=
    splitOnP_intercalate Item.is_token (by simpa using nonempty)
      (List.forall_mem_map.mpr fun name _ => Column.not_is_mark (by decide))
  have each : (names.map fun name => (Column.mk table name).items).mapM Name.ofItems? =
      some (names.map (⟨table.shortName, ·⟩)) :=
    mapM_eq_some_of_forall₂ (forall₂_map fun _ _ => rfl)
  -- a column is no count: nothing in it stands in brackets
  unfold Output.ofItems?
  split
  next counted =>
    have tokens : ∀ i ∈ columnItems table names, ∃ t, i = .token t :=
      forall_mem_intercalate (by simp)
        (List.forall_mem_map.mpr fun name _ => by simp [Column.items])
    rw [counted] at tokens
    simp at tokens
  next =>
    rw [split, each]
    rfl

end

theorem readable_taskColumns : ∀ name ∈ taskColumns, (Column.mk .tasks name).Readable := by
  have all : ∀ name ∈ taskColumns, (Token.word name).wellSpelled = true ∧ name ∉ keywords := by
    decide
  exact fun name mem => ⟨(all name mem).1, (all name mem).2⟩

theorem readable_roleColumns : ∀ name ∈ roleColumns, (Column.mk .roles name).Readable := by
  have all : ∀ name ∈ roleColumns, (Token.word name).wellSpelled = true ∧ name ∉ keywords := by
    decide
  exact fun name mem => ⟨(all name mem).1, (all name mem).2⟩

/-! ## Statements -/

/-- That a role row belongs to a task, as items. -/
def linkItems : List Item :=
  Column.rowTask.items ++ .token (.mark "=") :: Column.taskId.items

theorem ofTest?_linkItems : Expr.ofTest? linkItems = some Select.link :=
  rfl

/-- What is asked of the role rows of a task, with the comparison that picks them before it. -/
theorem ofItems?_linkItems_append (p : Predicate) :
    Expr.ofItems? (linkItems ++ .token (.word "AND") :: p.items) =
      some (.group .conjunction [Select.link, .ofPredicate p]) := by
  have free : ∀ part ∈ [linkItems, p.items], Free part := by
    simpa using ⟨by decide, p.free_items⟩
  have read : Expr.ofItems? (List.intercalate [.token (.word "AND")] [linkItems, p.items]) =
      some (.group .conjunction [Select.link, .ofPredicate p]) :=
    Expr.ofItems?_intercalate (c := .conjunction) (by simp) free
      (.cons ofTest?_linkItems (.cons p.ofTest?_items .nil))
  simpa using read

namespace Statement

theorem ofText?_eq {s : Statement} (legible : Token.Legible s.tokens) {items : List Item}
    (reads : Reads s.tokens items) {select : Select} (found : Select.ofItems? items = some select) :
    Select.ofText? s.text s.values = some select := by
  rw [Select.ofText?, text, values, Token.read?_spell legible]
  simp only [Option.bind_eq_bind, Option.bind_some, reads.read?_eq, found]

theorem legible_fromRoles : Token.Legible
    (Token.words ["FROM", Table.roles.name, Table.roles.shortName, "WHERE"]) :=
  .words (by decide)

theorem reads_fromRoles :
    Reads (Token.words ["FROM", Table.roles.name, Table.roles.shortName, "WHERE"])
      [.token (.word "FROM"), .token (.word Select.roles.table),
        .token (.word Select.roles.shortName), .token (.word "WHERE")] :=
  .words

/-- What is asked of the role rows of a task, as it is written in a listing. -/
def existsTokens (condition : Condition) : List Token :=
  Token.bracketed (Token.spaced [
    [.word "SELECT"], [.number 1],
    Token.words ["FROM", Table.roles.name, Table.roles.shortName, "WHERE"],
    Column.rowTask.tokens, [.mark "="], Column.taskId.tokens, [.word "AND"],
    condition.tokens])

theorem legible_existsTokens (p : Predicate) :
    Token.Legible (existsTokens (.ofPredicate p)) := by
  refine Token.legible_bracketed.mpr (.spaced ?_)
  simp [legible_fromRoles, Column.readable_rowTask.legible, Column.readable_taskId.legible,
    p.legible_ofPredicate]
  decide

theorem reads_existsTokens (p : Predicate) :
    Reads (existsTokens (.ofPredicate p)) [.bracket (.rows Select.roles
      (.group .conjunction [Select.link, .ofPredicate p]))] := by
  refine Reads.bracketed (.spaced <|
    .cons .word <| .cons (.token (by decide)) <| .cons reads_fromRoles <|
    .cons Column.reads_tokens <| .cons (.token (by decide)) <| .cons Column.reads_tokens <|
    .cons .word <| .cons p.reads_ofPredicate .nil) ?_
  simp only [List.flatten_cons, List.flatten_nil, List.append_nil]
  exact congrArg (Option.map (Content.rows Select.roles)) (ofItems?_linkItems_append p)

/-- The items between `FROM` and `WHERE` where tasks are joined with their role rows. -/
def joinItems : List Item :=
  [.token (.word Select.tasks.table), .token (.word Select.tasks.shortName),
    .token (.word "JOIN"), .token (.word Select.roles.table),
    .token (.word Select.roles.shortName), .token (.word "ON")] ++ linkItems

theorem legible_joinTokens : Token.Legible joinTokens := by
  have words : Token.Legible (Token.words ["FROM", Table.tasks.name, Table.tasks.shortName, "JOIN",
      Table.roles.name, Table.roles.shortName, "ON"]) :=
    .words (by decide)
  refine .spaced ?_
  simp [words, Column.readable_rowTask.legible, Column.readable_taskId.legible]
  decide

theorem reads_joinTokens :
    Reads joinTokens (.token (.word "FROM") :: joinItems ++ [.token (.word "WHERE")]) :=
  .spaced <| .cons .words <| .cons Column.reads_tokens <| .cons (.token (by decide)) <|
    .cons Column.reads_tokens <| .cons .word .nil

/-- The page of a selection that is limited. -/
def pageOf (limit : Option Limit) : Option (Value × Value) :=
  limit.map fun l => (.integer l.limit.toInt, .integer l.offset.toInt)

theorem legible_limitTokens (l : Limit) : Token.Legible (limitTokens l) := by
  refine .spaced ?_
  simp only [List.forall_mem_cons, Token.legible_singleton]
  exact ⟨by decide, rfl, by decide, rfl, by simp⟩

theorem reads_limitTokens (l : Limit) :
    Reads (limitTokens l) (Select.pageItems (pageOf (some l))) :=
  .spaced <| .cons .word <| .cons .bind <| .cons .word <| .cons .bind .nil

theorem legible_listTasks (p : Predicate) {terms : List OrderTerm}
    (readable : ∀ term ∈ terms, term.column.Readable) {limit : Option Limit} :
    Token.Legible (listTasks (.ofPredicate p) terms limit).tokens := by
  have words : Token.Legible
      (Token.words ["FROM", Table.tasks.name, Table.tasks.shortName, "WHERE", "EXISTS"]) :=
    .words (by decide)
  refine .spaced (List.forall_mem_append.mpr
    ⟨?_, List.forall_mem_map.mpr fun l _ => legible_limitTokens l⟩)
  simp only [List.forall_mem_cons]
  exact ⟨Token.legible_singleton.mpr (by decide), legible_columnTokens readable_taskColumns,
    words, legible_existsTokens p, legible_orderTokens readable, by simp⟩

/-- The text of the listing for a predicate is read as the listing that was meant, with its page. -/
theorem ofText?_listTasks (p : Predicate) {terms : List OrderTerm} (nonempty : terms ≠ [])
    (readable : ∀ term ∈ terms, term.column.Readable) {limit : Option Limit} :
    Select.ofText? (listTasks (.ofPredicate p) terms limit).text
        (listTasks (.ofPredicate p) terms limit).values =
      some ((Select.listing (.ofPredicate p) (terms.map OrderTerm.sortTerm)).withPage
        (pageOf limit)) := by
  have body : Select.Body (columnItems .tasks taskColumns)
      [.token (.word Select.tasks.table), .token (.word Select.tasks.shortName)]
      [.token (.word "EXISTS"), .bracket (.rows Select.roles
        (.group .conjunction [Select.link, .ofPredicate p]))]
      (.columns (taskColumns.map (⟨Select.tasks.shortName, ·⟩))) Select.tasks none
      (.existsRow Select.roles (.group .conjunction [Select.link, .ofPredicate p])) := {
    freeOutput := free_columnItems readable_taskColumns
    freeSources := by decide
    freeCondition := by
      simp [Free, Item.splits]
      decide
    readsOutput := ofItems?_columnItems (by decide)
    readsSources := rfl
    readsCondition := rfl }
  have limited : List.Forall₂ Reads (limit.toList.map limitTokens)
      (limit.toList.map fun l => Select.pageItems (pageOf (some l))) :=
    forall₂_map fun l _ => reads_limitTokens l
  have pieces : Reads (listTasks (.ofPredicate p) terms limit).tokens
      ([[.token (.word "SELECT")], columnItems .tasks taskColumns,
        ["FROM", Select.tasks.table, Select.tasks.shortName, "WHERE", "EXISTS"].map
          fun name => .token (.word name),
        [.bracket (.rows Select.roles (.group .conjunction [Select.link, .ofPredicate p]))],
        .token (.word "ORDER") :: .token (.word "BY") :: orderItems terms] ++
        limit.toList.map fun l => Select.pageItems (pageOf (some l))).flatten :=
    .spaced <| List.rel_append (.cons .word <| .cons reads_columnTokens <| .cons .words <|
      .cons (reads_existsTokens p) <| .cons reads_orderTokens .nil) limited
  refine ofText?_eq (legible_listTasks p readable) ?_ (body.ofItems?_append
    (free_orderItems readable) (listOfItems?_orderItems nonempty) (pageOf limit))
  cases limit <;> simpa [Select.bodyItems, pageOf, Select.pageItems] using pieces

/-- The items of a join with their condition, and what they are read to. -/
theorem joinBody (p : Predicate) {output : List Item} (free : Free output) {shown : Output}
    (reads : Output.ofItems? output = some shown) :
    Select.Body output joinItems p.items shown Select.tasks (some (Select.roles, Select.link))
      (.ofPredicate p) where
  freeOutput := free
  freeSources := by decide
  freeCondition := p.free_items
  readsOutput := reads
  readsSources := rfl
  readsCondition := p.ofItems?_items

theorem legible_countTasks (p : Predicate) :
    Token.Legible (countTasks (.ofPredicate p)).tokens := by
  have count : Token.Legible
      (.word "COUNT" :: Token.bracketed (.word "DISTINCT" :: .blank :: Column.taskId.tokens)) := by
    have distinct := (Token.legible_append_blank (a := [.word "DISTINCT"])).mpr
      ⟨Token.legible_singleton.mpr (by decide), Column.readable_taskId.legible⟩
    exact Token.legible_word_cons_bracketed.mpr ⟨by decide, distinct⟩
  refine .spaced ?_
  simp only [List.forall_mem_cons]
  exact ⟨Token.legible_singleton.mpr (by decide), count, legible_joinTokens,
    p.legible_ofPredicate, by simp⟩

/-- The text of the count for a predicate is read as the count that was meant. -/
theorem ofText?_countTasks (p : Predicate) :
    Select.ofText? (countTasks (.ofPredicate p)).text (countTasks (.ofPredicate p)).values =
      some (.counting (.ofPredicate p)) := by
  have free : Free [.token (.word "COUNT"),
      .bracket (.distinct ⟨Select.tasks.shortName, Column.taskId.name⟩)] := by decide
  have body := joinBody p free rfl
  have count : Reads
      (.word "COUNT" :: Token.bracketed (.word "DISTINCT" :: .blank :: Column.taskId.tokens))
      [.token (.word "COUNT"),
        .bracket (.distinct ⟨Select.tasks.shortName, Column.taskId.name⟩)] :=
    Reads.word.append ((Reads.word.append (Reads.blank.append Column.reads_tokens)).bracketed rfl)
  have pieces : Reads (countTasks (.ofPredicate p)).tokens _ :=
    .spaced <| .cons .word <| .cons count <| .cons reads_joinTokens <|
      .cons p.reads_ofPredicate .nil
  refine ofText?_eq (legible_countTasks p) ?_ body.ofItems?_eq
  simpa [Select.bodyItems] using pieces

/-- The order in which role rows that match are listed. -/
def rowTerms : List OrderTerm :=
  [⟨.rowTask, true, none, false⟩, ⟨.rowRole, true, none, false⟩]

theorem readable_rowTerms : ∀ term ∈ rowTerms, term.column.Readable := by
  simp [rowTerms, Column.readable_rowTask, Column.readable_rowRole]

theorem legible_matchRows (p : Predicate) :
    Token.Legible (matchRows (.ofPredicate p)).tokens := by
  refine .spaced ?_
  simp only [List.forall_mem_cons]
  exact ⟨Token.legible_singleton.mpr (by decide), legible_columnTokens readable_roleColumns,
    legible_joinTokens, p.legible_ofPredicate, legible_orderTokens readable_rowTerms, by simp⟩

theorem ofText?_matchRows (p : Predicate) :
    Select.ofText? (matchRows (.ofPredicate p)).text (matchRows (.ofPredicate p)).values =
      some (.matching (.ofPredicate p) (rowTerms.map OrderTerm.sortTerm)) := by
  have body := joinBody p (free_columnItems readable_roleColumns)
    (ofItems?_columnItems (by decide))
  have order : Reads (orderTokens rowTerms) _ := reads_orderTokens
  have pieces : Reads (matchRows (.ofPredicate p)).tokens _ :=
    .spaced <| .cons .word <| .cons reads_columnTokens <| .cons reads_joinTokens <|
      .cons p.reads_ofPredicate <| .cons order .nil
  refine ofText?_eq (legible_matchRows p) ?_ (body.ofItems?_append
    (free_orderItems readable_rowTerms) (listOfItems?_orderItems (by decide)) none)
  simpa [Select.bodyItems, Select.pageItems] using pieces

/-- The comparison of a column with a list, as items. -/
def anyItems (c : Column) (values : List String) : List Item :=
  c.items ++ [.token (.mark "="), .token (.word "ANY"),
    .bracket (.expression (.value (.texts values)))]

theorem free_anyItems {c : Column} (readable : c.Readable) (values : List String) :
    Free (anyItems c values) :=
  readable.free.append (by simp [Free, Item.splits]; decide)

theorem ofItems?_anyItems {c : Column} (readable : c.Readable) (values : List String) :
    Expr.ofItems? (anyItems c values) =
      some (.equalsAny (.ofColumn c) (.value (.texts values))) := by
  have untested :=
    Item.cut?_of_free ((free_anyItems readable values).not_is (k := "IS") (by decide))
  have test : Expr.ofTest? (anyItems c values) =
      some (.equalsAny (.ofColumn c) (.value (.texts values))) := by
    rw [Expr.ofTest?, untested]
    simp only [Option.bind_eq_bind, Option.bind_some]
    rw [Expr.ofEquality?, anyItems, Column.cut?_equals (by simp [Item.is])]
    simp [Column.ofOverlap?_items]
  have read : Expr.ofItems? (List.intercalate [.token (.word "AND")] [anyItems c values]) = _ :=
    Expr.ofItems?_intercalate (c := .conjunction) (by simp)
      (by simpa using free_anyItems readable values) (.cons test .nil)
  rwa [List.intercalate_singleton] at read

/-- The order in which the role rows of tasks are loaded. -/
def loadTerms : List OrderTerm :=
  [⟨.rowTask, false, none, false⟩, ⟨.rowRole, false, none, false⟩]

theorem readable_loadTerms : ∀ term ∈ loadTerms, term.column.Readable := by
  simp [loadTerms, Column.readable_rowTask, Column.readable_rowRole]

/-- The text that loads the role rows of some tasks is read as the selection that was meant. -/
theorem ofText?_loadRows (ids : List String) :
    Select.ofText? (loadRows ids).text (loadRows ids).values =
      some (.loading ids (loadTerms.map OrderTerm.sortTerm)) := by
  have body : Select.Body (columnItems .roles roleColumns)
      [.token (.word Select.roles.table), .token (.word Select.roles.shortName)]
      (anyItems .rowTask ids) (.columns (roleColumns.map (⟨Select.roles.shortName, ·⟩)))
      Select.roles none (.equalsAny (.ofColumn .rowTask) (.value (.texts ids))) := {
    freeOutput := free_columnItems readable_roleColumns
    freeSources := by decide
    freeCondition := free_anyItems Column.readable_rowTask ids
    readsOutput := ofItems?_columnItems (by decide)
    readsSources := rfl
    readsCondition := ofItems?_anyItems Column.readable_rowTask ids }
  have legible : Token.Legible (loadRows ids).tokens := by
    have list : Token.Legible (.word "ANY" :: Token.bracketed [.bind (.texts ids)]) :=
      Token.legible_word_cons_bracketed.mpr ⟨by decide, Token.legible_singleton.mpr rfl⟩
    refine .spaced ?_
    simp only [List.forall_mem_cons]
    exact ⟨Token.legible_singleton.mpr (by decide), legible_columnTokens readable_roleColumns,
      legible_fromRoles, Column.readable_rowTask.legible, Token.legible_singleton.mpr (by decide),
      list,
      legible_orderTokens readable_loadTerms, by simp⟩
  have list : Reads (.word "ANY" :: Token.bracketed [.bind (.texts ids)])
      [.token (.word "ANY"), .bracket (.expression (.value (.texts ids)))] :=
    Reads.word.append (Reads.bind.bracketed rfl)
  have order : Reads (orderTokens loadTerms) _ := reads_orderTokens
  have pieces : Reads (loadRows ids).tokens _ :=
    .spaced <| .cons .word <| .cons reads_columnTokens <| .cons reads_fromRoles <|
      .cons Column.reads_tokens <| .cons (.token (by decide)) <| .cons list <| .cons order .nil
  refine ofText?_eq legible ?_ (body.ofItems?_append (free_orderItems readable_loadTerms)
    (listOfItems?_orderItems (by decide)) none)
  simpa [Select.bodyItems, Select.pageItems, anyItems] using pieces

/-! ## What statements find -/

theorem readable_ofOrder (order : SortOrder) :
    ∀ term ∈ OrderTerm.ofOrder order, term.column.Readable := by
  simp only [OrderTerm.ofOrder, List.forall_mem_append, List.forall_mem_map,
    List.forall_mem_singleton]
  refine ⟨fun key _ => ?_, Column.readable_taskId⟩
  -- each sort field has its own column, and all of them are words
  change (Column.mk .tasks key.field.column).Readable
  cases key.field <;> exact ⟨by decide, by decide⟩

/-- Statements mean what predicates say.  The texts of the listing without a page, of the count and
of the matching of role rows, read with the values that are bound to them, are the selections that
were meant.  The expression of the predicate in them is `TRUE`, and neither `FALSE` nor unknown,
exactly where the predicate holds of a task and a role row.  So of all stored tasks just those that
match are listed, each once, they are counted, and the role rows that are matched are those for
which the predicate holds. -/
theorem text_means_predicate (p : Predicate) (order : SortOrder) :
    let terms := OrderTerm.ofOrder order
    let listing := Select.listing (.ofPredicate p) (terms.map OrderTerm.sortTerm)
    let counting := Select.counting (.ofPredicate p)
    let matching := Select.matching (.ofPredicate p) (rowTerms.map OrderTerm.sortTerm)
    (Select.ofText? (listTasks (.ofPredicate p) terms none).text
        (listTasks (.ofPredicate p) terms none).values = some listing ∧
      Select.ofText? (countTasks (.ofPredicate p)).text (countTasks (.ofPredicate p)).values =
        some counting ∧
      Select.ofText? (matchRows (.ofPredicate p)).text (matchRows (.ofPredicate p)).values =
        some matching) ∧
    (∀ (db : Database) (t : Task) (id : String) (row : RoleRow),
      (Expr.ofPredicate p).truth? db (rowScope t id row) = some (p.truth t row) ∧
        (p.truth t row = some true ↔ p.holds t row = true)) ∧
    ∀ (db : Database) (ts : List Task), db.Stores ts →
      (∃ rows : List Row, listing.found? db = some rows ∧
        rows.Perm ((ts.filter p.matchesTask).map Task.cells)) ∧
      counting.found? db = some [[("count", .integer (ts.filter p.matchesTask).length)]] ∧
      ∃ rows : List Row, matching.found? db = some rows ∧
        rows.Perm (ts.flatMap fun t => (p.matchingRows t).map (·.cells t.id)) := by
  intro terms listing counting matching
  refine ⟨⟨?_, ofText?_countTasks p, ofText?_matchRows p⟩, fun db t id row => ?_,
    fun db ts stores => ?_⟩
  · exact ofText?_listTasks p (by simp [OrderTerm.ofOrder]) (readable_ofOrder order)
  · exact ⟨truth?_ofPredicate p, p.truth_eq_some_true_iff⟩
  · exact ⟨found?_listing stores _, found?_counting stores, found?_matching stores _⟩

end Statement

end Sql

end Caseload
