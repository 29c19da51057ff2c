import Caseload.Proofs.Sql.Grammar

/-!
# Conditions as expressions

The condition that a predicate becomes is read as the expression of that predicate wherever it
stands among other tokens: groups, comparisons and prefixes come out as they went in.  What makes
this go through is that the items of a condition are never split: a group of several parts stands
in brackets, and no other condition has a keyword outside of brackets (`free_items`).
-/

namespace Caseload

open Sql

/-! ## Columns -/

namespace Sql.Column

/-- A column whose name is one word and none at which items are split. -/
structure Readable (c : Column) : Prop where
  spelled : (Token.word c.name).wellSpelled = true
  plain : c.name ∉ keywords

theorem readable_ofField (field : Field) : (ofField field).Readable := by
  cases field <;> exact ⟨by decide, by decide⟩

theorem readable_ofPermission (permission : Permission) : (ofPermission permission).Readable := by
  cases permission <;> exact ⟨by decide, by decide⟩

theorem readable_authorizations : authorizations.Readable :=
  ⟨by decide, by decide⟩

theorem readable_rowTask : rowTask.Readable :=
  ⟨by decide, by decide⟩

theorem readable_rowRole : rowRole.Readable :=
  ⟨by decide, by decide⟩

theorem readable_taskId : taskId.Readable :=
  ⟨by decide, by decide⟩

/-- The items that a column becomes. -/
def items (c : Column) : List Item :=
  [.token (.word c.table.shortName), .token (.mark "."), .token (.word c.name)]

variable {c : Column}

theorem reads_tokens : Reads c.tokens c.items :=
  Reads.word.append ((Reads.token (by decide)).append Reads.word)

theorem Readable.legible (readable : c.Readable) : Token.Legible c.tokens := by
  have shortName : (Token.word c.table.shortName).wellSpelled = true := by
    cases c.table <;> decide
  exact (Token.legible_append_cons (a := [.word c.table.shortName]) (by decide) (by decide)).mpr
    ⟨Token.legible_singleton.mpr shortName, Token.legible_singleton.mpr readable.spelled⟩

theorem Readable.free (readable : c.Readable) : Free c.items := by
  have shortName : c.table.shortName ∉ keywords := by cases c.table <;> decide
  simp [Free, items, Item.splits, shortName, readable.plain]

/-- A column is no comparison. -/
theorem not_is_mark {spelling : String} (other : spelling ≠ ".") :
    ∀ i ∈ c.items, i.is (.mark spelling) = false := by
  simp [items, Item.is, other.symm]

theorem ofOperand?_items : Expr.ofOperand? c.items = some (.ofColumn c) := by
  obtain ⟨table, name⟩ := c
  cases table <;> rfl

theorem ofOverlap?_items : Expr.ofOverlap? c.items = some (.ofColumn c) := by
  rw [Expr.ofOverlap?, Item.cut?_of_free (not_is_mark (by decide))]
  exact ofOperand?_items

/-- The comparison of a column is cut at its equals sign. -/
theorem cut?_equals {right : List Item} (free : ∀ i ∈ right, i.is (.mark "=") = false) :
    Item.cut? (.mark "=") (c.items ++ .token (.mark "=") :: right) = some (c.items, some right) :=
  Item.cut?_append (not_is_mark (by decide)) free

end Sql.Column

namespace Predicate

/-- The items that the condition of a predicate becomes. -/
def items : Predicate → List Item
  | .constant b => (Condition.constantTokens b).map .token
  | .group c [] => (Condition.constantTokens c.unit).map .token
  | .equals field value =>
    (Column.ofField field).items ++ [.token (.mark "="), .token (.bind (.text value))]
  | .oneOf field values =>
    (Column.ofField field).items ++ [.token (.mark "="), .token (.word "ANY"),
      .bracket (.expression (.value (.texts values)))]
  | .rowAdmits held =>
    Column.authorizations.items ++ [.token (.mark "&&"), .token (.bind (.texts held))]
  | .granted permission =>
    (Column.ofPermission permission).items ++ [.token (.mark "="), .token (.word "TRUE")]
  | p@(.group _ (_ :: _)) | p@.rowOpen => [.bracket (.expression (.ofPredicate p))]

theorem free_items (p : Predicate) : Free p.items := by
  cases p with
  | constant b => cases b <;> decide
  | group c parts =>
    cases parts with
    | nil => cases c <;> decide
    | cons p rest => simp [Free, items, Item.splits]
  | rowOpen => simp [Free, items, Item.splits]
  | equals field value =>
    exact (Column.readable_ofField field).free.append (by simp [Free, Item.splits])
  | oneOf field values =>
    exact (Column.readable_ofField field).free.append (by simp [Free, Item.splits]; decide)
  | rowAdmits held =>
    exact Column.readable_authorizations.free.append (by simp [Free, Item.splits])
  | granted permission =>
    exact (Column.readable_ofPermission permission).free.append
      (by simp [Free, Item.splits]; decide)

theorem ofTest?_items (p : Predicate) : Expr.ofTest? p.items = some (.ofPredicate p) := by
  -- what asks whether a column is null stands in brackets, so no test is left on this level
  have untested := Item.cut?_of_free (p.free_items.not_is (k := "IS") (by decide))
  rw [Expr.ofTest?, untested]
  simp only [Option.bind_eq_bind, Option.bind_some]
  cases p with
  | constant b => cases b <;> rfl
  | group c parts =>
    cases parts with
    | nil => cases c <;> rfl
    | cons p rest => rfl
  | rowOpen => rfl
  | equals field value =>
    have right : Expr.ofOverlap? [.token (.bind (.text value))] = some (.value (.text value)) := by
      rw [Expr.ofOverlap?, Item.cut?_of_free (by simp [Item.is])]
      rfl
    rw [Expr.ofEquality?, items, Column.cut?_equals (by simp [Item.is])]
    simp [Column.ofOverlap?_items, Expr.ofPredicate, right]
  | oneOf field values =>
    rw [Expr.ofEquality?, items, Column.cut?_equals (by simp [Item.is])]
    simp [Column.ofOverlap?_items, Expr.ofPredicate]
  | rowAdmits held =>
    -- without an equals sign, the overlap is all there is to read
    rw [Expr.ofEquality?, items, Item.cut?_of_free (by simp [Item.is, Column.items])]
    have cut : Item.cut? (.mark "&&") (Column.authorizations.items ++
        [.token (.mark "&&"), .token (.bind (.texts held))]) =
          some (Column.authorizations.items, some [.token (.bind (.texts held))]) :=
      Item.cut?_append (Column.not_is_mark (by decide)) (by simp [Item.is])
    simp only [Expr.ofOverlap?, cut, Option.bind_eq_bind, Option.bind_some, Column.ofOperand?_items]
    rfl
  | granted permission =>
    rw [Expr.ofEquality?, items, Column.cut?_equals (by simp [Item.is])]
    have right : Expr.ofOverlap? [.token (.word "TRUE")] = some (.value (.boolean true)) := rfl
    simp [Column.ofOverlap?_items, Expr.ofPredicate, right]

end Predicate

/-! ## Groups -/

namespace Sql.Condition

variable {c : Connective} {p : Condition} {rest : List Condition}

/-- The parts of a group are written with the word of its connective between them. -/
theorem tokens_append_restTokens :
    p.tokens ++ restTokens c rest =
      List.intercalate (.blank :: connectiveTokens c ++ [.blank]) ((p :: rest).map tokens) := by
  induction rest generalizing p with
  | nil => simp [restTokens]
  | cons q rest ih =>
    rw [List.map_cons, List.map_cons, List.intercalate_cons_cons, ← List.map_cons, ← ih]
    simp [restTokens]

theorem legible_group (legible : ∀ q ∈ p :: rest, Token.Legible q.tokens) :
    Token.Legible (group c (p :: rest)).tokens := by
  rw [tokens, Token.legible_bracketed, tokens_append_restTokens]
  refine Token.Legible.intercalate (fun left right => ?_) (List.forall_mem_map.mpr legible)
  have between : Token.Legible (connectiveTokens c) := by
    cases c <;> exact Token.legible_singleton.mpr (by decide)
  simpa using ⟨left, between, right⟩

/-- A group becomes what its parts are read to in brackets. -/
theorem reads_group {parts : List (List Item)}
    (each : List.Forall₂ Reads ((p :: rest).map tokens) parts) {content : Content}
    (found : Content.ofItems? (List.intercalate [.token (.word (connectiveWord c))] parts) =
      some content) : Reads (group c (p :: rest)).tokens [.bracket content] := by
  have between : Reads (.blank :: connectiveTokens c ++ [.blank])
      [.token (.word (connectiveWord c))] := by
    cases c <;> exact Reads.blank.append (Reads.word.append Reads.blank)
  rw [tokens, tokens_append_restTokens]
  exact (Reads.intercalate between each).bracketed found

end Sql.Condition

namespace Predicate

/-! ## Conditions of predicates -/

mutual

theorem legible_ofPredicate : (p : Predicate) → Token.Legible (Condition.ofPredicate p).tokens
  | .constant b => by
    cases b <;> exact Token.legible_singleton.mpr (by decide)
  | .group c [] => by
    cases c <;> exact Token.legible_singleton.mpr (by decide)
  | .group c (p :: rest) => by
    have each := legible_ofPredicates (p :: rest)
    exact Condition.legible_group each
  | .equals field value => .spaced <| by
    simp [(Column.readable_ofField field).legible]
    exact ⟨by decide, rfl⟩
  | .oneOf field values => .spaced <| by
    simp [(Column.readable_ofField field).legible]
    exact ⟨by decide, by decide, rfl⟩
  | .rowOpen => by
    have isNull : Token.Legible (Condition.isNull .authorizations).tokens := .spaced <| by
      simp [Column.readable_authorizations.legible]
      decide
    have hasNoItem : Token.Legible (Condition.hasNoItem .authorizations).tokens := .spaced <| by
      simp [Column.readable_authorizations.legible]
      decide
    exact Condition.legible_group (by simp [isNull, hasNoItem])
  | .rowAdmits held => .spaced <| by
    simp [Column.readable_authorizations.legible]
    exact ⟨by decide, rfl⟩
  | .granted permission => .spaced <| by
    simp [(Column.readable_ofPermission permission).legible]
    decide

theorem legible_ofPredicates :
    (parts : List Predicate) → ∀ q ∈ Condition.ofPredicates parts, Token.Legible q.tokens
  | p :: rest, q, mem => by
    cases mem with
    | head => exact legible_ofPredicate p
    | tail _ mem => exact legible_ofPredicates rest q mem

end

theorem ofTest?_items_each (parts : List Predicate) :
    List.Forall₂ (fun part e => Expr.ofTest? part = some e) (parts.map items)
      (Expr.ofPredicates parts) := by
  induction parts with
  | nil => exact .nil
  | cons p rest ih => exact .cons (ofTest?_items p) ih

/-- The parts of a group, with the word of its connective between them, are read as the group. -/
theorem ofItems?_group {c : Connective} {p : Predicate} {rest : List Predicate} :
    Content.ofItems?
        (List.intercalate [.token (.word (connectiveWord c))] ((p :: rest).map items)) =
      some (.expression (.ofPredicate (.group c (p :: rest)))) := by
  have free : ∀ part ∈ (p :: rest).map items, Free part :=
    List.forall_mem_map.mpr fun q _ => q.free_items
  -- what stands in the brackets of a group is neither a subquery nor a count
  refine Content.ofItems?_expression ?_ ?_
    (Expr.ofItems?_intercalate (by simp) free (ofTest?_items_each (p :: rest)))
  · refine forall_mem_intercalate (by cases c <;> decide) fun part mem => ?_
    exact (free part mem).not_is (by decide)
  · refine forall_mem_intercalate (by cases c <;> decide) fun part mem => ?_
    exact (free part mem).not_is (by decide)

mutual

theorem reads_ofPredicate : (p : Predicate) → Reads (Condition.ofPredicate p).tokens p.items
  | .constant b => by
    cases b <;> exact .word
  | .group c [] => by
    cases c <;> exact .word
  | .group c (p :: rest) => by
    have each := reads_ofPredicates (p :: rest)
    exact Condition.reads_group each ofItems?_group
  | .equals field value =>
    .spaced (.cons Column.reads_tokens (.cons (.token (by decide)) (.cons .bind .nil)))
  | .oneOf field values => by
    have list : Reads (.word "ANY" :: Token.bracketed [.bind (.texts values)])
        [.token (.word "ANY"), .bracket (.expression (.value (.texts values)))] :=
      Reads.word.append (Reads.bind.bracketed rfl)
    exact .spaced (.cons Column.reads_tokens (.cons (.token (by decide)) (.cons list .nil)))
  | .rowOpen => by
    have isNull : Reads (Condition.isNull .authorizations).tokens
        (Column.authorizations.items ++ [.token (.word "IS"), .token (.word "NULL")]) :=
      .spaced (.cons Column.reads_tokens (.cons .word (.cons .word .nil)))
    have call : Reads (.word "cardinality" :: Token.bracketed Column.authorizations.tokens)
        [.token (.word "cardinality"), .bracket (.expression (.ofColumn .authorizations))] :=
      Reads.word.append (Column.reads_tokens.bracketed rfl)
    have hasNoItem : Reads (Condition.hasNoItem .authorizations).tokens
        [.token (.word "cardinality"), .bracket (.expression (.ofColumn .authorizations)),
          .token (.mark "="), .token (.number 0)] :=
      .spaced (.cons call (.cons (.token (by decide)) (.cons (.token (by decide)) .nil)))
    have each : List.Forall₂ Reads
        ([Condition.isNull .authorizations, .hasNoItem .authorizations].map Condition.tokens) _ :=
      .cons isNull (.cons hasNoItem .nil)
    exact Condition.reads_group each rfl
  | .rowAdmits held =>
    .spaced (.cons Column.reads_tokens (.cons (.token (by decide)) (.cons .bind .nil)))
  | .granted permission =>
    .spaced (.cons Column.reads_tokens (.cons (.token (by decide)) (.cons .word .nil)))

theorem reads_ofPredicates : (parts : List Predicate) →
    List.Forall₂ Reads ((Condition.ofPredicates parts).map Condition.tokens) (parts.map items)
  | [] => .nil
  | p :: rest => .cons (reads_ofPredicate p) (reads_ofPredicates rest)

end

theorem ofItems?_items (p : Predicate) : Expr.ofItems? p.items = some (.ofPredicate p) := by
  have read : Expr.ofItems? (List.intercalate [.token (.word "AND")] [p.items]) =
      some (.ofPredicate p) :=
    Expr.ofItems?_intercalate (c := .conjunction) (by simp) (by simpa using p.free_items)
      (.cons p.ofTest?_items .nil)
  rwa [List.intercalate_singleton] at read

end Predicate

end Caseload
