import Caseload.Proofs.Store.Binding

/-!
# How a count and a listing are worded

A count and a listing for one predicate have the text of its condition in common, with the same
placeholders in it, since nothing that is bound stands before it in either of them.  A listing goes
on after the condition with its order and the two placeholders of its page.
-/

namespace Caseload

open Sql (Condition Limit OrderTerm Server Statement Token Value)

namespace Sql.Token

variable {ts us : List Token}

theorem values_append (ts us : List Token) : values (ts ++ us) = values ts ++ values us :=
  List.filterMap_append

theorem spellFrom_append (next : Nat) (ts us : List Token) :
    spellFrom next (ts ++ us) = spellFrom next ts ++ spellFrom (next + (values ts).length) us := by
  induction ts generalizing next with
  | nil => simp [spellFrom, values]
  | cons t ts ih =>
    rw [List.cons_append, spellFrom_cons, spellFrom_cons, ih, values_cons t ts]
    simp [Nat.add_assoc]

theorem spell_append (ts us : List Token) :
    spell (ts ++ us) = spell ts ++ String.join (spellFrom (1 + (values ts).length) us) := by
  rw [spell, spellFrom_append, String.join_append, spell]

theorem spell_append_of_unbound (unbound : values ts = []) :
    spell (ts ++ us) = spell ts ++ spell us := by
  rw [spell_append, unbound]
  rfl

/-- Tokens without placeholders are spelled in the same way wherever they stand. -/
theorem join_spellFrom_of_unbound (unbound : values ts = []) (next : Nat) :
    String.join (spellFrom next ts) = spell ts := by
  induction ts with
  | nil => rfl
  | cons t ts ih =>
    rw [values_cons, List.append_eq_nil_iff] at unbound
    simp only [spell, spellFrom_cons, unbound.1, String.join_cons, List.length_nil, Nat.add_zero]
    rw [ih unbound.2, spell]
    cases t <;> simp_all [spelling, values]

end Sql.Token

/-! ## Texts -/

def Sql.Condition.text (c : Condition) : String :=
  Token.spell c.tokens

namespace Sql.Statement

/-- The text of a count up to its condition. -/
def countingFront : String :=
  "SELECT COUNT(DISTINCT t.task_id) FROM tasks t JOIN task_roles r ON r.task_id = t.task_id WHERE "

/-- The text of a listing up to its condition. -/
def listingFront : String :=
  "SELECT t.task_id, t.task_name, t.task_type, t.state, t.jurisdiction, t.region, t.location, " ++
    "t.location_name, t.case_id, t.case_type_id, t.case_name, t.case_category, t.assignee, " ++
    "t.work_type, t.role_category, t.security_classification, t.title, t.due_date_time, " ++
    "t.priority_date, t.major_priority, t.minor_priority, t.next_hearing_date, t.created " ++
    "FROM tasks t WHERE EXISTS (SELECT 1 FROM task_roles r WHERE r.task_id = t.task_id AND "

/-- The tokens of a listing up to its condition. -/
def listingTokens : List Token :=
  Token.spaced [
    [.word "SELECT"],
    columnTokens .tasks taskColumns,
    Token.words ["FROM", Table.tasks.name, Table.tasks.shortName, "WHERE", "EXISTS"],
    .opening :: Token.spaced [
      [.word "SELECT"], [.number 1],
      Token.words ["FROM", Table.roles.name, Table.roles.shortName, "WHERE"],
      Column.rowTask.tokens, [.mark "="], Column.taskId.tokens, [.word "AND"]]] ++ [.blank]

theorem spell_listingTokens : Token.spell listingTokens = listingFront := by
  decide +kernel

/-- The text of a page after some placeholders. -/
def pageText (others : Nat) : String :=
  " LIMIT $" ++ toString (others + 1) ++ " OFFSET $" ++ toString (others + 2)

theorem text_countTasks (c : Condition) : (countTasks c).text = countingFront ++ c.text := by
  let front : List Token := Token.spaced [
    [.word "SELECT"],
    .word "COUNT" :: Token.bracketed (.word "DISTINCT" :: .blank :: Column.taskId.tokens),
    joinTokens] ++ [.blank]
  have tokens : (countTasks c).tokens = front ++ c.tokens := by
    simp [Statement.tokens, front, Token.spaced, List.intercalate_cons_cons]
  have spelled : Token.spell front = countingFront := by decide +kernel
  rw [text, tokens, Token.spell_append_of_unbound (by decide), spelled]
  rfl

theorem spell_page (others : Nat) (l : Limit) :
    String.join (Token.spellFrom (1 + others) (.blank :: limitTokens l)) = pageText others := by
  simp [limitTokens, Token.spaced, List.intercalate_cons_cons, Token.spellFrom, pageText,
    Nat.add_comm 1, ← String.toList_inj]

theorem text_listTasks (c : Condition) {terms : List OrderTerm} (l : Limit)
    (unbound : Token.values (orderTokens terms) = []) :
    (listTasks c terms (some l)).text =
      listingFront ++ c.text ++ ") " ++ Token.spell (orderTokens terms) ++
        pageText (Token.values c.tokens).length := by
  let order := [.closing, .blank] ++ orderTokens terms
  let page := .blank :: limitTokens l
  have tokens : (listTasks c terms (some l)).tokens =
      listingTokens ++ (c.tokens ++ (order ++ page)) := by
    simp [Statement.tokens, listingTokens, order, page, Token.spaced, Token.bracketed,
      List.intercalate_cons_cons]
  have ordered : Token.values order = [] := by
    rw [Token.values_append, unbound]
    rfl
  calc (listTasks c terms (some l)).text
    _ = listingFront ++ Token.spell (c.tokens ++ (order ++ page)) := by
      rw [text, tokens, Token.spell_append_of_unbound (by decide), spell_listingTokens]
    _ = listingFront ++ (c.text ++ (Token.spell order ++
          pageText (Token.values c.tokens).length)) := by
      rw [Token.spell_append, Token.spellFrom_append, String.join_append,
        Token.join_spellFrom_of_unbound ordered, ordered, ← spell_page _ l]
      rfl
    _ = listingFront ++ c.text ++ ") " ++ Token.spell (orderTokens terms) ++
          pageText (Token.values c.tokens).length := by
      rw [Token.spell_append_of_unbound rfl]
      simp only [String.append_assoc]
      rfl

end Sql.Statement

/-! ## What a store sends -/

namespace DatabaseStore

/-- The statement that counts the tasks that match a predicate. -/
def counting (p : Predicate) : Statement :=
  .countTasks (.ofPredicate p)

/-- The statement that lists a page of the tasks that match a predicate. -/
def listing (p : Predicate) (order : SortOrder) (w : Window) : Statement :=
  .listTasks (.ofPredicate p) (OrderTerm.ofOrder order)
    (some ⟨Int64.ofNat w.limit, Int64.ofNat w.offset⟩)

variable {p : Predicate} {order : SortOrder} {w : Window}

theorem text_listing :
    (listing p order w).text = Statement.listingFront ++ (Condition.ofPredicate p).text ++ ") " ++
      Token.spell (Sql.orderTokens (OrderTerm.ofOrder order)) ++
        Statement.pageText p.comparands.length := by
  rw [listing, Statement.text_listTasks, p.carries_ofPredicate.values_eq]
  exact (Sql.carries_orderTokens (carries_ofOrder order)).values_eq

theorem values_counting : (counting p).values = p.comparands :=
  (Statement.carries_countTasks p).values_eq

/-- The page is bound after what the predicate compares with, number by number. -/
theorem values_listing (reached : w.Reached) (offset : w.offset ≤ maxSigned) :
    (listing p order w).values = p.comparands ++ [.integer w.limit, .integer w.offset] := by
  have carried := (Statement.carries_listTasks p (carries_ofOrder order)
    (some ⟨Int64.ofNat w.limit, Int64.ofNat w.offset⟩)).values_eq
  rw [listing, Statement.values, carried]
  simp [Statement.limitValues, toInt_ofNat_of_le reached.limit_le, toInt_ofNat_of_le offset]

theorem mapM_toLimit_eq_ok (reached : w.Reached) (offset : w.offset ≤ maxSigned) :
    (some w).mapM Window.toLimit =
      .ok (some ⟨Int64.ofNat w.limit, Int64.ofNat w.offset⟩) := by
  have limit := reached.limit_le
  rw [Option.mapM_some, Window.toLimit, if_neg (by omega), if_neg (by omega)]
  rfl

/-- The limit of a window that callers can reach is never what is too large. -/
theorem mapM_toLimit_eq_error (reached : w.Reached) (offset : maxSigned < w.offset) :
    (some w).mapM Window.toLimit = .error .offsetTooLarge := by
  have limit := reached.limit_le
  rw [Option.mapM_some, Window.toLimit, if_neg (by omega), if_pos offset]
  rfl

theorem run_list_of_beyond {server : Server} {before : List Statement} (reached : w.Reached)
    (beyond : maxSigned < w.offset) :
    (list ⟨p, order, some w⟩).run.run server before = (before, .error .offsetTooLarge) := by
  rw [list, mapM_toLimit_eq_error reached beyond]
  rfl

end DatabaseStore

end Caseload
