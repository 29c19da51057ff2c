import Caseload.Proofs.Sql.Binding
import Caseload.Proofs.Store.Listing

/-!
# Values stay out of statement texts

What a store asks of its database for a predicate is written without anything that the predicate
compares with: the text has placeholders, and each of them is bound to its own value
(`values_stay_out_of_text`).
-/

namespace Caseload

open Sql (OrderTerm Session Statement Token)

namespace DatabaseStore

theorem carries_ofOrder (order : SortOrder) :
    ∀ term ∈ OrderTerm.ofOrder order, Token.Carries term.column.tokens [] := by
  simp only [OrderTerm.ofOrder, List.forall_mem_append, List.forall_mem_map,
    List.forall_mem_singleton]
  refine ⟨fun key _ => ?_, .fixed⟩
  change Token.Carries (Sql.Column.mk .tasks key.field.column).tokens []
  cases key.field <;> exact Sql.Column.carries_tokens (by decide)

/-- The values of a page, as they are bound. -/
def pageValues (page : Option Window) : List Sql.Value :=
  page.toList.flatMap fun w => [.integer w.limit, .integer w.offset]

theorem exists_limitValues {page : Option Window}
    (sendable : ∀ w ∈ page, w.Reached ∧ w.offset ≤ maxSigned) :
    ∃ limit : Option Sql.Limit, page.mapM Window.toLimit = .ok limit ∧
      limit.toList.flatMap Statement.limitValues = pageValues page := by
  cases page with
  | none => exact ⟨none, rfl, rfl⟩
  | some w =>
    obtain ⟨reached, fits⟩ := sendable w rfl
    obtain ⟨l, converted, limit, offset⟩ := w.exists_toLimit_eq reached fits
    refine ⟨some l, ?_, ?_⟩
    · simp [converted]
    · simp [Statement.limitValues, pageValues, limit, offset]

theorem begins_list {q : Query} {limit : Option Sql.Limit}
    (page : q.page.mapM Window.toLimit = .ok limit) :
    (list q).Begins (.listTasks (.ofPredicate q.predicate) (OrderTerm.ofOrder q.order) limit) :=
  fun _ => head?_run_list page

theorem begins_count (p : Predicate) : (count p).Begins (.countTasks (.ofPredicate p)) :=
  fun _ => Session.head?_run_send

theorem begins_rows (p : Predicate) : (rows p).Begins (.matchRows (.ofPredicate p)) :=
  fun _ => Session.head?_run_send

/-- Values stay out of statement texts.  Whatever its database replies, a store begins a listing, a
count and a search for role rows each with one statement.  The placeholders in its text are numbered
from 1 on, from left to right, and as many values are bound: what the leaves of the predicate
compare with, from left to right, and in a listing then the limit and the offset of the page.  And
the texts are the same for every predicate that differs in nothing but what its leaves carry. -/
theorem values_stay_out_of_text (p : Predicate) (order : SortOrder) (page : Option Window)
    (sendable : ∀ w ∈ page, w.Reached ∧ w.offset ≤ maxSigned) :
    ∃ listing counting matching : Statement,
      ((list ⟨p, order, page⟩).Begins listing ∧ (count p).Begins counting ∧
        (rows p).Begins matching) ∧
      (listing.Binds (p.comparands ++ pageValues page) ∧ counting.Binds p.comparands ∧
        matching.Binds p.comparands) ∧
      ∀ (q : Predicate) (listing' counting' matching' : Statement), q.shape = p.shape →
        (list ⟨q, order, page⟩).Begins listing' → (count q).Begins counting' →
        (rows q).Begins matching' →
        listing'.text = listing.text ∧ counting'.text = counting.text ∧
          matching'.text = matching.text := by
  obtain ⟨limit, converted, shown⟩ := exists_limitValues sendable
  refine ⟨_, _, _, ⟨begins_list converted, begins_count p, begins_rows p⟩, ⟨?_, ?_, ?_⟩, ?_⟩
  · rw [← shown]
    exact Statement.binds (Statement.legible_listTasks p (Statement.readable_ofOrder order))
      (Statement.carries_listTasks p (carries_ofOrder order) limit)
  · exact Statement.binds (Statement.legible_countTasks p) (Statement.carries_countTasks p)
  · exact Statement.binds (Statement.legible_matchRows p) (Statement.carries_matchRows p)
  · intro q listing' counting' matching' same listed counted matched
    have alike := Predicate.alike_of_shape_eq same
    obtain rfl := listed.unique (begins_list converted)
    obtain rfl := counted.unique (begins_count q)
    obtain rfl := matched.unique (begins_rows q)
    exact ⟨(Statement.alike_listTasks alike limit).spell_eq,
      (Statement.alike_countTasks alike).spell_eq, (Statement.alike_matchRows alike).spell_eq⟩

/-- A task is looked for by a state that is written like a piece of a statement, with a dollar sign
in it, and by no location at all.  The second page of one task binds five values, and its text is
the one for another state and for two locations. -/
theorem values_of_second_page :
    let asked (state : String) (locations held : List String) : Predicate :=
      .group .conjunction [.equals .state state, .group .disjunction [],
        .oneOf .location locations, .rowAdmits held]
    let hostile := asked "x' OR $9" [] ["a", "$1"]
    ∃ w, Window.ofRequest 1 1 = .ok w ∧ (w.Reached ∧ w.offset ≤ maxSigned) ∧
      ∃ listing : Statement, (list ⟨hostile, ⟨[]⟩, some w⟩).Begins listing ∧
        Token.placeholders listing.text = ["$1", "$2", "$3", "$4", "$5"] ∧
        listing.values = [.text "x' OR $9", .texts [], .texts ["a", "$1"], .integer 1,
          .integer 1] ∧
        ∀ listing', (list ⟨asked "open" ["1", "2"] [], ⟨[]⟩, some w⟩).Begins listing' →
          listing'.text = listing.text := by
  intro asked hostile
  let w : Window := ⟨1, 1, by decide, by decide, by decide⟩
  have accepted : Window.ofRequest 1 1 = .ok w := rfl
  have offset : w.offset ≤ maxSigned := by decide
  obtain ⟨listing, counting, matching, ⟨begins, -⟩, ⟨⟨placeholders, values⟩, -⟩, same⟩ :=
    values_stay_out_of_text hostile ⟨[]⟩ (some w) (by simpa using ⟨.start accepted, offset⟩)
  refine ⟨w, accepted, ⟨.start accepted, offset⟩, listing, begins, placeholders, values, ?_⟩
  intro listing' begins'
  exact (same (asked "open" ["1", "2"] []) listing' _ _ rfl begins' (begins_count _)
    (begins_rows _)).1

end DatabaseStore

end Caseload
