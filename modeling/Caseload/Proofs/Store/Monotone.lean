import Caseload.Proofs.Access.Monotone
import Caseload.Proofs.Store.Invisible
import Caseload.Proofs.Store.Run
import Mathlib.Logic.Relation

/-!
# What easing an inquiry finds

An inquiry is what a search of a store is made of besides its time and its page.  It can be eased:
another role, a role that is limited less, a permission that is no longer required, one more
accepted value.  However often that is done, nothing that was found is lost, and what is found keeps
its order (`easing_keeps_listing`).  Nor does it matter in which order roles, permissions and values
are given, or how often.
-/

namespace Caseload

/-- What someone asks of a store: with which roles, for tasks that allow what, and which tasks. -/
structure Inquiry where
  roles : List RoleAssignment
  required : List Permission
  request : SearchRequest

namespace Inquiry

def condition (i : Inquiry) (now : Instant) : Predicate :=
  Caller.searchCondition ⟨i.roles, now⟩ i.request i.required

/-- The answer of a store, and the store after it. -/
def ask (i : Inquiry) (s : MemoryStore) (now : Instant) (page : Window) :
    Except Error (SearchResult Task) × MemoryStore :=
  (MemoryStore.shared.search ⟨i.roles, now⟩ i.request i.required page).run s

/-- One way in which an inquiry can be eased. -/
inductive Eased (i : Inquiry) : Inquiry → Prop
  | addRole {before after : List RoleAssignment} {a : RoleAssignment}
      (split : i.roles = before ++ after) : Eased i { i with roles := before ++ a :: after }
  | easeRole {before after : List RoleAssignment} {a b : RoleAssignment}
      (split : i.roles = before ++ a :: after) (eased : a.Eased b) :
      Eased i { i with roles := before ++ b :: after }
  | dropPermission {before after : List Permission} {p : Permission}
      (split : i.required = before ++ p :: after) : Eased i { i with required := before ++ after }
  /-- Lists of accepted values get one more value each, but an empty list stays empty. -/
  | addValue {request : SearchRequest} (extended : i.request.Related Extended request) :
      Eased i { i with request }

/-- Inquiries with the same roles, the same required permissions and, list by list, the same
accepted values. -/
structure SameSets (i j : Inquiry) : Prop where
  roles : SameMembers i.roles j.roles
  required : SameMembers i.required j.required
  request : i.request.Related SameMembers j.request

/-- An inquiry that is sorted and refused like another one and finds, at any time, whatever the
other one finds. -/
structure Within (i j : Inquiry) : Prop where
  sorting : i.request.sorting = j.request.sorting
  hasFilter : i.request.hasFilter = j.request.hasFilter
  entails : ∀ now, (i.condition now).Entails (j.condition now)

variable {i j k : Inquiry} {s : MemoryStore} {now : Instant}

namespace Within

theorem refl (i : Inquiry) : i.Within i :=
  ⟨rfl, rfl, fun _ _ _ holds => holds⟩

theorem trans (ij : i.Within j) (jk : j.Within k) : i.Within k where
  sorting := ij.sorting.trans jk.sorting
  hasFilter := ij.hasFilter.trans jk.hasFilter
  entails now := (ij.entails now).trans (jk.entails now)

/-- It is enough that for each role there is one that limits no more, that nothing more is required,
and that the filters accept no less. -/
theorem of_parts (roles : ∀ a ∈ i.roles, ∃ b ∈ j.roles, a.Within b)
    (required : j.required ⊆ i.required) (request : i.request.Related Loosens j.request) :
    i.Within j where
  sorting := request.sorting
  hasFilter := request.hasFilter_eq
  entails now t row holds := by
    obtain ⟨⟨a, mem, sees⟩, granted, accepts⟩ :=
      (holds_searchCondition_iff ⟨i.roles, now⟩ i.request i.required t row).mp holds
    obtain ⟨b, held, within⟩ := roles a mem
    refine (holds_searchCondition_iff ⟨j.roles, now⟩ j.request j.required t row).mpr ?_
    exact ⟨⟨b, held, within.sees sees⟩, fun p mem => granted p (required mem),
      request.accepts accepts⟩

end Within

/-- Easing an inquiry once loses nothing. -/
theorem Eased.within (eased : i.Eased j) : i.Within j := by
  have kept (roles : List RoleAssignment) : ∀ a ∈ roles, ∃ b ∈ roles, a.Within b :=
    fun a mem => ⟨a, mem, .refl a⟩
  have unchanged : i.request.Related Loosens i.request := .refl Loosens.refl i.request
  cases eased with
  | @addRole before after added split =>
    refine .of_parts (fun a mem => ⟨a, ?_, .refl a⟩) (List.Subset.refl _) unchanged
    rw [split] at mem
    exact subset_append_cons before added after mem
  | @easeRole before after a b split eased =>
    refine .of_parts (fun c mem => ?_) (List.Subset.refl _) unchanged
    rw [split, List.mem_append, List.mem_cons] at mem
    obtain mem | rfl | mem := mem
    · exact ⟨c, List.mem_append_left _ mem, .refl c⟩
    · exact ⟨b, List.mem_append_right _ (.head _), eased.within⟩
    · exact ⟨c, List.mem_append_right _ (.tail _ mem), .refl c⟩
  | @dropPermission before after dropped split =>
    refine .of_parts (kept _) ?_ unchanged
    rw [split]
    exact subset_append_cons before dropped after
  | addValue extended =>
    exact .of_parts (kept _) (List.Subset.refl _) (extended.mono Extended.loosens)

/-- However often an inquiry is eased, nothing is lost. -/
theorem within_of_eased (eased : Relation.ReflTransGen Eased i j) : i.Within j := by
  induction eased with
  | refl => exact .refl i
  | tail _ step ih => exact ih.trans step.within

theorem SameSets.within (same : i.SameSets j) : i.Within j :=
  .of_parts (fun a mem => ⟨a, (same.roles a).mp mem, .refl a⟩) (fun p => (same.required p).mpr)
    (same.request.mono SameMembers.loosens)

theorem SameSets.symm (same : i.SameSets j) : j.SameSets i where
  roles := same.roles.symm
  required := same.required.symm
  request := same.request.flip.mono SameMembers.symm

/-! ## Answers -/

/-- All stored tasks that are found, in order. -/
def listing (i : Inquiry) (s : MemoryStore) (now : Instant) : List Task :=
  i.request.taskOrder.sort (s.matching (i.condition now))

theorem ask_of_hasFilter (filtered : i.request.hasFilter = true) (page : Window) :
    i.ask s now page = (.ok ⟨page.cut (i.listing s now), (i.listing s now).length⟩, s) := by
  rw [ask, s.search_of_hasFilter filtered, ← (i.request.taskOrder.sort_perm _).length_eq]
  rfl

theorem ask_of_not_hasFilter (unfiltered : i.request.hasFilter = false) (page : Window) :
    i.ask s now page = (.error .noFilter, s) := by
  rw [ask, s.search_of_not_hasFilter unfiltered]

/-- What an inquiry finds is part of what any inquiry finds that it is within, in the same order. -/
theorem Within.sublist (within : i.Within j) :
    (i.listing s now).Sublist (j.listing s now) := by
  have order : i.request.taskOrder = j.request.taskOrder := by
    rw [SearchRequest.taskOrder, within.sorting, ← SearchRequest.taskOrder]
  rw [listing, listing, order, MemoryStore.matching, MemoryStore.matching,
    ← SortOrder.filter_sort _ _ s.distinct, ← SortOrder.filter_sort _ _ s.distinct]
  refine List.monotone_filter_right _ fun t matched => ?_
  obtain ⟨row, mem, holds⟩ := List.any_eq_true.mp matched
  exact List.any_eq_true.mpr ⟨row, mem, within.entails now t row holds⟩

/-- Access is monotone and depends on sets only.  However often an inquiry is eased, a store that
refused it refuses it still, and otherwise it lists what it listed before, in the same order, among
what it lists now; the total does not go down.  And inquiries that differ in nothing but the order
and the repetition of their roles, required permissions and accepted values get the same answer, on
every page. -/
theorem easing_keeps_listing (s : MemoryStore) (now : Instant) :
    (∀ i j : Inquiry, Relation.ReflTransGen Eased i j →
      (i.request.Unfiltered ∧ j.request.Unfiltered ∧
        ∀ page, i.ask s now page = (.error .noFilter, s) ∧
          j.ask s now page = (.error .noFilter, s)) ∨
      ∃ listing more : List Task,
        s.Lists (i.condition now) i.request.taskOrder listing ∧
        s.Lists (j.condition now) j.request.taskOrder more ∧
        listing.Sublist more ∧ listing.length ≤ more.length ∧
        ∀ page, i.ask s now page = (.ok ⟨page.cut listing, listing.length⟩, s) ∧
          j.ask s now page = (.ok ⟨page.cut more, more.length⟩, s)) ∧
    ∀ i j : Inquiry, i.SameSets j → ∀ page, i.ask s now page = j.ask s now page := by
  refine ⟨fun i j eased => ?_, fun i j same page => ?_⟩
  · have within := within_of_eased eased
    cases filtered : i.request.hasFilter with
    | false =>
      have also : j.request.hasFilter = false := within.hasFilter ▸ filtered
      left
      refine ⟨SearchRequest.hasFilter_eq_false_iff.mp filtered,
        SearchRequest.hasFilter_eq_false_iff.mp also, fun page => ?_⟩
      exact ⟨ask_of_not_hasFilter filtered page, ask_of_not_hasFilter also page⟩
    | true =>
      have also : j.request.hasFilter = true := within.hasFilter ▸ filtered
      right
      refine ⟨i.listing s now, j.listing s now, s.lists_sort_matching _ _,
        s.lists_sort_matching _ _, within.sublist, within.sublist.length_le, fun page => ?_⟩
      exact ⟨ask_of_hasFilter filtered page, ask_of_hasFilter also page⟩
  · have within := same.within
    have listings : i.listing s now = j.listing s now :=
      within.sublist.antisymm same.symm.within.sublist
    cases filtered : i.request.hasFilter with
    | false =>
      rw [ask_of_not_hasFilter filtered, ask_of_not_hasFilter (within.hasFilter ▸ filtered)]
    | true =>
      rw [ask_of_hasFilter filtered, ask_of_hasFilter (within.hasFilter ▸ filtered), listings]

end Inquiry

end Caseload
