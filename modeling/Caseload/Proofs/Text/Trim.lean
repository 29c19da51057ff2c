import Caseload.Text.Blank
import Mathlib.Data.List.DropRight

/-!
# Trimmed texts

Trimming takes the blanks from both ends of a text, and it does not matter from which end they are
taken first (`trimFront_trimBack`).  So there is nothing left to take from a trimmed text
(`trim_trim`), and blanks put around a text are taken with its own (`trim_surround`).  Lists of
values are trimmed value by value, and the values of blanks drop out.
-/

namespace Caseload.Text

/-- All characters of the text are blanks, if it has any. -/
def OfBlanks (s : String) : Prop :=
  ∀ c ∈ s.toList, isBlank c = true

variable {s u front back : String} {values : List String}

/-! ## Both ends -/

theorem trimBack_cons (c : Char) (cs : List Char) :
    trimBack (c :: cs) =
      if trimBack cs = [] then (if isBlank c then [] else [c]) else c :: trimBack cs := by
  simp only [trimBack, trimFront, List.reverse_cons, List.dropWhile_append, List.isEmpty_iff,
    List.reverse_eq_nil_iff]
  split
  next => cases blank : isBlank c <;> simp [blank]
  next => simp

theorem trimFront_trimBack (cs : List Char) :
    trimFront (trimBack cs) = trimBack (trimFront cs) := by
  induction cs with
  | nil => rfl
  | cons c cs ih =>
    rw [trimBack_cons]
    cases blank : isBlank c with
    | true =>
      have front : trimFront (c :: cs) = trimFront cs := List.dropWhile_cons_of_pos blank
      rw [front, ← ih]
      split
      next nothing => simp [nothing]
      next => exact List.dropWhile_cons_of_pos blank
    | false =>
      have front (rest : List Char) : trimFront (c :: rest) = c :: rest :=
        List.dropWhile_cons_of_neg (by simp [blank])
      rw [front, trimBack_cons, blank]
      split
      next => exact front []
      next => exact front _

theorem trim_subset (s : String) : (trim s).toList ⊆ s.toList := by
  intro c mem
  rw [trim, String.toList_ofList, trimBack, List.mem_reverse, trimFront] at mem
  have front := List.mem_reverse.mp (List.dropWhile_subset _ mem)
  exact List.dropWhile_subset _ front

theorem trim_trim (s : String) : trim (trim s) = trim s := by
  have both : trimBack (trimFront (trimBack (trimFront s.toList))) =
      trimBack (trimFront s.toList) := by
    rw [trimFront_trimBack, trimFront, trimFront, List.dropWhile_idempotent]
    exact List.rdropWhile_idempotent _ _
  rw [trim, trim, String.toList_ofList, both]

theorem trimBack_append (cs : List Char) {blanks : List Char}
    (each : ∀ c ∈ blanks, isBlank c = true) : trimBack (cs ++ blanks) = trimBack cs := by
  have reversed : ∀ c ∈ blanks.reverse, isBlank c = true := by
    intro c mem
    exact each c (List.mem_reverse.mp mem)
  rw [trimBack, List.reverse_append, trimFront, List.dropWhile_append_of_pos reversed]
  rfl

theorem trim_surround (blankFront : OfBlanks front) (blankBack : OfBlanks back) :
    trim (front ++ s ++ back) = trim s := by
  rw [trim, String.toList_append, String.toList_append, ← trimFront_trimBack,
    trimBack_append _ blankBack, trimFront_trimBack, trimFront,
    List.dropWhile_append_of_pos blankFront]
  rfl

theorem trim_of_blanks (blank : OfBlanks s) : trim s = "" := by
  have nothing : OfBlanks "" := fun c mem => nomatch mem
  have surrounded := trim_surround (s := "") blank nothing
  rwa [String.append_empty, String.append_empty] at surrounded

/-! ## Values -/

theorem nonBlanks_eq_filter (values : List String) :
    nonBlanks values = (values.map trim).filter (· ≠ "") := by
  rw [nonBlanks]
  induction values with
  | nil => rfl
  | cons s rest ih =>
    by_cases blank : trim s = ""
    · simpa [nonBlank?, blank] using ih
    · simpa [nonBlank?, blank] using ih

theorem mem_nonBlanks : u ∈ nonBlanks values ↔ u ≠ "" ∧ ∃ s ∈ values, trim s = u := by
  rw [nonBlanks_eq_filter, List.mem_filter, List.mem_map, decide_eq_true_iff, and_comm]

theorem nonBlanks_eq_nil_iff : nonBlanks values = [] ↔ ∀ s ∈ values, trim s = "" := by
  rw [nonBlanks_eq_filter]
  simp

/-- Values that are trimmed and not of blanks stay as they are. -/
theorem nonBlanks_eq_self (trimmed : ∀ s ∈ values, trim s = s) (nonblank : ∀ s ∈ values, s ≠ "") :
    nonBlanks values = values := by
  rw [nonBlanks_eq_filter, List.map_congr_left trimmed, List.map_id', List.filter_eq_self]
  intro s mem
  exact decide_eq_true (nonblank s mem)

end Caseload.Text
