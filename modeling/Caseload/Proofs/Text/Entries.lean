import Caseload.Proofs.Text.Trim
import Caseload.Text.Entries
import Mathlib.Data.List.Basic

/-!
# Entries between commas

A text is taken apart as `List.splitOn` takes lists apart (`pieces_eq_splitOn`), and its entries are
the pieces that are something when trimmed (`entries_eq_filter`).  Blanks around the text go to its
first and last piece and are trimmed away there (`trimmedPieces_trim`).
-/

namespace Caseload.Text

variable {s front back : String}

theorem pieces_eq_splitOn (separator : Char) (cs : List Char) :
    pieces separator cs = cs.splitOn separator := by
  induction cs with
  | nil => rfl
  | cons c rest ih =>
    rw [pieces, ih, List.splitOn_cons_eq_if_modifyHead]
    cases split : rest.splitOn separator with
    | nil => exact absurd split (List.splitOn_ne_nil separator rest)
    | cons first others => simp

/-- The texts between commas, each of them trimmed. -/
def trimmedPieces (s : String) : List String :=
  (s.toList.splitOn ',').map fun piece => trim (String.ofList piece)

theorem entries_eq_filter (s : String) : entries s = (trimmedPieces s).filter (· ≠ "") := by
  rw [entries, nonBlanks_eq_filter, pieces_eq_splitOn, List.map_map]
  rfl

theorem mem_entries {entry : String} :
    entry ∈ entries s ↔ entry ∈ trimmedPieces s ∧ entry ≠ "" := by
  rw [entries_eq_filter, List.mem_filter, decide_eq_true_iff]

theorem trim_of_mem_trimmedPieces {piece : String} (mem : piece ∈ trimmedPieces s) :
    trim piece = piece := by
  obtain ⟨cs, -, rfl⟩ := List.mem_map.mp mem
  exact trim_trim _

/-! ## Blanks around the text -/

theorem comma_notMem_of_blanks (blank : OfBlanks s) : ',' ∉ s.toList := by
  intro mem
  exact absurd (blank ',' mem) (by decide)

/-- What stands in front of a text without a separator goes to the first piece. -/
theorem splitOn_append_front {separator : Char} {front : List Char} (cs : List Char)
    (whole : separator ∉ front) :
    (front ++ cs).splitOn separator = (cs.splitOn separator).modifyHead (front ++ ·) := by
  induction front with
  | nil => rw [List.nil_append]; cases cs.splitOn separator <;> rfl
  | cons c front ih =>
    have other : (c == separator) = false := beq_false_of_ne (List.ne_of_not_mem_cons whole).symm
    rw [List.cons_append, List.splitOn_cons_eq_if_modifyHead, if_neg (by simp [other]),
      ih (List.not_mem_of_not_mem_cons whole)]
    cases cs.splitOn separator <;> rfl

/-- What stands behind a text without a separator goes to the last piece. -/
theorem exists_splitOn_append_back {separator : Char} (cs : List Char) {back : List Char}
    (whole : separator ∉ back) :
    ∃ init last, cs.splitOn separator = init ++ [last] ∧
      (cs ++ back).splitOn separator = init ++ [last ++ back] := by
  induction cs with
  | nil => exact ⟨[], [], rfl, List.splitOn_eq_singleton whole⟩
  | cons c cs ih =>
    obtain ⟨init, last, without, through⟩ := ih
    rw [List.cons_append, List.splitOn_cons_eq_if_modifyHead, List.splitOn_cons_eq_if_modifyHead,
      without, through]
    split
    next => exact ⟨[] :: init, last, rfl, rfl⟩
    next =>
      cases init with
      | nil => exact ⟨[], c :: last, rfl, rfl⟩
      | cons first init => exact ⟨(c :: first) :: init, last, rfl, rfl⟩

theorem trimmedPieces_append_front (blank : OfBlanks front) (s : String) :
    trimmedPieces (front ++ s) = trimmedPieces s := by
  have nothing : OfBlanks "" := fun c mem => nomatch mem
  have first (piece : List Char) :
      trim (String.ofList (front.toList ++ piece)) = trim (String.ofList piece) := by
    have surrounded := trim_surround (s := String.ofList piece) blank nothing
    rwa [String.append_empty, ← String.ofList_toList (s := front), ← String.ofList_append]
      at surrounded
  -- the blanks belong to the first piece, which is trimmed like the others
  rw [trimmedPieces, String.toList_append, splitOn_append_front _ (comma_notMem_of_blanks blank),
    trimmedPieces]
  cases s.toList.splitOn ',' with
  | nil => rfl
  | cons piece others => rw [List.modifyHead_cons, List.map_cons, List.map_cons, first]

theorem trimmedPieces_append_back (blank : OfBlanks back) (s : String) :
    trimmedPieces (s ++ back) = trimmedPieces s := by
  have nothing : OfBlanks "" := fun c mem => nomatch mem
  have final (piece : List Char) :
      trim (String.ofList (piece ++ back.toList)) = trim (String.ofList piece) := by
    have surrounded := trim_surround (s := String.ofList piece) nothing blank
    rwa [String.empty_append, ← String.ofList_toList (s := back), ← String.ofList_append]
      at surrounded
  obtain ⟨init, last, without, through⟩ :=
    exists_splitOn_append_back s.toList (comma_notMem_of_blanks blank)
  rw [trimmedPieces, trimmedPieces, String.toList_append, without, through]
  simp only [List.map_append, List.map_cons, List.map_nil, final]

/-- A text is its trimmed text between blanks. -/
theorem exists_eq_surround (s : String) :
    ∃ front back, OfBlanks front ∧ OfBlanks back ∧ s = front ++ trim s ++ back := by
  refine ⟨String.ofList (s.toList.takeWhile isBlank),
    String.ofList ((trimFront s.toList).reverse.takeWhile isBlank).reverse, ?_, ?_, ?_⟩
  · intro c mem
    rw [String.toList_ofList] at mem
    exact List.mem_takeWhile_imp mem
  · intro c mem
    rw [String.toList_ofList, List.mem_reverse] at mem
    exact List.mem_takeWhile_imp mem
  · have behind (cs : List Char) : trimBack cs ++ (cs.reverse.takeWhile isBlank).reverse = cs := by
      rw [trimBack, trimFront, ← List.reverse_append, List.takeWhile_append_dropWhile,
        List.reverse_reverse]
    rw [trim, ← String.ofList_append, ← String.ofList_append, List.append_assoc, behind, trimFront,
      List.takeWhile_append_dropWhile, String.ofList_toList]

theorem trimmedPieces_trim (s : String) : trimmedPieces (trim s) = trimmedPieces s := by
  obtain ⟨front, back, blankFront, blankBack, surround⟩ := exists_eq_surround s
  generalize trim s = t at surround
  rw [surround, trimmedPieces_append_back blankBack, trimmedPieces_append_front blankFront]

end Caseload.Text
