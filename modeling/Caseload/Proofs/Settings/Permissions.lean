import Caseload.Proofs.Access.Decision
import Caseload.Proofs.Error.FirstFailure
import Caseload.Proofs.Text.Entries
import Caseload.Settings

/-!
# Required permissions

A text that lists permissions between commas is read entry by entry, and every entry has to name
one (`parsePermissions_eq_ok_iff`).  The permissions that come out are those that the text names
(`mem_iff_names`), in its order and as often as it names them.  Neither order nor repetition gets
into the condition of a search, which is made for the set of them (`searchCondition_congr`).
-/

namespace Caseload

namespace Permission

variable {p : Permission} {value : String} {required others : List Permission}

theorem ofName?_eq_some_iff {name : String} : ofName? name = some p ↔ name = p.name := by
  constructor
  · intro found
    simpa [eq_comm] using List.find?_some found
  · rintro rfl
    cases p <;> decide

theorem parse_eq_ok_iff : parse value = .ok p ↔ (Text.trim value).toLower = p.name := by
  rw [← ofName?_eq_some_iff, parse]
  cases ofName? (Text.trim value).toLower <;> simp

theorem parse_eq_error_iff {e : Error} :
    parse value = .error e ↔
      (∀ p : Permission, (Text.trim value).toLower ≠ p.name) ∧ e = .unknownPermission value := by
  simp only [ne_eq, ← ofName?_eq_some_iff]
  rw [parse]
  cases ofName? (Text.trim value).toLower <;> simp [eq_comm]

theorem name_ne_empty (p : Permission) : p.name ≠ "" := by
  cases p <;> decide

/-- Only which permissions are listed matters, not their order nor how often they are. -/
theorem distinct_congr (same : ∀ p, p ∈ required ↔ p ∈ others) :
    distinct required = distinct others :=
  List.filter_congr fun p _ => decide_eq_decide.mpr (same p)

end Permission

theorem Caller.searchCondition_congr {required others : List Permission}
    (same : ∀ p, p ∈ required ↔ p ∈ others) (c : Caller) (r : SearchRequest) :
    c.searchCondition r required = c.searchCondition r others := by
  rw [searchCondition, searchCondition, visibility, visibility, Permission.condition,
    Permission.condition, Permission.distinct_congr same]

namespace Settings

variable {value : String} {ps : List Permission} {p : Permission}

/-- One of the pieces between commas is the name of the permission, up to the case of its
letters. -/
def Names (value : String) (p : Permission) : Prop :=
  ∃ piece ∈ Text.trimmedPieces value, piece.toLower = p.name

/-- Some piece between commas is more than blanks, and every piece that is names a permission. -/
def ListsPermissions (value : String) : Prop :=
  (∃ piece ∈ Text.trimmedPieces value, piece ≠ "") ∧
    ∀ piece ∈ Text.trimmedPieces value, piece ≠ "" → ∃ p : Permission, piece.toLower = p.name

theorem parse_of_mem_entries {entry : String} (mem : entry ∈ Text.entries value) :
    Permission.parse entry = .ok p ↔ entry.toLower = p.name := by
  rw [Permission.parse_eq_ok_iff, Text.trim_of_mem_trimmedPieces (Text.mem_entries.mp mem).1]

theorem parsePermissions_eq_ok_iff :
    parsePermissions value = .ok ps ↔
      ps ≠ [] ∧ (Text.entries value).mapM Permission.parse = .ok ps := by
  rw [parsePermissions, bind_eq_ok_iff]
  constructor
  · rintro ⟨read, done, accepted⟩
    split at accepted
    next => cases accepted
    next some =>
      cases accepted
      exact ⟨some, done⟩
  · rintro ⟨some, done⟩
    refine ⟨ps, done, ?_⟩
    split
    next => exact absurd rfl some
    next => rfl

theorem mem_iff_names (read : parsePermissions value = .ok ps) : p ∈ ps ↔ Names value p := by
  obtain ⟨-, done⟩ := parsePermissions_eq_ok_iff.mp read
  rw [mem_iff_of_mapM_eq_ok done]
  constructor
  · rintro ⟨entry, mem, named⟩
    exact ⟨entry, (Text.mem_entries.mp mem).1, (parse_of_mem_entries mem).mp named⟩
  · rintro ⟨piece, mem, named⟩
    have something : piece ≠ "" := by
      rintro rfl
      have empty : "".toLower = "" := by decide +kernel
      exact p.name_ne_empty (named.symm.trans empty)
    have listed := Text.mem_entries.mpr ⟨mem, something⟩
    exact ⟨piece, listed, (parse_of_mem_entries listed).mpr named⟩

theorem exists_parsePermissions_eq_ok_iff :
    (∃ ps, parsePermissions value = .ok ps) ↔ ListsPermissions value := by
  constructor
  · rintro ⟨ps, read⟩
    obtain ⟨some, done⟩ := parsePermissions_eq_ok_iff.mp read
    obtain ⟨p, mem⟩ := List.exists_mem_of_ne_nil ps some
    obtain ⟨entry, listed, -⟩ := (mem_iff_of_mapM_eq_ok done).mp mem
    refine ⟨⟨entry, Text.mem_entries.mp listed⟩, fun piece mem something => ?_⟩
    have listed := Text.mem_entries.mpr ⟨mem, something⟩
    obtain ⟨p, named⟩ := exists_ok_of_mapM_eq_ok done piece listed
    exact ⟨p, (parse_of_mem_entries listed).mp named⟩
  · rintro ⟨⟨piece, some⟩, named⟩
    have each : ∀ entry ∈ Text.entries value, ∃ p, Permission.parse entry = .ok p := by
      intro entry listed
      obtain ⟨mem, something⟩ := Text.mem_entries.mp listed
      obtain ⟨p, name⟩ := named entry mem something
      exact ⟨p, (parse_of_mem_entries listed).mpr name⟩
    obtain ⟨ps, done⟩ := exists_mapM_eq_ok each
    obtain ⟨p, read⟩ := each piece (Text.mem_entries.mpr some)
    have mem : p ∈ ps := (mem_iff_of_mapM_eq_ok done).mpr ⟨piece, Text.mem_entries.mpr some, read⟩
    exact ⟨ps, parsePermissions_eq_ok_iff.mpr ⟨List.ne_nil_of_mem mem, done⟩⟩

/-- The first entry that names nothing is the fault, or that there is no entry. -/
def NoPermissions (value : String) (e : Error) : Prop :=
  (∃ before entry after, Text.entries value = before ++ entry :: after ∧
    (∀ b ∈ before, ∃ p : Permission, b.toLower = p.name) ∧
    (∀ p : Permission, entry.toLower ≠ p.name) ∧ e = .unknownPermission entry) ∨
  Text.entries value = [] ∧ e = .noPermission

theorem parsePermissions_eq_error_iff {e : Error} :
    parsePermissions value = .error e ↔ NoPermissions value e := by
  rw [parsePermissions, bind_eq_error_iff, mapM_eq_error_iff]
  refine or_congr ?_ ?_
  · refine exists_congr fun before => exists_congr fun entry => exists_congr fun after =>
      and_congr_right fun split => ?_
    have mem {b : String} (among : b ∈ before ++ [entry]) : b ∈ Text.entries value := by
      rw [split, List.append_cons]
      exact List.mem_append_left _ among
    -- an entry is trimmed already, so the error names it as it stands between the commas
    have last : Text.trim entry = entry :=
      Text.trim_of_mem_trimmedPieces (Text.mem_entries.mp (mem (by simp))).1
    rw [Permission.parse_eq_error_iff, last]
    refine and_congr_left' (forall₂_congr fun b among => exists_congr fun p => ?_)
    exact parse_of_mem_entries (mem (List.mem_append_left _ among))
  · constructor
    · rintro ⟨read, done, refused⟩
      split at refused
      next =>
        cases refused
        exact ⟨List.length_eq_zero_iff.mp (mapM_eq_ok_iff.mp done).length_eq, rfl⟩
      next => cases refused
    · rintro ⟨nothing, rfl⟩
      exact ⟨[], by rw [nothing]; rfl, rfl⟩

end Settings

end Caseload
