import Caseload.Json.Reader
import Caseload.Proofs.Json.Scanning

/-!
# Printed documents

A printed value reads back as the value (`read?_pretty`), unless it holds a number that is no
integer or a string that is no text.  What is printed of a value is cut into tokens, and these tokens
are read as the value, whatever is open around it (`Spells`).
-/

namespace Caseload.Json

/-- The value has no numbers but integers, and all of its strings and keys are texts. -/
inductive Plain : Json → Prop
  | null : Plain .null
  | bool (b : Bool) : Plain (.bool b)
  | integer (n : Int) : Plain (.integer n)
  | text (s : String) : Plain (.text s)
  | array {items : List Json} (each : ∀ v ∈ items, Plain v) : Plain (.array items)
  | object {entries : List (String × Json)} (each : ∀ entry ∈ entries, Plain entry.2) :
    Plain (.ofEntries entries)

/-! ## Values -/

theorem exists_intercalate_eq_append {α : Type} (separator : α) (first : List α)
    (others : List (List α)) :
    ∃ more, [separator].intercalate (first :: others) = first ++ more := by
  cases others with
  | nil => exact ⟨[], by simp⟩
  | cons second others => exact ⟨_, by rw [List.intercalate_cons_cons, List.append_assoc]⟩

/-- The tokens are what is printed of the value at any level, and they are read as the value. -/
structure Spells (v : Json) (tokens : List Token) : Prop where
  scanned : ∀ level, Scans Ends (prettyAt level v).toList tokens
  read : ∀ stack rest,
    Reading.run (.value stack) (tokens ++ rest) = Reading.run (.after v stack) rest
  /-- A list may begin with them. -/
  begins : ∀ stack rest, Reading.run (.items stack) (tokens ++ rest) =
    Reading.run (.value (.array [] :: stack)) (tokens ++ rest)

theorem spells_atom {v : Json} (scanned : Scans Ends (atomText v).toList [.atom v])
    (atom : ∀ level, prettyAt level v = atomText v) : Spells v [.atom v] where
  scanned level := by rw [atom]; exact scanned
  read _ _ := rfl
  begins _ _ := rfl

theorem exists_forall₂ {α β : Type} {R : α → β → Prop} {items : List α}
    (each : ∀ a ∈ items, ∃ b, R a b) : ∃ results, List.Forall₂ R items results := by
  induction items with
  | nil => exact ⟨[], .nil⟩
  | cons a items ih =>
    obtain ⟨⟨b, first⟩, others⟩ := List.forall_mem_cons.mp each
    obtain ⟨results, others⟩ := ih others
    exact ⟨b :: results, .cons first others⟩

section

variable {v : Json} {tokens : List Token} {items : List Json} {pieces : List (List Token)}
  {stack : List Frame} {rest : List Token}

/-! ### Lists -/

theorem prettyItems_eq_map (level : Nat) (items : List Json) :
    prettyItems level items = items.map fun v => newLine level ++ prettyAt level v := by
  induction items with
  | nil => rfl
  | cons v rest ih => rw [prettyItems, ih, List.map_cons]

theorem run_items (first : Spells v tokens) (others : List.Forall₂ Spells items pieces)
    (before : List Json) :
    Reading.run (.value (.array before :: stack))
        ([Token.comma].intercalate (tokens :: pieces) ++ .closeArray :: rest) =
      Reading.run (.after (.array (before.reverse ++ v :: items)) stack) rest := by
  -- the items that are read move to the stack, so the induction is for any of them before
  induction others generalizing v tokens before with
  | nil =>
    rw [List.intercalate_singleton, first.read]
    simp [Reading.run, Reading.step]
  | cons second others ih =>
    have onward := ih second (v :: before)
    rw [List.reverse_cons, List.append_assoc, List.singleton_append] at onward
    rw [List.intercalate_cons_cons, List.append_assoc, List.append_assoc, first.read, ← onward]
    rfl

theorem spells_array (each : List.Forall₂ Spells items pieces) :
    Spells (.array items)
      ([.openArray] ++ ([Token.comma].intercalate pieces ++ [.closeArray])) where
  scanned level := by
    cases each with
    | nil =>
      rw [prettyAt]
      exact (Scans.mark (c := '[') fun _ => rfl).cons (Scans.mark (c := ']') fun _ => rfl).weaken
    | @cons v tokens items pieces first others =>
      have lines : List.Forall₂ (fun text piece => Scans Ends text.toList piece)
          (prettyItems (level + 1) (v :: items)) (tokens :: pieces) := by
        rw [prettyItems_eq_map, List.forall₂_map_left_iff]
        refine (List.Forall₂.cons first others).imp fun v tokens spelled => ?_
        rw [String.toList_append]
        exact (Scans.newLine _).cons (spelled.scanned _)
      have scanned := Scans.enclosed '[' ']' (fun _ => rfl) (fun _ => rfl) lines level
      simpa [prettyAt, String.toList_append] using scanned
  read stack rest := by
    cases each with
    | nil => rfl
    | @cons v tokens items pieces first others =>
      -- a first item may stand where the list could end, which the others may not
      obtain ⟨more, front⟩ := exists_intercalate_eq_append .comma tokens pieces
      calc
        _ = Reading.run (.items stack)
            ([Token.comma].intercalate (tokens :: pieces) ++ .closeArray :: rest) := by
          simp [Reading.run, Reading.step, Reading.start]
        _ = Reading.run (.value (.array [] :: stack))
            ([Token.comma].intercalate (tokens :: pieces) ++ .closeArray :: rest) := by
          rw [front, List.append_assoc, first.begins]
        _ = _ := run_items first others []
  begins _ _ := rfl

/-! ### Objects -/

/-- The tokens are an entry of an object: its key, a colon and its value. -/
def SpellsEntry (entry : String × Json) (tokens : List Token) : Prop :=
  ∃ value, Spells entry.2 value ∧ tokens = .atom (.text entry.1) :: .colon :: value

variable {entry : String × Json} {entries : List (String × Json)}

theorem prettyEntries_eq_map (level : Nat) (entries : List (Option String × Json)) :
    prettyEntries level entries = entries.map fun entry =>
      newLine level ++ keyText entry.1 ++ ": " ++ prettyAt level entry.2 := by
  induction entries with
  | nil => rfl
  | cons entry rest ih => rw [prettyEntries, ih, List.map_cons]

theorem SpellsEntry.read (spelled : SpellsEntry entry tokens)
    (before : List (Option String × Json)) :
    Reading.run (.key before stack) (tokens ++ rest) =
      Reading.run (.after entry.2 (.object before (some entry.1) :: stack)) rest := by
  obtain ⟨value, spelled, rfl⟩ := spelled
  exact spelled.read _ _

/-- An object may begin with an entry. -/
theorem SpellsEntry.begins (spelled : SpellsEntry entry tokens) :
    Reading.run (.entries stack) (tokens ++ rest) =
      Reading.run (.key [] stack) (tokens ++ rest) := by
  obtain ⟨value, -, rfl⟩ := spelled
  rfl

theorem SpellsEntry.scanned (spelled : SpellsEntry entry tokens) (level : Nat) :
    Scans Ends (newLine level ++ keyText (some entry.1) ++ ": " ++ prettyAt level entry.2).toList
      tokens := by
  obtain ⟨value, spelled, rfl⟩ := spelled
  have colon : Scans Anything ": ".toList [.colon] :=
    (Scans.mark (c := ':') fun _ => rfl).cons (Scans.blank (c := ' ') fun _ => rfl)
  rw [String.toList_append, String.toList_append, String.toList_append, List.append_assoc,
    List.append_assoc]
  exact (Scans.newLine level).cons ((scans_quote entry.1).cons (colon.cons (spelled.scanned level)))

theorem run_entries (first : SpellsEntry entry tokens)
    (others : List.Forall₂ SpellsEntry entries pieces) (before : List (Option String × Json)) :
    Reading.run (.key before stack)
        ([Token.comma].intercalate (tokens :: pieces) ++ .closeObject :: rest) =
      Reading.run (.after (.object
        (before.reverse ++ (entry :: entries).map fun (key, v) => (some key, v))) stack) rest := by
  induction others generalizing entry tokens before with
  | nil =>
    rw [List.intercalate_singleton, first.read]
    simp [Reading.run, Reading.step]
  | cons second others ih =>
    have onward := ih second ((some entry.1, entry.2) :: before)
    rw [List.reverse_cons, List.append_assoc, List.singleton_append] at onward
    rw [List.intercalate_cons_cons, List.append_assoc, List.append_assoc, first.read]
    exact onward

theorem spells_object (each : List.Forall₂ SpellsEntry entries pieces) :
    Spells (.ofEntries entries)
      ([.openObject] ++ ([Token.comma].intercalate pieces ++ [.closeObject])) where
  scanned level := by
    cases each with
    | nil =>
      rw [ofEntries, List.map_nil, prettyAt]
      exact (Scans.mark (c := '{') fun _ => rfl).cons (Scans.mark (c := '}') fun _ => rfl).weaken
    | @cons entry tokens entries pieces first others =>
      have lines : List.Forall₂ (fun text piece => Scans Ends text.toList piece)
          (prettyEntries (level + 1) ((entry :: entries).map fun (key, v) => (some key, v)))
          (tokens :: pieces) := by
        rw [prettyEntries_eq_map, List.map_map, List.forall₂_map_left_iff]
        exact (List.Forall₂.cons first others).imp fun _ _ spelled => spelled.scanned _
      have scanned := Scans.enclosed '{' '}' (fun _ => rfl) (fun _ => rfl) lines level
      simpa [ofEntries, prettyAt, String.toList_append] using scanned
  read stack rest := by
    cases each with
    | nil => rfl
    | @cons entry tokens entries pieces first others =>
      obtain ⟨more, front⟩ := exists_intercalate_eq_append .comma tokens pieces
      calc
        _ = Reading.run (.entries stack)
            ([Token.comma].intercalate (tokens :: pieces) ++ .closeObject :: rest) := by
          simp [Reading.run, Reading.step, Reading.start]
        _ = Reading.run (.key [] stack)
            ([Token.comma].intercalate (tokens :: pieces) ++ .closeObject :: rest) := by
          rw [front, List.append_assoc, first.begins]
        _ = _ := run_entries first others []
  begins _ _ := rfl

end

theorem Plain.exists_spells {v : Json} (plain : v.Plain) : ∃ tokens, Spells v tokens := by
  induction plain with
  | null => exact ⟨_, spells_atom scans_null fun _ => rfl⟩
  | bool b => exact ⟨_, spells_atom (scans_bool b) fun _ => by cases b <;> rfl⟩
  | integer n => exact ⟨_, spells_atom (scans_integer n) fun _ => rfl⟩
  | text s => exact ⟨_, spells_atom (scans_quote s).weaken fun _ => rfl⟩
  | array each ih =>
    obtain ⟨pieces, spelled⟩ := exists_forall₂ ih
    exact ⟨_, spells_array spelled⟩
  | object each ih =>
    obtain ⟨pieces, spelled⟩ := exists_forall₂ fun entry mem =>
      let ⟨value, spelled⟩ := ih entry mem
      (⟨_, value, spelled, rfl⟩ : ∃ tokens, SpellsEntry entry tokens)
    exact ⟨_, spells_object spelled⟩

/-- What is printed of a value is a document of this value. -/
theorem read?_pretty {v : Json} (plain : v.Plain) : read? (v.pretty ++ "\n") = some v := by
  obtain ⟨tokens, spelled⟩ := plain.exists_spells
  have cut : tokens? (v.pretty ++ "\n") = some tokens := by
    have scanned := spelled.scanned 0 [] ['\n'] (ends_cons (by decide))
    rw [tokens?, String.toList_append, pretty]
    refine scanned.trans ?_
    simp [Lexeme.scan, Lexeme.step, Lexeme.start, Lexeme.isSpace, Lexeme.finish]
  have read := spelled.read [] []
  rw [List.append_nil] at read
  rw [read?, cut]
  exact read

end Caseload.Json
