import Caseload.Proofs.Sql.Grammar
import Caseload.Sql.Statement

/-!
# Reading statements that write

Statements that write to tables have no brackets within brackets, so their tokens are read from left
to right once the blanks are gone.  Names and values that belong together are found by their places
in two lists, as they are in the text.
-/

namespace Caseload.Sql

/-- What is done where the key of a new row is that of an old one: columns of the old row are
updated. -/
structure Conflict where
  /-- The columns of the key. -/
  target : List String
  /-- The columns that are updated, each with the column of the new row that it takes. -/
  updates : List (String × String)
  deriving DecidableEq

inductive Write
  | begin
  | commit
  | insert (table : String) (columns : List String) (values : List Value)
    (conflict : Option Conflict)
  | delete (table column : String) (value : Value)
  deriving DecidableEq

namespace Write

def name? : List Token → Option String
  | [.word name] => some name
  | _ => none

def value? : List Token → Option Value
  | [.bind v] => some v
  | _ => none

def update? : List Token → Option (String × String)
  | [.word column, .mark "=", .word "EXCLUDED", .mark ".", .word source] => some (column, source)
  | _ => none

/-- Reads what commas keep apart. -/
def list? {α : Type} (one : List Token → Option α) (tokens : List Token) : Option (List α) :=
  (tokens.splitOnP (· = .mark ",")).mapM one

/-- Reads a list up to the bracket that closes it, and gives the tokens after that. -/
def enclosed? {α : Type} (one : List Token → Option α) (tokens : List Token) :
    Option (List α × List Token) := do
  match tokens.dropWhile (· ≠ Token.closing) with
  | [] => none
  | _ :: rest => return (← list? one (tokens.takeWhile (· ≠ Token.closing)), rest)

def conflict? : List Token → Option (Option Conflict)
  | [] => some none
  | .word "ON" :: .word "CONFLICT" :: .mark "(" :: rest => do
    match ← enclosed? name? rest with
    | (target, .word "DO" :: .word "UPDATE" :: .word "SET" :: updates) =>
      return some ⟨target, ← list? update? updates⟩
    | _ => none
  | _ => none

def insert? (table : String) (tokens : List Token) : Option Write := do
  match ← enclosed? name? tokens with
  | (columns, .word "VALUES" :: .mark "(" :: rest) =>
    let (values, rest) ← enclosed? value? rest
    return insert table columns values (← conflict? rest)
  | _ => none

def ofTokens? : List Token → Option Write
  | [.word "BEGIN"] => some begin
  | [.word "COMMIT"] => some commit
  | .word "INSERT" :: .word "INTO" :: .word table :: .mark "(" :: rest => insert? table rest
  | [.word "DELETE", .word "FROM", .word table, .word "WHERE", .word column, .mark "=", .bind v] =>
    some (delete table column v)
  | _ => none

/-- The write that a text with these values is. -/
def ofText? (text : String) (values : List Value) : Option Write := do
  ofTokens? ((← Token.read? values text).filter (· ≠ .blank))

end Write

/-! ## Tokens without blanks -/

namespace Token

def dense (ts : List Token) : List Token :=
  ts.filter (· ≠ blank)

theorem dense_append (a b : List Token) : dense (a ++ b) = dense a ++ dense b :=
  List.filter_append ..

theorem dense_intercalate (between : List Token) (pieces : List (List Token)) :
    dense (List.intercalate between pieces) =
      List.intercalate (dense between) (pieces.map dense) := by
  induction pieces with
  | nil => rfl
  | cons piece rest ih =>
    cases rest with
    | nil => simp
    | cons next rest =>
      rw [List.intercalate_cons_cons, dense_append, dense_append, ih]
      simp only [List.map_cons, List.intercalate_cons_cons]

theorem dense_spaced (pieces : List (List Token)) :
    dense (spaced pieces) = (pieces.map dense).flatten := by
  rw [spaced, dense_intercalate]
  exact intercalate_nil_left _

theorem dense_commas (pieces : List (List Token)) :
    dense (commas pieces) = List.intercalate [mark ","] (pieces.map dense) :=
  dense_intercalate _ _

theorem dense_words (names : List String) : dense (words names) = names.map word := by
  rw [words, dense_spaced]
  induction names with
  | nil => rfl
  | cons name rest ih => simp_all [dense]

theorem dense_bracketed (ts : List Token) :
    dense (bracketed ts) = opening :: (dense ts ++ [closing]) := by
  rw [bracketed, dense_append]
  rfl

theorem dense_listed (pieces : List (List Token)) :
    dense (listed pieces) = dense (bracketed (commas pieces)) := by
  rw [listed, dense_bracketed, dense_bracketed, dense_append]
  simp [dense]

theorem Legible.listed {pieces : List (List Token)} (legible : ∀ piece ∈ pieces, Legible piece) :
    Legible (Token.listed pieces) := by
  simp [Token.listed, Legible.commas legible]

end Token

/-! ## Reading lists -/

namespace Write

variable {α β : Type} {one : List Token → Option α}

theorem list?_intercalate {pieces : List (List Token)} {results : List α} (nonempty : pieces ≠ [])
    (plain : ∀ piece ∈ pieces, .mark "," ∉ piece)
    (each : List.Forall₂ (fun piece a => one piece = some a) pieces results) :
    list? one (List.intercalate [.mark ","] pieces) = some results := by
  have split : (List.intercalate [Token.mark ","] pieces).splitOnP (· = .mark ",") = pieces := by
    refine splitOnP_intercalate (by decide) nonempty fun piece mem t inPiece => ?_
    exact decide_eq_false fun same => plain piece mem (same ▸ inPiece)
  rw [list?, split]
  exact mapM_eq_some_of_forall₂ each

/-- Single tokens with commas between them are read up to the bracket that closes them. -/
theorem enclosed?_singletons (one : List Token → Option α) (spell : β → Token) (result : β → α)
    {items : List β} (nonempty : items ≠ [])
    (plain : ∀ b ∈ items, spell b ≠ .mark "," ∧ spell b ≠ Token.closing)
    (reads : ∀ b ∈ items, one [spell b] = some (result b)) (rest : List Token) :
    enclosed? one (List.intercalate [.mark ","] (items.map fun b => [spell b]) ++
        Token.closing :: rest) = some (items.map result, rest) := by
  have inside : ∀ t ∈ List.intercalate [.mark ","] (items.map fun b => [spell b]),
      decide (t ≠ Token.closing) = true := by
    refine forall_mem_intercalate (by decide) (List.forall_mem_map.mpr fun b mem => ?_)
    simpa using (plain b mem).2
  have listed : list? one (List.intercalate [.mark ","] (items.map fun b => [spell b])) =
      some (items.map result) := by
    refine list?_intercalate (by simpa using nonempty)
      (List.forall_mem_map.mpr fun b mem => ?_) (forall₂_map reads)
    simpa using (plain b mem).1.symm
  simp only [enclosed?, List.dropWhile_append_of_pos inside, List.takeWhile_append_of_pos inside]
  simp [listed]

end Write

/-! ## Statements -/

namespace Statement

theorem writes_of_legible (s : Statement) (legible : Token.Legible s.tokens) {w : Write}
    (reads : Write.ofTokens? (Token.dense s.tokens) = some w) :
    Write.ofText? s.text s.values = some w := by
  rw [Write.ofText?, text, values, Token.read?_spell legible]
  exact reads

theorem ofText?_begin : Write.ofText? begin.text begin.values = some .begin :=
  writes_of_legible begin (Token.legible_singleton.mpr (by decide)) rfl

theorem ofText?_commit : Write.ofText? commit.text commit.values = some .commit :=
  writes_of_legible commit (Token.legible_singleton.mpr (by decide)) rfl

theorem ofText?_deleteRows (task : String) :
    Write.ofText? (deleteRows task).text (deleteRows task).values =
      some (.delete Table.roles.name Column.rowTask.name (.text task)) := by
  have words : Token.Legible
      (Token.words ["DELETE", "FROM", Table.roles.name, "WHERE", Column.rowTask.name]) :=
    .words (by decide)
  refine writes_of_legible (deleteRows task) (.spaced ?_) ?_
  · simp only [List.forall_mem_cons, Token.legible_singleton]
    exact ⟨words, by decide, rfl, by simp⟩
  · rw [tokens, Token.dense_spaced]
    rfl

section

variable {table : Table} {cells : List Cell}

/-- The tokens of an insertion, of which the values are still to be written. -/
theorem dense_insertTokens (values : List (List Token) → List Token) :
    Token.dense (insertTokens table cells values) =
      .word "INSERT" :: .word "INTO" :: .word table.name :: Token.opening ::
        (List.intercalate [.mark ","] (cells.map fun cell => [.word cell.1]) ++
          Token.closing :: .word "VALUES" ::
            Token.dense (values (cells.map fun cell => [.bind cell.2]))) := by
  have columns : (cells.map fun cell => [Token.word cell.1]).map Token.dense =
      cells.map fun cell => [.word cell.1] := by
    simp [Token.dense]
  rw [insertTokens, Token.dense_spaced]
  simp only [List.map_cons, List.map_nil, List.flatten_cons, List.flatten_nil, Token.dense_words,
    Token.dense_listed, Token.dense_bracketed, Token.dense_commas, columns]
  simp [Token.dense]

theorem dense_binds :
    Token.dense (Token.commas (cells.map fun cell => [.bind cell.2])) =
      List.intercalate [.mark ","] (cells.map fun cell => [.bind cell.2]) := by
  have binds : (cells.map fun cell => [Token.bind cell.2]).map Token.dense =
      cells.map fun cell => [.bind cell.2] := by
    simp [Token.dense]
  rw [Token.dense_commas, binds]

/-- An insertion is read to the columns and the values of its cells, each in their order. -/
theorem insert?_cells (nonempty : cells ≠ []) {rest : List Token} {conflict : Option Conflict}
    (reads : Write.conflict? rest = some conflict) (table : String) :
    Write.insert? table (List.intercalate [.mark ","] (cells.map fun cell => [.word cell.1]) ++
        Token.closing :: .word "VALUES" :: Token.opening ::
          (List.intercalate [.mark ","] (cells.map fun cell => [.bind cell.2]) ++
            Token.closing :: rest)) =
      some (.insert table (cells.map Prod.fst) (cells.map Prod.snd) conflict) := by
  have columns := Write.enclosed?_singletons Write.name? (fun cell : Cell => .word cell.1)
    Prod.fst nonempty (by simp [Token.closing]) (fun _ _ => rfl)
  have values := Write.enclosed?_singletons Write.value? (fun cell : Cell => .bind cell.2)
    Prod.snd nonempty (by simp [Token.closing]) (fun _ _ => rfl)
  rw [Write.insert?, columns]
  simp only [Option.bind_eq_bind, Option.bind_some, Token.opening, values, reads]
  rfl

theorem legible_insertTokens (spelled : ∀ cell ∈ cells, (Token.word cell.1).wellSpelled = true)
    (values : List (List Token) → List Token)
    (legible : Token.Legible (values (cells.map fun cell => [.bind cell.2]))) :
    Token.Legible (insertTokens table cells values) := by
  have into : Token.Legible (Token.words ["INSERT", "INTO", table.name]) := by
    cases table <;> exact .words (by decide)
  have columns : Token.Legible (Token.listed (cells.map fun cell => [.word cell.1])) :=
    .listed (List.forall_mem_map.mpr fun cell mem => Token.legible_singleton.mpr (spelled cell mem))
  refine .spaced ?_
  simp only [List.forall_mem_cons]
  exact ⟨into, columns, Token.legible_singleton.mpr (by decide), legible, by simp⟩

theorem legible_binds : ∀ piece ∈ cells.map fun cell => [Token.bind cell.2],
    Token.Legible piece :=
  List.forall_mem_map.mpr fun _ _ => Token.legible_singleton.mpr rfl

theorem ofText?_insertRow (nonempty : cells ≠ [])
    (spelled : ∀ cell ∈ cells, (Token.word cell.1).wellSpelled = true) :
    Write.ofText? (insertRow cells).text (insertRow cells).values =
      some (.insert Table.roles.name (cells.map Prod.fst) (cells.map Prod.snd) none) := by
  have legible : Token.Legible (insertRow cells).tokens :=
    legible_insertTokens spelled (fun pieces => Token.bracketed (Token.commas pieces))
      (Token.legible_bracketed.mpr (.commas legible_binds))
  refine writes_of_legible (insertRow cells) legible ?_
  rw [tokens, dense_insertTokens, Token.dense_bracketed, dense_binds]
  exact insert?_cells nonempty rfl _

theorem legible_updateTokens {column : String}
    (spelled : (Token.word column).wellSpelled = true) :
    Token.Legible (updateTokens column) := by
  have excluded : Token.Legible [.word "EXCLUDED", .mark ".", .word column] :=
    (Token.legible_append_cons (a := [.word "EXCLUDED"]) (by decide) (by decide)).mpr
      ⟨Token.legible_singleton.mpr (by decide), Token.legible_singleton.mpr spelled⟩
  refine .spaced ?_
  simp only [List.forall_mem_cons, Token.legible_singleton]
  exact ⟨spelled, by decide, excluded, by simp⟩

theorem list?_updates {columns : List String} (nonempty : columns ≠ []) :
    Write.list? Write.update? (Token.dense (Token.commas (columns.map updateTokens))) =
      some (columns.map fun column => (column, column)) := by
  have dense : ∀ column, Token.dense (updateTokens column) =
      [.word column, .mark "=", .word "EXCLUDED", .mark ".", .word column] := by
    intro column
    rw [updateTokens, Token.dense_spaced]
    rfl
  rw [Token.dense_commas, List.map_map]
  refine Write.list?_intercalate (by simpa using nonempty)
    (List.forall_mem_map.mpr fun column _ => ?_) (forall₂_map fun column _ => ?_)
  · simp [dense]
  · rw [Function.comp_apply, dense]
    rfl

theorem conflict?_of_updates {tokens : List Token} {updates : List (String × String)}
    (reads : Write.list? Write.update? tokens = some updates) :
    Write.conflict? (.word "ON" :: .word "CONFLICT" :: Token.opening ::
        .word Column.taskId.name :: Token.closing ::
          .word "DO" :: .word "UPDATE" :: .word "SET" :: tokens) =
      some (some ⟨[Column.taskId.name], updates⟩) := by
  have target : Write.enclosed? Write.name? (.word Column.taskId.name :: Token.closing ::
      .word "DO" :: .word "UPDATE" :: .word "SET" :: tokens) =
      some ([Column.taskId.name], .word "DO" :: .word "UPDATE" :: .word "SET" :: tokens) :=
    rfl
  simp only [Token.opening, Write.conflict?, target, Option.bind_eq_bind, Option.bind_some, reads]
  rfl

/-- The columns that are updated where there is a task with the id. -/
def updatedColumns (cells : List Cell) : List String :=
  (cells.filter (·.1 ≠ Column.taskId.name)).map Prod.fst

/-- The text of the insertion of a task is read as that insertion, which updates all columns but the
id by the new ones where there is a task with the id. -/
theorem ofText?_upsertTask (nonempty : updatedColumns cells ≠ [])
    (spelled : ∀ cell ∈ cells, (Token.word cell.1).wellSpelled = true) :
    Write.ofText? (upsertTask cells).text (upsertTask cells).values =
      some (.insert Table.tasks.name (cells.map Prod.fst) (cells.map Prod.snd)
        (some ⟨[Column.taskId.name], (updatedColumns cells).map fun c => (c, c)⟩)) := by
  have notEmpty : cells ≠ [] := by
    rintro rfl
    exact nonempty rfl
  have updates : (cells.filter (·.1 ≠ Column.taskId.name)).map (fun cell => updateTokens cell.1) =
      (updatedColumns cells).map updateTokens := by
    rw [updatedColumns, List.map_map]
    rfl
  have legible : Token.Legible (upsertTask cells).tokens := by
    have set : Token.Legible (Token.commas
        ((cells.filter (·.1 ≠ Column.taskId.name)).map fun cell => updateTokens cell.1)) :=
      .commas (List.forall_mem_map.mpr fun cell mem =>
        legible_updateTokens (spelled cell (List.mem_of_mem_filter mem)))
    refine .spaced ?_
    simp only [List.forall_mem_cons]
    exact ⟨legible_insertTokens spelled Token.listed (.listed legible_binds), .words (by decide),
      Token.legible_bracketed.mpr (Token.legible_singleton.mpr (by decide)), .words (by decide),
      set, by simp⟩
  have conflict := conflict?_of_updates (list?_updates nonempty)
  have target : Token.dense [.word Column.taskId.name] = [.word Column.taskId.name] := rfl
  refine writes_of_legible (upsertTask cells) legible ?_
  rw [tokens, Token.dense_spaced]
  simp only [List.map_cons, List.map_nil, List.flatten_cons, List.flatten_nil, List.append_nil,
    dense_insertTokens, Token.dense_listed, dense_binds, Token.dense_words, Token.dense_bracketed,
    target, updates, List.cons_append, List.nil_append, List.append_assoc]
  exact insert?_cells notEmpty conflict _

end

end Statement

end Caseload.Sql
