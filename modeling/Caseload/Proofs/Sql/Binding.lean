import Caseload.Proofs.Sql.Statement

/-!
# Placeholders and the values bound to them

A database finds the placeholders of a statement in its text alone.  Two things about a row of
tokens decide what it finds: which values the tokens carry, and whether a dollar sign stands
anywhere but in a placeholder.  `Carries` says both; it is kept by putting tokens together, so it
holds of a whole statement because it holds of its pieces (`binds`).

That no value becomes part of a text is said by `Alike`: tokens that differ in nothing but their
values have one text.
-/

namespace Caseload

open Sql

namespace Sql.Token

/-! ## Placeholders of a text -/

def placeholdersIn : List Char → List String
  | [] => []
  | c :: rest =>
    if c = '$' then .ofList (c :: rest.takeWhile Char.isDigit) :: placeholdersIn rest
    else placeholdersIn rest

/-- The placeholders in a text, from left to right: each dollar sign, with the digits after it. -/
def placeholders (text : String) : List String :=
  placeholdersIn text.toList

/-- Some placeholders with the numbers from `next` on. -/
def numbered (next count : Nat) : List String :=
  (List.range' next count).map fun n => "$" ++ toString n

theorem placeholdersIn_append {chars rest : List Char} (free : '$' ∉ chars) :
    placeholdersIn (chars ++ rest) = placeholdersIn rest := by
  induction chars with
  | nil => rfl
  | cons c chars ih =>
    simp only [List.mem_cons, not_or] at free
    rw [List.cons_append, placeholdersIn, if_neg (Ne.symm free.1), ih free.2]

theorem dollar_not_mem_toDigits (n : Nat) : '$' ∉ Nat.toDigits 10 n := by
  intro mem
  cases Text.isDigit_of_mem_toDigits mem

/-- A placeholder is found whole where no digit follows it. -/
theorem placeholdersIn_placeholder (n : Nat) {rest : List Char}
    (ends : ∀ c ∈ rest.head?, c.isDigit = false) :
    placeholdersIn (("$" ++ toString n).toList ++ rest) =
      ("$" ++ toString n) :: placeholdersIn rest := by
  have digits : ∀ c ∈ Nat.toDigits 10 n, c.isDigit = true := fun c => Text.isDigit_of_mem_toDigits
  have none : rest.takeWhile Char.isDigit = [] := by
    cases rest with
    | nil => rfl
    | cons c rest => simp [ends c rfl]
  have spelled : "$" ++ toString n = .ofList ('$' :: Nat.toDigits 10 n) := by
    rw [← String.toList_inj]
    simp
  rw [spelled, String.toList_ofList, List.cons_append, placeholdersIn, if_pos rfl,
    List.takeWhile_append_of_pos digits, none, List.append_nil,
    placeholdersIn_append (dollar_not_mem_toDigits n)]

/-- Whether a dollar sign stands in the spelling of a token only if it is a placeholder. -/
def isPlain : Token → Bool
  | word name | quoted name | mark name => !name.toList.contains '$'
  | _ => true

theorem dollar_not_mem_spelling {t : Token} (plain : t.isPlain = true) (unbound : values [t] = [])
    (next : Nat) : '$' ∉ (t.spelling next).toList := by
  cases t with
  | word name | quoted name | mark name => simpa [isPlain, spelling] using plain
  | number n => simpa [spelling] using dollar_not_mem_toDigits n
  | blank => simp [spelling]
  | bind v => cases unbound

/-- What follows a placeholder is no digit, since what follows is kept apart from it. -/
theorem head?_isDigit_eq_false {v : Value} {next : Nat} {ts : List Token}
    (legible : Legible (bind v :: ts)) :
    ∀ c ∈ (String.join (spellFrom next ts)).toList.head?, c.isDigit = false := by
  cases ts with
  | nil => simp [spellFrom]
  | cons t ts =>
    obtain ⟨wells, apart⟩ := legible
    obtain ⟨c, chars, -, spelled, -⟩ := exists_spelling_eq_cons (wells t (by simp)) next
    have ended : ((bind v).piece next).extend? c = none :=
      extend?_piece_eq_none (List.isChain_cons_cons.mp apart).1 spelled
    have part : isWordPart c = false := Piece.takes_eq_false ended
    rw [spellFrom_cons, String.join_cons, String.toList_append, spelled]
    simp only [isWordPart, Char.isAlphanum, Bool.or_eq_false_iff] at part
    simpa using part.1.1.2

theorem placeholdersIn_spellFrom {ts : List Token} (legible : Legible ts)
    (plain : ∀ t ∈ ts, t.isPlain = true) (next : Nat) :
    placeholdersIn (String.join (spellFrom next ts)).toList =
      numbered next (values ts).length := by
  induction ts generalizing next with
  | nil => rfl
  | cons t ts ih =>
    obtain ⟨first, others⟩ := List.forall_mem_cons.mp plain
    have later : Legible ts :=
      ⟨(List.forall_mem_cons.mp legible.wellSpelled).2, legible.apart.tail⟩
    rw [spellFrom_cons, String.join_cons, String.toList_append, values_cons t ts]
    cases t with
    | bind v =>
      -- only a placeholder takes a number, so the others find the same one next
      rw [spelling, placeholdersIn_placeholder next (head?_isDigit_eq_false legible),
        ih later others]
      simp [numbered, values, List.range'_succ]
    | word | quoted | number | mark | blank =>
      rw [placeholdersIn_append (dollar_not_mem_spelling first rfl next), ih later others]
      rfl

/-! ## Tokens and the values that they carry -/

/-- Tokens that carry some values, in this order, and that write dollar signs for nothing else. -/
structure Carries (ts : List Token) (vs : List Value) : Prop where
  plain : ∀ t ∈ ts, t.isPlain = true
  values_eq : values ts = vs

namespace Carries

variable {ts us : List Token} {vs ws : List Value}

theorem nil : Carries [] [] :=
  ⟨by simp, rfl⟩

theorem append (left : Carries ts vs) (right : Carries us ws) : Carries (ts ++ us) (vs ++ ws) where
  plain := List.forall_mem_append.mpr ⟨left.plain, right.plain⟩
  values_eq := by
    rw [← left.values_eq, ← right.values_eq]
    exact List.filterMap_append

theorem fixed (each : ∀ t ∈ ts, t.isPlain = true ∧ values [t] = [] := by decide) :
    Carries ts [] := by
  refine ⟨fun t mem => (each t mem).1, ?_⟩
  induction ts with
  | nil => rfl
  | cons t ts ih =>
    obtain ⟨⟨-, unbound⟩, others⟩ := List.forall_mem_cons.mp each
    rw [values_cons, unbound, ih others]
    rfl

theorem bind {v : Value} : Carries [.bind v] [v] :=
  ⟨by simp [isPlain], rfl⟩

theorem spaced {pieces : List (List Token)} {parts : List (List Value)}
    (each : List.Forall₂ Carries pieces parts) : Carries (Token.spaced pieces) parts.flatten := by
  rw [← intercalate_nil_left]
  exact rel_intercalate nil append fixed each

theorem commas {pieces : List (List Token)} {parts : List (List Value)}
    (each : List.Forall₂ Carries pieces parts) : Carries (Token.commas pieces) parts.flatten := by
  rw [← intercalate_nil_left]
  exact rel_intercalate nil append fixed each

/-- Pieces without values have none when they are put together. -/
theorem each_nil {pieces : List (List Token)} (each : ∀ piece ∈ pieces, Carries piece []) :
    List.Forall₂ Carries pieces (pieces.map fun _ => []) :=
  List.forall₂_map_right_iff.mpr (List.forall₂_same.mpr each)

theorem spaced_nil {pieces : List (List Token)} (each : ∀ piece ∈ pieces, Carries piece []) :
    Carries (Token.spaced pieces) [] := by
  simpa using spaced (each_nil each)

theorem commas_nil {pieces : List (List Token)} (each : ∀ piece ∈ pieces, Carries piece []) :
    Carries (Token.commas pieces) [] := by
  simpa using commas (each_nil each)

theorem bracketed (inner : Carries ts vs) : Carries (Token.bracketed ts) vs := by
  have opens : Carries [opening] [] := fixed
  have closes : Carries [closing] [] := fixed
  simpa [Token.bracketed] using (opens.append inner).append closes

end Carries

/-! ## Tokens that differ in their values only -/

def masked : Token → Token
  | bind _ => bind .null
  | t => t

/-- Tokens that differ in nothing but the values that they carry. -/
def Alike (ts us : List Token) : Prop :=
  ts.map masked = us.map masked

theorem spellFrom_masked (next : Nat) (ts : List Token) :
    spellFrom next (ts.map masked) = spellFrom next ts := by
  induction ts generalizing next with
  | nil => rfl
  | cons t ts ih => cases t <;> simp [masked, spellFrom, ih]

/-- The values have no part in the text. -/
theorem Alike.spell_eq {ts us : List Token} (alike : Alike ts us) : spell ts = spell us := by
  rw [spell, spell, ← spellFrom_masked, alike, spellFrom_masked]

namespace Alike

variable {ts us ts' us' : List Token}

@[refl] theorem refl (ts : List Token) : Alike ts ts :=
  rfl

theorem append (left : Alike ts us) (right : Alike ts' us') : Alike (ts ++ ts') (us ++ us') := by
  rw [Alike, List.map_append, List.map_append, left, right]

theorem intercalate (between : List Token) {pieces parts : List (List Token)}
    (each : List.Forall₂ Alike pieces parts) :
    Alike (List.intercalate between pieces) (List.intercalate between parts) :=
  rel_intercalate (refl []) append (refl between) each

theorem spaced {pieces parts : List (List Token)} (each : List.Forall₂ Alike pieces parts) :
    Alike (Token.spaced pieces) (Token.spaced parts) :=
  intercalate _ each

theorem bracketed (inner : Alike ts us) : Alike (Token.bracketed ts) (Token.bracketed us) :=
  ((refl [opening]).append inner).append (refl [closing])

end Alike

end Sql.Token

/-! ## Predicates -/

namespace Predicate

mutual

/-- The parts of a predicate that are no groups, from left to right. -/
def leaves : Predicate → List Predicate
  | .group _ parts => leavesOf parts
  | p => [p]

def leavesOf : List Predicate → List Predicate
  | [] => []
  | p :: rest => leaves p ++ leavesOf rest

end

def comparand? : Predicate → Option Value
  | .equals _ value => some (.text value)
  | .oneOf _ values | .rowAdmits values => some (.texts values)
  | _ => none

/-- What the leaves of a predicate compare something with, from left to right. -/
def comparands (p : Predicate) : List Value :=
  p.leaves.filterMap comparand?

mutual

/-- What is left of a predicate without the strings that its leaves carry. -/
def shape : Predicate → Predicate
  | .group c parts => .group c (shapes parts)
  | .equals field _ => .equals field ""
  | .oneOf field _ => .oneOf field []
  | .rowAdmits _ => .rowAdmits []
  | p => p

def shapes : List Predicate → List Predicate
  | [] => []
  | p :: rest => shape p :: shapes rest

end

end Predicate

open Sql.Token (Alike Carries)

theorem Sql.Column.carries_tokens {c : Column} (plain : (Token.word c.name).isPlain = true) :
    Carries c.tokens [] := by
  have shortName : Carries [.word c.table.shortName, .mark "."] [] := by
    cases c.table <;> exact .fixed
  have name : Carries [.word c.name] [] := .fixed (by simpa using ⟨plain, rfl⟩)
  exact shortName.append name

theorem Sql.Column.carries_ofField (field : Field) : Carries (ofField field).tokens [] := by
  cases field <;> exact carries_tokens (by decide)

theorem Sql.Column.carries_ofPermission (permission : Permission) :
    Carries (ofPermission permission).tokens [] := by
  cases permission <;> exact carries_tokens (by decide)

namespace Sql.Condition

variable {c : Connective} {p q : Condition} {rest others : List Condition}

theorem carries_group {parts : List (List Value)}
    (each : List.Forall₂ Carries ((p :: rest).map tokens) parts) :
    Carries (group c (p :: rest)).tokens parts.flatten := by
  have between : Carries (.blank :: connectiveTokens c ++ [.blank]) [] := by
    cases c <;> exact .fixed
  rw [tokens, tokens_append_restTokens, ← intercalate_nil_left]
  exact (rel_intercalate .nil .append between each).bracketed

theorem alike_group
    (each : List.Forall₂ Alike ((p :: rest).map tokens) ((q :: others).map tokens)) :
    Alike (group c (p :: rest)).tokens (group c (q :: others)).tokens := by
  rw [tokens, tokens, tokens_append_restTokens, tokens_append_restTokens]
  exact (Alike.intercalate _ each).bracketed

end Sql.Condition

namespace Predicate

theorem comparands_group (c : Connective) (parts : List Predicate) :
    (group c parts).comparands = (parts.map comparands).flatten := by
  induction parts with
  | nil => rfl
  | cons p rest ih =>
    rw [List.map_cons, List.flatten_cons, ← ih]
    exact List.filterMap_append

mutual

/-- The condition of a predicate carries what its leaves compare with, in their order. -/
theorem carries_ofPredicate : (p : Predicate) →
    Carries (Condition.ofPredicate p).tokens p.comparands
  | .constant b => by
    cases b <;> exact .fixed
  | .group c [] => by
    cases c <;> exact .fixed
  | .group c (p :: rest) => by
    rw [comparands_group]
    exact Condition.carries_group (carries_ofPredicates (p :: rest))
  | .equals field value =>
    .spaced (.cons (Column.carries_ofField field) (.cons .fixed (.cons .bind .nil)))
  | .oneOf field values => by
    have any : Carries [.word "ANY"] [] := .fixed
    have list : Carries (.word "ANY" :: Token.bracketed [.bind (.texts values)]) [.texts values] :=
      any.append (Carries.bracketed .bind)
    exact .spaced (.cons (Column.carries_ofField field) (.cons .fixed (.cons list .nil)))
  | .rowOpen => .fixed
  | .rowAdmits held => by
    have column : Carries Column.authorizations.tokens [] := .fixed
    exact .spaced (.cons column (.cons .fixed (.cons .bind .nil)))
  | .granted permission =>
    .spaced (.cons (Column.carries_ofPermission permission) (.cons .fixed (.cons .fixed .nil)))

theorem carries_ofPredicates : (parts : List Predicate) →
    List.Forall₂ Carries ((Condition.ofPredicates parts).map Condition.tokens)
      (parts.map comparands)
  | [] => .nil
  | p :: rest => .cons (carries_ofPredicate p) (carries_ofPredicates rest)

end

mutual

/-- What leaves carry has no part in how a condition is written. -/
theorem alike_shape : (p : Predicate) →
    Alike (Condition.ofPredicate p).tokens (Condition.ofPredicate p.shape).tokens
  | .constant _ | .group _ [] | .equals _ _ | .oneOf _ _ | .rowOpen | .rowAdmits _ | .granted _ =>
    rfl
  | .group _ (p :: rest) => Condition.alike_group (alike_shapes (p :: rest))

theorem alike_shapes : (parts : List Predicate) →
    List.Forall₂ Alike ((Condition.ofPredicates parts).map Condition.tokens)
      ((Condition.ofPredicates (shapes parts)).map Condition.tokens)
  | [] => .nil
  | p :: rest => .cons (alike_shape p) (alike_shapes rest)

end

theorem alike_of_shape_eq {p q : Predicate} (same : p.shape = q.shape) :
    Alike (Condition.ofPredicate p).tokens (Condition.ofPredicate q).tokens := by
  have left := alike_shape p
  rw [same] at left
  exact left.trans (alike_shape q).symm

end Predicate

/-! ## Statements -/

namespace Sql

theorem OrderTerm.carries_tokens {term : OrderTerm} (column : Carries term.column.tokens []) :
    Carries term.tokens [] := by
  refine .spaced_nil ?_
  simp only [List.forall_mem_append, List.forall_mem_singleton]
  refine ⟨⟨⟨column, ?_⟩, ?_⟩, ?_⟩
  · cases term.byCodePoints with
    | false => simp
    | true =>
      have collate : Carries [.word "COLLATE"] [] := .fixed
      have collation : Carries [.quoted "C"] [] := .fixed
      simpa using ⟨collate, collation⟩
  · cases term.direction with
    | none => simp
    | some d => cases d <;> exact List.forall_mem_singleton.mpr .fixed
  · cases term.nullsLast with
    | false => simp
    | true => exact List.forall_mem_singleton.mpr .fixed

theorem carries_orderTokens {terms : List OrderTerm}
    (columns : ∀ term ∈ terms, Carries term.column.tokens []) :
    Carries (orderTokens terms) [] := by
  have each : Carries (Token.commas (terms.map OrderTerm.tokens)) [] :=
    .commas_nil (List.forall_mem_map.mpr fun term mem =>
      OrderTerm.carries_tokens (columns term mem))
  exact .spaced (.cons .fixed (.cons each .nil))

namespace Statement

/-- The text of the statement has the placeholders from `$1` on, one for each of some values, each
once and in this order, and these values are bound to it. -/
def Binds (s : Statement) (vs : List Value) : Prop :=
  Token.placeholders s.text = Token.numbered 1 vs.length ∧ s.values = vs

theorem binds {s : Statement} {vs : List Value} (legible : Token.Legible s.tokens)
    (carries : Carries s.tokens vs) : s.Binds vs := by
  refine ⟨?_, carries.values_eq⟩
  rw [← carries.values_eq]
  exact Token.placeholdersIn_spellFrom legible carries.plain 1

def limitValues (l : Limit) : List Value :=
  [.integer l.limit.toInt, .integer l.offset.toInt]

theorem carries_limitTokens (l : Limit) : Carries (limitTokens l) (limitValues l) :=
  .spaced <| .cons .fixed <| .cons .bind <| .cons .fixed <| .cons .bind .nil

variable {p q : Predicate} {terms : List OrderTerm}

theorem carries_existsTokens (p : Predicate) :
    Carries (existsTokens (.ofPredicate p)) p.comparands := by
  have pieces : Carries (existsTokens (.ofPredicate p)) [[], [], [], [], [], [], [],
      p.comparands].flatten :=
    .bracketed <| .spaced <| .cons .fixed <| .cons .fixed <| .cons .fixed <| .cons .fixed <|
      .cons .fixed <| .cons .fixed <| .cons .fixed <| .cons p.carries_ofPredicate .nil
  simpa using pieces

theorem carries_columnTokens {table : Table} {names : List String}
    (plain : ∀ name ∈ names, (Token.word name).isPlain = true) :
    Carries (columnTokens table names) [] :=
  .commas_nil (List.forall_mem_map.mpr fun name mem => Column.carries_tokens (plain name mem))

/-- A listing carries what its predicate compares with and then the values of its page. -/
theorem carries_listTasks (p : Predicate)
    (columns : ∀ term ∈ terms, Carries term.column.tokens []) (limit : Option Limit) :
    Carries (listTasks (.ofPredicate p) terms limit).tokens
      (p.comparands ++ limit.toList.flatMap limitValues) := by
  have pieces : Carries (listTasks (.ofPredicate p) terms limit).tokens
      ([[], [], [], p.comparands, []] ++ limit.toList.map limitValues).flatten :=
    .spaced <| List.rel_append
      (.cons .fixed <| .cons (carries_columnTokens (by decide)) <| .cons .fixed <|
        .cons (carries_existsTokens p) <| .cons (carries_orderTokens columns) .nil)
      (forall₂_map fun l _ => carries_limitTokens l)
  simpa [List.flatMap_def] using pieces

theorem carries_countTasks (p : Predicate) :
    Carries (countTasks (.ofPredicate p)).tokens p.comparands := by
  have pieces : Carries (countTasks (.ofPredicate p)).tokens [[], [], [], p.comparands].flatten :=
    .spaced <| .cons .fixed <| .cons .fixed <| .cons .fixed <| .cons p.carries_ofPredicate .nil
  simpa using pieces

theorem carries_matchRows (p : Predicate) :
    Carries (matchRows (.ofPredicate p)).tokens p.comparands := by
  have pieces : Carries (matchRows (.ofPredicate p)).tokens
      [[], [], [], p.comparands, []].flatten :=
    .spaced <| .cons .fixed <| .cons (carries_columnTokens (by decide)) <| .cons .fixed <|
      .cons p.carries_ofPredicate <| .cons .fixed .nil
  simpa using pieces

/-! ### Texts -/

section

variable (alike : Alike (Condition.ofPredicate p).tokens (Condition.ofPredicate q).tokens)
include alike

theorem alike_listTasks (limit : Option Limit) :
    Alike (listTasks (.ofPredicate p) terms limit).tokens
      (listTasks (.ofPredicate q) terms limit).tokens := by
  have condition : Alike (existsTokens (.ofPredicate p)) (existsTokens (.ofPredicate q)) :=
    .bracketed <| .spaced <| .cons (.refl _) <| .cons (.refl _) <| .cons (.refl _) <|
      .cons (.refl _) <| .cons (.refl _) <| .cons (.refl _) <| .cons (.refl _) <|
      .cons alike .nil
  exact .spaced <| List.rel_append
    (.cons (.refl _) <| .cons (.refl _) <| .cons (.refl _) <| .cons condition <|
      .cons (.refl _) .nil)
    (forall₂_map fun l _ => .refl (limitTokens l))

theorem alike_countTasks :
    Alike (countTasks (.ofPredicate p)).tokens (countTasks (.ofPredicate q)).tokens :=
  .spaced <| .cons (.refl _) <| .cons (.refl _) <| .cons (.refl _) <| .cons alike .nil

theorem alike_matchRows :
    Alike (matchRows (.ofPredicate p)).tokens (matchRows (.ofPredicate q)).tokens :=
  .spaced <| .cons (.refl _) <| .cons (.refl _) <| .cons (.refl _) <| .cons alike <|
    .cons (.refl _) .nil

end

end Statement

end Sql

end Caseload
