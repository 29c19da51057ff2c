import Caseload.Proofs.Text.Digits
import Caseload.Sql.Token
import Mathlib.Data.List.Chain

/-!
# Reading statement texts

A database gets the text of a statement and the values for its placeholders.  `Token.read?` reads
such a text character by character: every piece takes as many characters as it can, and the
placeholder `$n` stands for the `n`-th value.  It covers words, quoted names, whole numbers,
placeholders, operators and brackets; a text with anything else (a literal in quotes, a comment) is
not read.

Reading undoes spelling (`read?_spell`) for every row of tokens that keeps its pieces apart, which
is what `Legible` says.
-/

namespace Caseload.Sql

/-! ## Pieces of text -/

def isWordStart (c : Char) : Bool :=
  c.isAlpha || c == '_'

def isWordPart (c : Char) : Bool :=
  c.isAlphanum || c == '_' || c == '$'

-- the two characters with which comments begin are left out: no text with a comment is read
def isOperator (c : Char) : Bool :=
  ['+', '*', '<', '>', '=', '~', '!', '@', '#', '%', '^', '&', '|', '?'].contains c

def isPunctuation (c : Char) : Bool :=
  ['(', ')', '[', ']', ',', '.', ';', ':'].contains c

def isSpace (c : Char) : Bool :=
  [' ', '\t', '\n', '\r'].contains c

/-- The kinds of pieces that go on as long as the characters are right. -/
inductive Run
  | word
  | number
  | operator
  | placeholder
  | punctuation
  | space
  deriving DecidableEq

namespace Run

/-- The kind of run that begins with a character. -/
def ofChar? (c : Char) : Option Run :=
  if isWordStart c then some word
  else if c.isDigit then some number
  else if isOperator c then some operator
  else if isPunctuation c then some punctuation
  else if isSpace c then some space
  else none

/-- Whether a character goes on with a run.  A number takes letters as well, and is none then. -/
def takes : Run → Char → Bool
  | word, c | number, c | placeholder, c => isWordPart c
  | operator, c => isOperator c
  | punctuation, _ | space, _ => false

end Run

/-- A piece of text while it is read. -/
inductive Piece
  | run (kind : Run) (chars : List Char)
  | opened (name : List Char)
  | quoted (name : List Char)

namespace Piece

/-- The piece that begins with a character. -/
def ofChar? (c : Char) : Option Piece :=
  if c = '$' then some (run .placeholder [])
  else if c = '"' then some (opened [])
  else (Run.ofChar? c).map (run · [c])

/-- The piece with one more character, unless the character begins a new piece. -/
def extend? : Piece → Char → Option Piece
  | run kind chars, c => if kind.takes c then some (run kind (chars ++ [c])) else none
  | opened name, c => if c = '"' then some (quoted name) else some (opened (name ++ [c]))
  -- a quote that is written twice is part of the name
  | quoted name, c => if c = '"' then some (opened (name ++ [c])) else none

/-- The number that some digits write. -/
def number? (digits : List Char) : Option Nat :=
  if digits.all Char.isDigit then some (Nat.ofDigitChars 10 digits 0) else none

/-- The token that a finished piece is. -/
def token? (values : List Value) : Piece → Option Token
  | run .word name => some (.word (.ofList name))
  | run .number digits => (number? digits).map .number
  | run .operator spelling | run .punctuation spelling => some (.mark (.ofList spelling))
  | run .placeholder digits => do
    match ← number? digits with
    | 0 => none
    | n + 1 => return .bind (← values[n]?)
  | run .space _ => some .blank
  | opened _ => none
  | quoted name => some (.quoted (.ofList name))

end Piece

namespace Token

/-- Reads characters after those of an unfinished piece. -/
def readFrom? (values : List Value) : Piece → List Char → Option (List Token)
  | piece, [] => (piece.token? values).map ([·])
  | piece, c :: rest =>
    match piece.extend? c with
    | some longer => readFrom? values longer rest
    | none => do
      let t ← piece.token? values
      let first ← Piece.ofChar? c
      return t :: (← readFrom? values first rest)

/-- The tokens of a text, if it can be read with these values for its placeholders. -/
def read? (values : List Value) (text : String) : Option (List Token) :=
  match text.toList with
  | [] => some []
  | c :: rest => do readFrom? values (← Piece.ofChar? c) rest

/-! ## Tokens that can be told apart -/

/-- Whether the spelling of a token is a piece of its kind. -/
def wellSpelled : Token → Bool
  | word name => name.toList.head?.any isWordStart && name.toList.tail.all isWordPart
  | quoted name => !name.toList.contains '"'
  | mark spelling =>
    spelling.toList.head?.any isOperator && spelling.toList.tail.all isOperator ||
      spelling.toList.head?.any isPunctuation && spelling.toList.tail.isEmpty
  | number _ | blank | bind _ => true

/-- Whether a token keeps the tokens on both sides of it apart. -/
def isBreak : Token → Bool
  | blank => true
  | mark spelling => spelling.toList.head?.any isPunctuation
  | _ => false

/-- Tokens of which the text can be read back. -/
structure Legible (ts : List Token) : Prop where
  wellSpelled : ∀ t ∈ ts, t.wellSpelled = true
  apart : ts.IsChain fun a b => a.isBreak ∨ b.isBreak

/-! ## Reading a spelled token -/

/-- How a token is spelled when the next placeholder has a given number. -/
def spelling (next : Nat) : Token → String
  | word name => name
  | quoted name => "\"" ++ name ++ "\""
  | number n => toString n
  | mark spelling => spelling
  | blank => " "
  | bind _ => "$" ++ toString next

/-- The piece that a spelled token is. -/
def piece (next : Nat) : Token → Piece
  | word name => .run .word name.toList
  | quoted name => .quoted name.toList
  | number n => .run .number (Nat.toDigits 10 n)
  | mark spelling =>
    .run (if spelling.toList.head?.any isPunctuation then .punctuation else .operator)
      spelling.toList
  | blank => .run .space [' ']
  | bind _ => .run .placeholder (Nat.toDigits 10 next)

theorem spellFrom_cons (next : Nat) (t : Token) (ts : List Token) :
    spellFrom next (t :: ts) = t.spelling next :: spellFrom (next + (values [t]).length) ts := by
  cases t <;> rfl

theorem values_cons (t : Token) (ts : List Token) : values (t :: ts) = values [t] ++ values ts := by
  cases t <;> rfl

end Token

namespace Piece

theorem foldlM_extend?_run {kind : Run} {before chars : List Char}
    (taken : ∀ c ∈ chars, kind.takes c = true) :
    chars.foldlM extend? (run kind before) = some (run kind (before ++ chars)) := by
  induction chars generalizing before with
  | nil => simp
  | cons c rest ih =>
    obtain ⟨first, others⟩ := List.forall_mem_cons.mp taken
    simp [extend?, first, ih others]

theorem foldlM_extend?_opened {before chars : List Char} (plain : ∀ c ∈ chars, c ≠ '"') :
    chars.foldlM extend? (opened before) = some (opened (before ++ chars)) := by
  induction chars generalizing before with
  | nil => simp
  | cons c rest ih =>
    obtain ⟨first, others⟩ := List.forall_mem_cons.mp plain
    simp [extend?, first, ih others]

theorem takes_eq_false {kind : Run} {chars : List Char} {c : Char}
    (ended : (run kind chars).extend? c = none) : kind.takes c = false := by
  cases taken : kind.takes c with
  | false => rfl
  | true => simp [extend?, taken] at ended

/-- Reading goes on past the characters that a piece takes. -/
theorem readFrom?_of_foldlM {values : List Value} {piece longer : Piece} {chars : List Char}
    (taken : chars.foldlM extend? piece = some longer) (rest : List Char) :
    Token.readFrom? values piece (chars ++ rest) = Token.readFrom? values longer rest := by
  induction chars generalizing piece with
  | nil => simp_all
  | cons c chars ih =>
    obtain ⟨next, first, others⟩ := Option.bind_eq_some_iff.mp taken
    simp only [List.cons_append, Token.readFrom?, first, ih others]

end Piece

theorem isWordStart_of_isDigit {c : Char} (digit : c.isDigit = true) : isWordStart c = false := by
  have bounds : 48 ≤ c.val ∧ c.val ≤ 57 := by simpa [Char.isDigit] using digit
  -- a digit comes before all letters
  have upper : c.isUpper = decide (c.val ≥ 65 ∧ c.val ≤ 90) := rfl
  have lower : c.isLower = (decide (c.val ≥ 97) && decide (c.val ≤ 122)) := rfl
  have alpha : c.isAlpha = (c.isUpper || c.isLower) := rfl
  have : c ≠ '_' := by
    rintro rfl
    simp at bounds
  simp only [isWordStart, alpha, upper, lower]
  simp [this]
  grind

namespace Run

theorem ofChar?_of_isWordStart {c : Char} (start : isWordStart c = true) :
    ofChar? c = some word := by
  simp [ofChar?, start]

theorem ofChar?_of_isDigit {c : Char} (digit : c.isDigit = true) : ofChar? c = some number := by
  simp [ofChar?, isWordStart_of_isDigit digit, digit]

theorem ofChar?_of_isOperator {c : Char} (operates : isOperator c = true) :
    ofChar? c = some operator := by
  have all : ['+', '*', '<', '>', '=', '~', '!', '@', '#', '%', '^', '&', '|', '?'].all
      (ofChar? · = some operator) := by decide
  exact of_decide_eq_true (List.all_eq_true.mp all c (List.contains_iff_mem.mp operates))

theorem ofChar?_of_isPunctuation {c : Char} (punctuates : isPunctuation c = true) :
    ofChar? c = some punctuation := by
  have all : ['(', ')', '[', ']', ',', '.', ';', ':'].all (ofChar? · = some punctuation) := by
    decide
  exact of_decide_eq_true (List.all_eq_true.mp all c (List.contains_iff_mem.mp punctuates))

/-- A blank and a punctuation mark end every run. -/
theorem takes_eq_false {c : Char} (ends : c = ' ' ∨ isPunctuation c = true) (kind : Run) :
    kind.takes c = false := by
  have all : [' ', '(', ')', '[', ']', ',', '.', ';', ':'].all
      fun c => !isWordPart c && !isOperator c := by decide
  have listed := List.mem_cons.mpr (ends.imp_right List.contains_iff_mem.mp)
  have ended := List.all_eq_true.mp all c listed
  simp only [Bool.and_eq_true, Bool.not_eq_true'] at ended
  cases kind <;> simp [takes, ended]

theorem takes_of_mem_decimal {kind : Run} (taken : kind = .number ∨ kind = .placeholder)
    {n : Nat} {c : Char} (mem : c ∈ Nat.toDigits 10 n) : kind.takes c = true := by
  obtain rfl | rfl := taken <;>
    simp [takes, isWordPart, Char.isAlphanum, Text.isDigit_of_mem_toDigits mem]

end Run

namespace Piece

/-- Characters that make up a whole run are read as one. -/
theorem exists_run_eq_cons {kind : Run} {chars : List Char}
    (first : ∃ c, chars.head? = some c ∧ Run.ofChar? c = some kind)
    (taken : ∀ c ∈ chars.tail, kind.takes c = true) :
    ∃ c rest start, chars = c :: rest ∧ ofChar? c = some start ∧
      rest.foldlM extend? start = some (run kind chars) := by
  obtain ⟨c, head, begins⟩ := first
  obtain ⟨rest, rfl⟩ := List.head?_eq_some_iff.mp head
  -- the two characters that begin other pieces begin no run
  have : c ≠ '$' ∧ c ≠ '"' := by
    constructor <;> rintro rfl <;> cases begins
  exact ⟨c, rest, run kind [c], rfl, by simp [ofChar?, this, begins], foldlM_extend?_run taken⟩

theorem number?_toDigits (n : Nat) : number? (Nat.toDigits 10 n) = some n := by
  have digits : (Nat.toDigits 10 n).all Char.isDigit = true :=
    List.all_eq_true.mpr fun _ => Text.isDigit_of_mem_toDigits
  simp [number?, digits, Nat.ofDigitChars_ten_toDigits]

end Piece

namespace Token

/-- The characters of a token, read one after the other, become its piece. -/
theorem exists_spelling_eq_cons {t : Token} (well : t.wellSpelled = true) (next : Nat) :
    ∃ c chars first, (t.spelling next).toList = c :: chars ∧ Piece.ofChar? c = some first ∧
      chars.foldlM Piece.extend? first = some (t.piece next) := by
  cases t with
  | word name =>
    simp only [wellSpelled, Bool.and_eq_true, List.all_eq_true, Option.any_eq_true] at well
    obtain ⟨⟨c, head, start⟩, parts⟩ := well
    exact Piece.exists_run_eq_cons ⟨c, head, Run.ofChar?_of_isWordStart start⟩ parts
  | quoted name =>
    have plain : ∀ c ∈ name.toList, c ≠ '"' := by
      rintro c mem rfl
      simp [wellSpelled, mem] at well
    refine ⟨'"', name.toList ++ ['"'], .opened [], by simp [spelling], rfl, ?_⟩
    simp [List.foldlM_append, Piece.foldlM_extend?_opened plain, Piece.extend?, piece]
  | number n =>
    obtain ⟨c, rest, digits⟩ := List.exists_cons_of_ne_nil (Nat.toDigits_ne_nil (n := n) (b := 10))
    have digit : c.isDigit = true := Text.isDigit_of_mem_toDigits (n := n) (by simp [digits])
    have first : (Nat.toDigits 10 n).head? = some c := by simp [digits]
    have read := Piece.exists_run_eq_cons ⟨c, first, Run.ofChar?_of_isDigit digit⟩
      fun d mem => Run.takes_of_mem_decimal (.inl rfl) (List.mem_of_mem_tail mem)
    simpa [spelling, piece] using read
  | mark spelling =>
    simp only [wellSpelled, Bool.or_eq_true, Bool.and_eq_true, List.all_eq_true,
      Option.any_eq_true] at well
    -- a mark is a run of operators or a single punctuation mark, and never both
    obtain ⟨⟨c, head, operates⟩, others⟩ | ⟨⟨c, head, punctuates⟩, alone⟩ := well
    · have plain : isPunctuation c = false := by
        by_contra punctuates
        have := Run.ofChar?_of_isPunctuation (by simpa using punctuates)
        rw [Run.ofChar?_of_isOperator operates] at this
        cases this
      simp only [piece, head, Option.any_some, plain]
      exact Piece.exists_run_eq_cons ⟨c, head, Run.ofChar?_of_isOperator operates⟩ others
    · simp only [piece, head, Option.any_some, punctuates]
      refine Piece.exists_run_eq_cons ⟨c, head, Run.ofChar?_of_isPunctuation punctuates⟩ ?_
      change ∀ c ∈ spelling.toList.tail, _
      simp [List.isEmpty_iff.mp alone]
  | blank => exact ⟨' ', [], .run .space [' '], by simp [spelling], rfl, rfl⟩
  | bind v =>
    refine ⟨'$', Nat.toDigits 10 next, .run .placeholder [], by simp [spelling], rfl, ?_⟩
    exact Piece.foldlM_extend?_run fun c mem => Run.takes_of_mem_decimal (.inr rfl) mem

/-- A token next to a break does not run on into it. -/
theorem extend?_piece_eq_none {a b : Token} {next later : Nat} {c : Char} {chars : List Char}
    (apart : a.isBreak ∨ b.isBreak) (spelled : (b.spelling later).toList = c :: chars) :
    (a.piece next).extend? c = none := by
  -- a break that comes before takes nothing more; one that comes after is taken by nothing
  obtain before | after := apart
  · cases a with
    | blank => rfl
    | mark spelling =>
      have : spelling.toList.head?.any isPunctuation = true := before
      simp [piece, this, Piece.extend?, Run.takes]
    | _ => cases before
  · have ends : c = ' ' ∨ isPunctuation c = true := by
      cases b with
      | blank => exact .inl (by simpa [spelling, eq_comm] using congrArg List.head? spelled)
      | mark spelling =>
        have head : spelling.toList = c :: chars := spelled
        exact .inr (by simpa [isBreak, head] using after)
      | _ => cases after
    have plain : c ≠ '"' := by
      rintro rfl
      simp [isPunctuation] at ends
    cases a <;> simp [piece, Piece.extend?, Run.takes_eq_false ends, plain]

theorem token?_piece (t : Token) (before after : List Value) :
    (t.piece (before.length + 1)).token? (before ++ values [t] ++ after) = some t := by
  cases t with
  | word name | quoted name => simp [piece, Piece.token?]
  | number n => simp [piece, Piece.token?, Piece.number?_toDigits]
  | mark spelling =>
    simp only [piece]
    split <;> simp [Piece.token?]
  | blank => rfl
  | bind v => simp [piece, Piece.token?, Piece.number?_toDigits, values]

/-! ## Reading undoes spelling -/

/-- The characters of some tokens, read after a token, are read as those tokens. -/
theorem readFrom?_spellFrom {t : Token} {ts : List Token} (legible : Legible (t :: ts))
    (before : List Value) :
    readFrom? (before ++ values (t :: ts)) (t.piece (before.length + 1))
      (String.join (spellFrom (before.length + 1 + (values [t]).length) ts)).toList =
        some (t :: ts) := by
  induction ts generalizing t before with
  | nil =>
    have finished := token?_piece t before []
    simp_all [spellFrom, readFrom?]
  | cons u ts ih =>
    obtain ⟨well, apart⟩ := legible
    have wellRest := (List.forall_mem_cons.mp well).2
    obtain ⟨apartHead, apartRest⟩ := List.isChain_cons_cons.mp apart
    obtain ⟨c, chars, first, spelled, begins, taken⟩ :=
      exists_spelling_eq_cons (wellRest u (.head _)) (before.length + 1 + (values [t]).length)
    have ends : (t.piece (before.length + 1)).extend? c = none :=
      extend?_piece_eq_none apartHead spelled
    have finished := token?_piece t before (values (u :: ts))
    -- the values of the token that is finished have been read before those of the next one
    have later := ih ⟨wellRest, apartRest⟩ (before ++ values [t])
    have next : (before ++ values [t]).length + 1 = before.length + 1 + (values [t]).length := by
      rw [List.length_append]
      omega
    rw [List.append_assoc, ← values_cons] at finished later
    rw [next] at later
    rw [spellFrom_cons, String.join_cons, String.toList_append, spelled, List.cons_append,
      readFrom?]
    simp only [ends, finished, begins, Piece.readFrom?_of_foldlM taken, later, Option.bind_eq_bind,
      Option.bind_some, Option.pure_def]

/-- The text of legible tokens is read as those tokens, each placeholder with its own value. -/
theorem read?_spell {ts : List Token} (legible : Legible ts) :
    read? (values ts) (spell ts) = some ts := by
  cases ts with
  | nil => rfl
  | cons t ts =>
    obtain ⟨c, chars, first, spelled, begins, taken⟩ :=
      exists_spelling_eq_cons (legible.wellSpelled t (.head _)) 1
    have later := readFrom?_spellFrom legible []
    simp only [List.nil_append, List.length_nil, Nat.zero_add] at later
    simp only [spell, read?, spellFrom_cons, String.join_cons, String.toList_append, spelled,
      List.cons_append, begins, Piece.readFrom?_of_foldlM taken, later, Option.bind_eq_bind,
      Option.bind_some]

/-! ## Legible rows -/

@[simp] theorem legible_nil : Legible [] :=
  ⟨by simp, .nil⟩

@[simp] theorem legible_singleton {t : Token} : Legible [t] ↔ t.wellSpelled = true :=
  ⟨fun legible => legible.wellSpelled t (.head _), fun well => ⟨by simpa using well, .singleton _⟩⟩

/-- A break may stand between any two rows. -/
theorem legible_append_cons {k : Token} (well : k.wellSpelled = true) (breaks : k.isBreak = true)
    {a b : List Token} : Legible (a ++ k :: b) ↔ Legible a ∧ Legible b := by
  constructor
  · rintro ⟨wells, apart⟩
    obtain ⟨left, right, -⟩ := List.isChain_append.mp apart
    simp only [List.forall_mem_append, List.forall_mem_cons] at wells
    exact ⟨⟨wells.1, left⟩, ⟨wells.2.2, right.tail⟩⟩
  · rintro ⟨⟨wellA, apartA⟩, wellB, apartB⟩
    have wells : ∀ t ∈ a ++ k :: b, t.wellSpelled = true := by
      simp only [List.forall_mem_append, List.forall_mem_cons]
      exact ⟨wellA, well, wellB⟩
    refine ⟨wells, ?_⟩
    refine List.isChain_append.mpr ⟨apartA, apartB.cons fun _ _ => .inl breaks, ?_⟩
    rintro x - y head
    obtain rfl : k = y := by simpa using head
    exact .inr breaks

@[simp] theorem legible_append_blank {a b : List Token} :
    Legible (a ++ blank :: b) ↔ Legible a ∧ Legible b :=
  legible_append_cons rfl rfl

@[simp] theorem legible_blank_cons {ts : List Token} : Legible (blank :: ts) ↔ Legible ts := by
  simpa using legible_append_blank (a := []) (b := ts)

@[simp] theorem legible_bracketed {ts : List Token} : Legible (bracketed ts) ↔ Legible ts := by
  have left := legible_append_cons (k := opening) (by decide) (by decide) (a := [])
    (b := ts ++ [closing])
  have right := legible_append_cons (k := closing) (by decide) (by decide) (a := ts) (b := [])
  simp_all [bracketed]

/-- A row in brackets may follow a word. -/
@[simp] theorem legible_word_cons_bracketed {name : String} {ts : List Token} :
    Legible (word name :: bracketed ts) ↔ (word name).wellSpelled = true ∧ Legible ts := by
  have opens := legible_append_cons (k := opening) (by decide) (by decide) (a := [word name])
    (b := ts ++ [closing])
  have closes := legible_append_cons (k := closing) (by decide) (by decide) (a := ts) (b := [])
  simp_all [bracketed]

theorem Legible.intercalate {between : List Token}
    (joins : ∀ {a b}, Legible a → Legible b → Legible (a ++ between ++ b))
    {pieces : List (List Token)} (legible : ∀ piece ∈ pieces, Legible piece) :
    Legible (List.intercalate between pieces) := by
  match pieces with
  | [] => simp [List.intercalate]
  | [piece] => simpa using legible
  | piece :: next :: rest =>
    obtain ⟨first, others⟩ := List.forall_mem_cons.mp legible
    rw [List.intercalate_cons_cons]
    exact joins first (Legible.intercalate joins others)

theorem Legible.spaced {pieces : List (List Token)} (legible : ∀ piece ∈ pieces, Legible piece) :
    Legible (Token.spaced pieces) :=
  .intercalate (fun left right => by simpa using ⟨left, right⟩) legible

theorem Legible.commas {pieces : List (List Token)} (legible : ∀ piece ∈ pieces, Legible piece) :
    Legible (Token.commas pieces) := by
  refine .intercalate (fun left right => ?_) legible
  rw [List.append_assoc]
  exact (legible_append_cons (by decide) (by decide)).mpr ⟨left, legible_blank_cons.mpr right⟩

theorem Legible.words {names : List String}
    (legible : ∀ name ∈ names, (Token.word name).wellSpelled = true) :
    Legible (Token.words names) :=
  .spaced (by simpa using legible)

end Token

end Caseload.Sql
