import Caseload.Json.Printer
import Caseload.Json.Token
import Caseload.Proofs.Text.Digits
import Mathlib.Data.List.Forall2
import Mathlib.Data.List.TakeWhile

/-!
# Cutting printed values

What is printed of a value is cut into tokens again.  A mark or a string is a token as soon as it is
complete; a word or a number needs something after it that does not go on with it (`Ends`).
`Scans` leaves that open, and so texts that are cut into tokens can be put one after the other.
-/

namespace Caseload

namespace Json

/-- Neither a number nor a word goes on here. -/
def Ends (chars : List Char) : Prop :=
  ∀ c ∈ chars.head?, Lexeme.isNumeric c = false ∧ c.isLower = false

theorem ends_cons {c : Char} {rest : List Char}
    (mark : Lexeme.isNumeric c = false ∧ c.isLower = false) : Ends (c :: rest) := by
  rintro _ ⟨⟩
  exact mark

/-- The characters are cut into the tokens where `Next` holds of what comes after them. -/
def Scans (Next : List Char → Prop) (chars : List Char) (tokens : List Token) : Prop :=
  ∀ before rest, Next rest →
    Lexeme.scan before .between (chars ++ rest) =
      Lexeme.scan (tokens.reverse ++ before) .between rest

def Anything (_ : List Char) : Prop :=
  True

variable {before : List Token} {rest : List Char}

/-! ## Marks and blanks -/

namespace Scans

variable {Next After : List Char → Prop} {chars others : List Char} {tokens more : List Token}

theorem append (first : Scans Next chars tokens) (second : Scans After others more)
    (fits : ∀ rest, After rest → Next (others ++ rest)) :
    Scans After (chars ++ others) (tokens ++ more) := by
  intro before rest after
  rw [List.append_assoc, first before _ (fits rest after), second _ rest after,
    List.reverse_append, List.append_assoc]

theorem cons (first : Scans Anything chars tokens) (second : Scans After others more) :
    Scans After (chars ++ others) (tokens ++ more) :=
  first.append second fun _ _ => trivial

theorem weaken (first : Scans Anything chars tokens) : Scans Next chars tokens :=
  fun before rest _ => first before rest trivial

theorem mark {c : Char} {token : Token}
    (started : ∀ before, Lexeme.start before c = some (token :: before, .between)) :
    Scans Anything [c] [token] := by
  intro before rest _
  rw [List.singleton_append, Lexeme.scan, Lexeme.step, started]
  rfl

theorem blank {c : Char} (started : ∀ before, Lexeme.start before c = some (before, .between)) :
    Scans Anything [c] [] := by
  intro before rest _
  rw [List.singleton_append, Lexeme.scan, Lexeme.step, started]
  rfl

theorem newLine (level : Nat) : Scans Anything (newLine level).toList [] := by
  have blanks (n : Nat) : Scans Anything (List.replicate n ' ') [] := by
    induction n with
    | zero => exact fun _ _ _ => rfl
    | succ n ih => exact (blank fun _ => rfl).cons ih
  rw [Json.newLine, String.toList_append, String.toList_ofList (l := List.replicate _ _)]
  exact (blank fun _ => rfl).cons (blanks _)

end Scans

/-! ## Words and numbers -/

theorem scan_word {letters : List Char} {v : Json} (read : word? letters.reverse = some v)
    (ended : Ends rest) :
    Lexeme.scan before (.word letters) rest = Lexeme.scan (.atom v :: before) .between rest := by
  cases rest with
  | nil => simp [Lexeme.scan, Lexeme.finish, read]
  | cons c rest => simp [Lexeme.scan, Lexeme.step, read, (ended c rfl).2]

theorem scan_number {chars : List Char} {v : Json} (read : number? chars.reverse = some v)
    (ended : Ends rest) :
    Lexeme.scan before (.number chars) rest = Lexeme.scan (.atom v :: before) .between rest := by
  cases rest with
  | nil => simp [Lexeme.scan, Lexeme.finish, read]
  | cons c rest => simp [Lexeme.scan, Lexeme.step, read, (ended c rfl).1]

theorem scans_null : Scans Ends "null".toList [.atom .null] :=
  fun _ _ => scan_word rfl

theorem scans_bool (b : Bool) : Scans Ends (atomText (.bool b)).toList [.atom (.bool b)] := by
  cases b with
  | true => exact fun _ _ => scan_word rfl
  | false => exact fun _ _ => scan_word rfl

theorem start_of_isDigit {c : Char} (digit : c.isDigit = true) :
    Lexeme.start before c = some (before, .number [c]) := by
  have mark (d : Char) (other : d.isDigit = false) : c ≠ d := by
    rintro rfl
    cases digit.symm.trans other
  have space : Lexeme.isSpace c = false := by
    simp [Lexeme.isSpace, mark ' ' rfl, mark '\t' rfl, mark '\n' rfl, mark '\r' rfl]
  simp [Lexeme.start, mark '[' rfl, mark ']' rfl, mark '{' rfl, mark '}' rfl, mark ',' rfl,
    mark ':' rfl, mark '"' rfl, space, digit]

theorem scan_digits {chars digits : List Char} (each : ∀ c ∈ digits, c.isDigit = true) :
    Lexeme.scan before (.number chars) (digits ++ rest) =
      Lexeme.scan before (.number (digits.reverse ++ chars)) rest := by
  induction digits generalizing chars with
  | nil => rfl
  | cons c digits ih =>
    obtain ⟨first, others⟩ := List.forall_mem_cons.mp each
    rw [List.cons_append, Lexeme.scan, Lexeme.step, if_pos (by simp [Lexeme.isNumeric, first])]
    simp [ih others]

theorem afterWhole?_toDigits (n : Nat) : afterWhole? (Nat.toDigits 10 n) = some [] := by
  obtain ⟨c, rest, digits, zero⟩ := Text.exists_toDigits_eq_cons n
  have each : ∀ d ∈ c :: rest, d.isDigit = true := by
    rw [← digits]
    exact fun _ => Text.isDigit_of_mem_toDigits
  obtain ⟨first, others⟩ := List.forall_mem_cons.mp each
  rw [digits]
  unfold afterWhole?
  split
  next same =>
    obtain ⟨rfl, rfl⟩ := List.cons_eq_cons.mp same
    rw [zero rfl]
  next => rw [afterDigits?, if_pos first, List.dropWhile_eq_nil_iff.mpr others]

theorem afterSign_toDigits (n : Nat) : afterSign (Nat.toDigits 10 n) = Nat.toDigits 10 n := by
  unfold afterSign
  split
  next rest digits =>
    have minus : '-' ∈ Nat.toDigits 10 n := by simp [digits]
    cases Text.isDigit_of_mem_toDigits minus
  next => rfl

theorem number?_toDigits (n : Nat) : number? (Nat.toDigits 10 n) = some (.integer n) := by
  simp [number?, afterSign_toDigits, afterWhole?_toDigits, afterFraction?, afterExponent?,
    Text.value_toDigits]

theorem number?_minus_toDigits (n : Nat) :
    number? ('-' :: Nat.toDigits 10 (n + 1)) = some (.integer (Int.negSucc n)) := by
  simp [number?, afterSign, afterWhole?_toDigits, afterFraction?, afterExponent?,
    Text.value_toDigits, Int.negSucc_eq]

theorem scans_integer (n : Int) : Scans Ends (toString n).toList [.atom (.integer n)] := by
  intro before rest ended
  cases n with
  | ofNat n =>
    obtain ⟨c, digits, spelled, -⟩ := Text.exists_toDigits_eq_cons n
    have each : ∀ d ∈ c :: digits, d.isDigit = true := by
      rw [← spelled]
      exact fun _ => Text.isDigit_of_mem_toDigits
    obtain ⟨first, others⟩ := List.forall_mem_cons.mp each
    have text : (toString (Int.ofNat n)).toList = c :: digits := by
      rw [← spelled]
      exact Nat.toList_repr
    rw [text, List.cons_append, Lexeme.scan, Lexeme.step, start_of_isDigit first]
    refine (scan_digits others).trans (scan_number ?_ ended)
    rw [List.reverse_append, List.reverse_reverse, List.reverse_singleton, List.singleton_append,
      ← spelled, number?_toDigits]
    rfl
  | negSucc n =>
    have each : ∀ d ∈ Nat.toDigits 10 (n + 1), d.isDigit = true :=
      fun _ => Text.isDigit_of_mem_toDigits
    have text : (toString (Int.negSucc n)).toList = '-' :: Nat.toDigits 10 (n + 1) := by
      change ("-" ++ toString (n + 1)).toList = _
      rw [String.toList_append]
      exact congrArg ('-' :: ·) Nat.toList_repr
    rw [text, List.cons_append, Lexeme.scan, Lexeme.step]
    refine (scan_digits each).trans (scan_number ?_ ended)
    rw [List.reverse_append, List.reverse_reverse, List.reverse_singleton, List.singleton_append,
      number?_minus_toDigits]

/-! ## Strings -/

theorem hexDigit?_hexDigit {n : Nat} (small : n < 16) : hexDigit? (hexDigit n) = some n := by
  have all : ∀ n < 16, hexDigit? (hexDigit n) = some n := by decide
  exact all n small

theorem scan_escape (reversed : List Char) (c : Char) :
    Lexeme.scan before (.quoted ⟨reversed, none, true⟩) (escape c ++ rest) =
      Lexeme.scan before (.quoted ⟨c :: reversed, none, true⟩) rest := by
  unfold escape
  split
  -- a short escape is read in two steps; any other character is a control or stands for itself
  all_goals try rfl
  split
  next quote backslash _ _ _ _ _ control =>
    have high := hexDigit?_hexDigit (n := c.toNat / 16) (by omega)
    have low := hexDigit?_hexDigit (n := c.toNat % 16) (by omega)
    have value : c.toNat / 16 * 16 + c.toNat % 16 = c.toNat := by omega
    have zero : hexDigit? '0' = some 0 := rfl
    have unit : Quoted.pushUnit ⟨reversed, none, true⟩ c.toNat = ⟨c :: reversed, none, true⟩ := by
      rw [Quoted.pushUnit, if_neg (by omega), if_neg (by omega), Char.ofNat_toNat]
      rfl
    simp [Lexeme.scan, Lexeme.step, zero, high, low, value, unit]
  next quote backslash _ _ _ _ _ plain =>
    have notQuote : c ≠ '"' := fun same => quote same
    have notBackslash : c ≠ '\\' := fun same => backslash same
    simp [Lexeme.scan, Lexeme.step, notQuote, notBackslash, plain, Quoted.push, Quoted.settle]

theorem scans_quote (s : String) : Scans Anything (quote s).toList [.atom (.text s)] := by
  have chars (cs reversed : List Char) (before : List Token) (rest : List Char) :
      Lexeme.scan before (.quoted ⟨reversed, none, true⟩) (cs.flatMap escape ++ rest) =
        Lexeme.scan before (.quoted ⟨cs.reverse ++ reversed, none, true⟩) rest := by
    induction cs generalizing reversed with
    | nil => rfl
    | cons c cs ih => simp [scan_escape, ih]
  intro before rest _
  have spelled : (quote s).toList = '"' :: (s.toList.flatMap escape ++ ['"']) := by
    simp [quote, String.toList_append]
  rw [spelled, List.cons_append, List.append_assoc]
  change Lexeme.scan before (.quoted ⟨[], none, true⟩) _ = _
  rw [chars]
  change Lexeme.scan (.atom (.text (String.ofList (s.toList.reverse ++ []).reverse)) :: before)
    .between rest = _
  simp

/-! ## Lists of texts -/

namespace Scans

theorem intercalate {texts : List String} {pieces : List (List Token)}
    (each : List.Forall₂ (fun text piece => Scans Ends text.toList piece) texts pieces) :
    Scans Ends (String.intercalate "," texts).toList ([Token.comma].intercalate pieces) := by
  induction each with
  | nil => exact fun _ _ _ => rfl
  | @cons text piece texts pieces first others ih =>
    cases others with
    | nil => simpa using first
    | cons second others =>
      have comma : Scans Anything ",".toList [.comma] := mark fun _ => rfl
      rw [String.intercalate_cons_cons, String.toList_append, String.toList_append,
        List.intercalate_cons_cons]
      exact (first.append comma fun _ _ => ends_cons (by decide)).cons ih

/-- Texts, each on its line, between an opening and a closing mark. -/
theorem enclosed (opening closing : Char) {first last : Token}
    (opens : ∀ before, Lexeme.start before opening = some (first :: before, .between))
    (closes : ∀ before, Lexeme.start before closing = some (last :: before, .between))
    {texts : List String} {pieces : List (List Token)}
    (each : List.Forall₂ (fun text piece => Scans Ends text.toList piece) texts pieces)
    (level : Nat) :
    Scans Ends
      ([opening] ++ ((String.intercalate "," texts).toList ++
        ((Json.newLine level).toList ++ [closing])))
      ([first] ++ ([Token.comma].intercalate pieces ++ [last])) := by
  have close : Scans Ends ((Json.newLine level).toList ++ [closing]) [last] :=
    (newLine level).cons (mark closes).weaken
  refine (mark opens).cons ((intercalate each).append close fun rest _ => ?_)
  rw [Json.newLine, String.toList_append]
  exact ends_cons (by decide)

end Scans

end Json

end Caseload
