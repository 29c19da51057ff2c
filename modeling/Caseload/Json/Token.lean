import Caseload.Json.Basic
import Caseload.Text.Digits

/-!
# The tokens of a JSON document

A document is cut into brackets, separators and atoms, character by character.  `Lexeme` is what
has been read of the token under way, and `Lexeme.step` reads one more character.  Strings are
checked as strictly when they are used as when they are skipped, but for surrogates escaped
alone: these only keep a string from being a text.
-/

namespace Caseload.Json

/-- A token. -/
inductive Token
  /-- The bracket that opens a list. -/
  | openArray
  /-- The bracket that closes a list. -/
  | closeArray
  /-- The brace that opens an object. -/
  | openObject
  /-- The brace that closes an object. -/
  | closeObject
  /-- The separator of items and entries. -/
  | comma
  /-- The separator of a key and its value. -/
  | colon
  /-- A value without parts. -/
  | atom (value : Json)

/-! ## Numbers -/

/-- Drops one or more digits at the front. -/
def afterDigits? : List Char → Option (List Char)
  | c :: rest => if c.isDigit then some (rest.dropWhile Char.isDigit) else none
  | [] => none

/-- Drops a fraction at the front, if there is one. -/
def afterFraction? : List Char → Option (List Char)
  | '.' :: rest => afterDigits? rest
  | rest => some rest

/-- Drops an exponent at the front, if there is one. -/
def afterExponent? : List Char → Option (List Char)
  | e :: rest =>
    if e = 'e' ∨ e = 'E' then
      match rest with
      | '+' :: digits => afterDigits? digits
      | '-' :: digits => afterDigits? digits
      | digits => afterDigits? digits
    else
      some (e :: rest)
  | [] => some []

/-- Drops the whole part of a number at the front: zero alone, or digits that start with
another one. -/
def afterWhole? : List Char → Option (List Char)
  | '0' :: rest => some rest
  | rest => afterDigits? rest

/-- Drops a minus sign at the front, if there is one. -/
def afterSign : List Char → List Char
  | '-' :: rest => rest
  | rest => rest

/-- The number that `cs` spells, if `cs` is a whole number literal of JSON. -/
def number? (cs : List Char) : Option Json := do
  let unsigned := afterSign cs
  let afterInteger ← afterWhole? unsigned
  let rest ← afterExponent? (← afterFraction? afterInteger)
  if rest ≠ [] then
    none
  else if afterInteger = [] then
    let magnitude := Text.value unsigned
    if unsigned.length = cs.length then
      some (.integer magnitude)
    else if magnitude = 0 then
      some (.decimal (String.ofList cs))
    else
      some (.integer (-magnitude))
  else
    some (.decimal (String.ofList cs))

/-! ## Words -/

/-- The value that a bare word stands for. -/
def word? (letters : List Char) : Option Json :=
  if letters = ['n', 'u', 'l', 'l'] then some .null
  else if letters = ['t', 'r', 'u', 'e'] then some (.bool true)
  else if letters = ['f', 'a', 'l', 's', 'e'] then some (.bool false)
  else none

/-! ## Strings -/

/-- What has been read of a string: its characters, last one first, the first half of a
surrogate pair if the last escape was one, and whether some half stood alone. -/
structure Quoted where
  /-- The characters so far, last one first. -/
  reversed : List Char
  /-- The half that waits for its other half. -/
  high : Option Nat
  /-- Whether every half so far has found its other half. -/
  paired : Bool

namespace Quoted

/-- The string of which nothing has been read. -/
def empty : Quoted :=
  ⟨[], none, true⟩

/-- Gives up the half that still waits. -/
def settle (q : Quoted) : Quoted :=
  { q with high := none, paired := q.paired && q.high.isNone }

def push (q : Quoted) (c : Char) : Quoted :=
  let q := q.settle
  { q with reversed := c :: q.reversed }

/-- Adds an escaped unit of sixteen bits. -/
def pushUnit (q : Quoted) (unit : Nat) : Quoted :=
  if 0xD800 ≤ unit ∧ unit < 0xDC00 then
    { q.settle with high := some unit }
  else if 0xDC00 ≤ unit ∧ unit < 0xE000 then
    match q.high with
    | some high =>
      let c := Char.ofNat (0x10000 + (high - 0xD800) * 0x400 + (unit - 0xDC00))
      { q with reversed := c :: q.reversed, high := none }
    | none => { q with paired := false }
  else
    q.push (Char.ofNat unit)

/-- The string read so far as a value. -/
def finish (q : Quoted) : Json :=
  let q := q.settle
  if q.paired then .text (String.ofList q.reversed.reverse) else .unpaired

end Quoted

/-- The character that a short escape stands for. -/
def escaped? : Char → Option Char
  | '"' => some '"'
  | '\\' => some '\\'
  | '/' => some '/'
  | 'b' => some '\x08'
  | 'f' => some '\x0c'
  | 'n' => some '\n'
  | 'r' => some '\r'
  | 't' => some '\t'
  | _ => none

/-- The number that a hexadecimal digit stands for. -/
def hexDigit? (c : Char) : Option Nat :=
  if '0' ≤ c ∧ c ≤ '9' then some (c.toNat - '0'.toNat)
  else if 'a' ≤ c ∧ c ≤ 'f' then some (c.toNat - 'a'.toNat + 10)
  else if 'A' ≤ c ∧ c ≤ 'F' then some (c.toNat - 'A'.toNat + 10)
  else none

/-! ## Reading character by character -/

/-- The token under way. -/
inductive Lexeme
  /-- None: the last token is complete. -/
  | between
  /-- A bare word, its letters last one first. -/
  | word (reversed : List Char)
  /-- A number, its characters last one first. -/
  | number (reversed : List Char)
  /-- Inside a string. -/
  | quoted (q : Quoted)
  /-- Inside a string, after a backslash. -/
  | escape (q : Quoted)
  /-- Inside a string, in the digits of an escaped unit: how many are still to come, and what
  those read so far amount to. -/
  | unit (q : Quoted) (missing value : Nat)

namespace Lexeme

def isSpace (c : Char) : Bool :=
  c = ' ' || c = '\t' || c = '\n' || c = '\r'

def isNumeric (c : Char) : Bool :=
  c.isDigit || c = '-' || c = '+' || c = '.' || c = 'e' || c = 'E'

/-- Starts a token with its first character, given the tokens before it, last one first. -/
def start (tokens : List Token) (c : Char) : Option (List Token × Lexeme) :=
  match c with
  | '[' => some (.openArray :: tokens, between)
  | ']' => some (.closeArray :: tokens, between)
  | '{' => some (.openObject :: tokens, between)
  | '}' => some (.closeObject :: tokens, between)
  | ',' => some (.comma :: tokens, between)
  | ':' => some (.colon :: tokens, between)
  | '"' => some (tokens, quoted .empty)
  | _ =>
    if isSpace c then some (tokens, between)
    else if c = '-' || c.isDigit then some (tokens, number [c])
    else if c.isLower then some (tokens, word [c])
    else none

/-- Reads one character, given the tokens before it, last one first. -/
def step (tokens : List Token) (c : Char) : Lexeme → Option (List Token × Lexeme)
  | between => start tokens c
  | word letters =>
    if c.isLower then some (tokens, word (c :: letters))
    else do start (.atom (← word? letters.reverse) :: tokens) c
  | number chars =>
    if isNumeric c then some (tokens, number (c :: chars))
    else do start (.atom (← number? chars.reverse) :: tokens) c
  | quoted q =>
    if c = '"' then some (.atom q.finish :: tokens, between)
    else if c = '\\' then some (tokens, escape q)
    else if c.toNat < 0x20 then none
    else some (tokens, quoted (q.push c))
  | escape q =>
    if c = 'u' then some (tokens, unit q 4 0)
    else do some (tokens, quoted (q.push (← escaped? c)))
  | unit q missing value => do
    let value := value * 16 + (← hexDigit? c)
    if missing ≤ 1 then some (tokens, quoted (q.pushUnit value))
    else some (tokens, unit q (missing - 1) value)

/-- Ends the document, given the tokens before the end, last one first. -/
def finish (tokens : List Token) : Lexeme → Option (List Token)
  | between => some tokens.reverse
  | word letters => do some (.atom (← word? letters.reverse) :: tokens).reverse
  | number chars => do some (.atom (← number? chars.reverse) :: tokens).reverse
  | quoted _ | escape _ | unit _ _ _ => none

def scan (tokens : List Token) (lexeme : Lexeme) : List Char → Option (List Token)
  | [] => lexeme.finish tokens
  | c :: rest =>
    match lexeme.step tokens c with
    | none => none
    | some (tokens, lexeme) => scan tokens lexeme rest

end Lexeme

/-- The tokens of a document, unless some part of it is no token. -/
def tokens? (document : String) : Option (List Token) :=
  Lexeme.scan [] .between document.toList

end Caseload.Json
