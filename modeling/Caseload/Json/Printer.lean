import Caseload.Json.Basic

/-!
# Printing JSON values

`pretty` prints a value with an item or entry on each line, indented by two blanks for each level.
Strings escape the quote, the backslash and the controls below U+0020, and nothing else.
-/

namespace Caseload.Json

def hexDigit (n : Nat) : Char :=
  Char.ofNat (if n < 10 then 0x30 + n else 0x57 + n)

/-- The characters that stand for one character inside a string. -/
def escape (c : Char) : List Char :=
  match c with
  | '"' => ['\\', '"']
  | '\\' => ['\\', '\\']
  | '\x08' => ['\\', 'b']
  | '\x0c' => ['\\', 'f']
  | '\n' => ['\\', 'n']
  | '\r' => ['\\', 'r']
  | '\t' => ['\\', 't']
  | _ =>
    if c.toNat < 0x20 then
      ['\\', 'u', '0', '0', hexDigit (c.toNat / 16), hexDigit (c.toNat % 16)]
    else
      [c]

/-- A text as a string of JSON. -/
def quote (s : String) : String :=
  "\"" ++ String.ofList (s.toList.flatMap escape) ++ "\""

/-- A value without parts.  A string that is no text is printed as the replacement character. -/
def atomText : Json → String
  | .null => "null"
  | .bool true => "true"
  | .bool false => "false"
  | .integer n => toString n
  | .decimal spelling => spelling
  | .text s => quote s
  | .unpaired => quote "\ufffd"
  | .array _ => "[]"
  | .object _ => "\x7b\x7d"

/-- A key as a string of JSON. -/
def keyText : Option String → String
  | some key => quote key
  | none => quote "\ufffd"

/-- The start of a line at some level. -/
def newLine (level : Nat) : String :=
  "\n" ++ String.ofList (List.replicate (2 * level) ' ')

mutual

/-- Prints a value whose own line stands at some level. -/
def prettyAt (level : Nat) : Json → String
  | .array [] => "[]"
  | .array (v :: rest) =>
    "[" ++ String.intercalate "," (prettyItems (level + 1) (v :: rest)) ++ newLine level ++ "]"
  | .object [] => "\x7b\x7d"
  | .object (e :: rest) =>
    "\x7b" ++ String.intercalate "," (prettyEntries (level + 1) (e :: rest)) ++ newLine level
      ++ "\x7d"
  | v => atomText v

/-- Prints the items of a list, each on its line. -/
def prettyItems (level : Nat) : List Json → List String
  | [] => []
  | v :: rest => (newLine level ++ prettyAt level v) :: prettyItems level rest

/-- Prints the entries of an object, each on its line. -/
def prettyEntries (level : Nat) : List (Option String × Json) → List String
  | [] => []
  | (key, v) :: rest =>
    (newLine level ++ keyText key ++ ": " ++ prettyAt level v) :: prettyEntries level rest

end

/-- Prints a value with one item or entry on each line. -/
def pretty (v : Json) : String :=
  prettyAt 0 v

end Caseload.Json
