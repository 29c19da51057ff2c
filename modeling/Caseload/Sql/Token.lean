import Caseload.Sql.Value

/-!
# Statement texts

The text of a statement is a row of tokens.  A value never becomes part of the text: its token is
a placeholder, which is numbered by its place among the placeholders and carries the value that
is bound to it.
-/

namespace Caseload.Sql

/-- A piece of the text of a statement. -/
inductive Token
  /-- A keyword or the name of a table, a column or a function. -/
  | word (name : String)
  | quoted (name : String)
  | number (n : Nat)
  /-- A mark, such as a bracket. -/
  | mark (spelling : String)
  | blank
  | bind (value : Value)
  deriving DecidableEq

namespace Token

def opening : Token :=
  mark "("

def closing : Token :=
  mark ")"

/-- The pieces of a text when the next placeholder has a given number. -/
def spellFrom (next : Nat) : List Token → List String
  | [] => []
  | word name :: rest => name :: spellFrom next rest
  | quoted name :: rest => ("\"" ++ name ++ "\"") :: spellFrom next rest
  | number n :: rest => toString n :: spellFrom next rest
  | mark spelling :: rest => spelling :: spellFrom next rest
  | blank :: rest => " " :: spellFrom next rest
  | bind _ :: rest => ("$" ++ toString next) :: spellFrom (next + 1) rest

/-- The text of some tokens; placeholders are numbered from 1. -/
def spell (tokens : List Token) : String :=
  String.join (spellFrom 1 tokens)

/-- The values of the placeholders, in order. -/
def values (tokens : List Token) : List Value :=
  tokens.filterMap fun
    | bind v => some v
    | _ => none

/-! ## Putting tokens together -/

def spaced (pieces : List (List Token)) : List Token :=
  List.intercalate [blank] pieces

def commas (pieces : List (List Token)) : List Token :=
  List.intercalate [mark ",", blank] pieces

def words (names : List String) : List Token :=
  spaced (names.map fun name => [word name])

def bracketed (tokens : List Token) : List Token :=
  opening :: tokens ++ [closing]

/-- Pieces in brackets, set off from them by blanks. -/
def listed (pieces : List (List Token)) : List Token :=
  bracketed (blank :: commas pieces ++ [blank])

end Token

end Caseload.Sql
