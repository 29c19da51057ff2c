import Caseload.Text.Blank

/-!
# Entries between commas

A text may list entries between commas; entries of blanks do not count.
-/

namespace Caseload.Text

/-- The pieces of a text between the occurrences of a character. -/
def pieces (separator : Char) : List Char → List (List Char)
  | [] => [[]]
  | c :: rest =>
    match pieces separator rest with
    | [] => [[c]]
    | first :: others => if c = separator then [] :: first :: others else (c :: first) :: others

/-- The entries that a text lists between commas, trimmed. -/
def entries (s : String) : List String :=
  nonBlanks ((pieces ',' s.toList).map String.ofList)

end Caseload.Text
