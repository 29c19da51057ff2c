/-!
# Blanks

A blank is a character with the Unicode property White_Space.  Values that people type are
trimmed of blanks on both sides before they are read, and a value with nothing left counts as
not given at all.
-/

namespace Caseload.Text

/-- The characters of the Unicode property White_Space: six controls, the spaces, and the line
and paragraph separators. -/
def isBlank (c : Char) : Bool :=
  let n := c.toNat
  (0x09 ≤ n && n ≤ 0x0D) || n == 0x20 || n == 0x85 || n == 0xA0 || n == 0x1680 ||
    (0x2000 ≤ n && n ≤ 0x200A) || n == 0x2028 || n == 0x2029 || n == 0x202F || n == 0x205F ||
    n == 0x3000

def trimFront (cs : List Char) : List Char :=
  cs.dropWhile isBlank

def trimBack (cs : List Char) : List Char :=
  (trimFront cs.reverse).reverse

/-- Drops the blanks on both sides; blanks inside stay. -/
def trim (s : String) : String :=
  String.ofList (trimBack (trimFront s.toList))

/-- The trimmed text, unless nothing is left of it. -/
def nonBlank? (s : String) : Option String :=
  let t := trim s
  if t = "" then none else some t

/-- The trimmed texts of a list, without those of which nothing is left. -/
def nonBlanks (values : List String) : List String :=
  values.filterMap nonBlank?

end Caseload.Text
