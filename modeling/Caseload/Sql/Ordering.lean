import Caseload.Sql.Condition
import Caseload.Sort.Field
import Caseload.Sort.Order

/-!
# Orders of rows

Rows are listed by some terms, the first one first.  Text is compared by code points only if the
term says so, and where missing values go is said as well.
-/

namespace Caseload.Sql

/-- One term of an order. -/
structure OrderTerm where
  column : Column
  /-- Whether text is compared by code points, whatever the language of the database. -/
  byCodePoints : Bool
  direction : Option SortDirection
  /-- Whether missing values come last in either direction. -/
  nullsLast : Bool
  deriving DecidableEq, Repr

namespace OrderTerm

def directionTokens : SortDirection → List Token
  | .ascending => [.word "ASC"]
  | .descending => [.word "DESC"]

def tokens (term : OrderTerm) : List Token :=
  Token.spaced (
    [term.column.tokens] ++
    (if term.byCodePoints then [[.word "COLLATE"], [.quoted "C"]] else []) ++
    (term.direction.toList.map directionTokens) ++
    (if term.nullsLast then [Token.words ["NULLS", "LAST"]] else []))

def ofKey (k : SortKey) : OrderTerm where
  column := ⟨.tasks, k.field.column⟩
  byCodePoints := k.field.isText
  direction := some k.direction
  nullsLast := true

/-- The terms for an order of tasks: one for each key, and one for the id. -/
def ofOrder (order : SortOrder) : List OrderTerm :=
  order.keys.map ofKey ++ [⟨.taskId, true, some .ascending, false⟩]

end OrderTerm

def orderTokens (terms : List OrderTerm) : List Token :=
  Token.spaced [Token.words ["ORDER", "BY"], Token.commas (terms.map OrderTerm.tokens)]

end Caseload.Sql
