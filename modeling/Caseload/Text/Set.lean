import Std.Data.ExtTreeMap
import Std.Data.ExtTreeSet

/-!
# Sets and maps of texts

Finite sets of texts, and maps between texts, that are equal when they hold the same members.
They list themselves in the order of code points, so a set has one written form.
-/

namespace Caseload

/-- A finite set of texts; `toList` lists it by code points, each member once. -/
abbrev TextSet :=
  Std.ExtTreeSet String

/-- A finite map from texts to texts; `toList` lists it by the code points of the keys. -/
abbrev TextMap :=
  Std.ExtTreeMap String String

end Caseload
