import Caseload.Proofs.Sql.Reading
import Caseload.Proofs.Sql.Selection

/-!
# From tokens to selections

What stands in brackets is read first and becomes one item among the tokens around it.  The items of
one level are then split at what binds loosest: `OR` before `AND`, `AND` before `IS NULL`, that
before `=`, and `=` before any other operator.  Neither `IS NULL` nor `=` is read twice in a row
without brackets.

`Reads` relates tokens to the items that they become wherever they stand, so that the items of a
statement are found piece by piece.
-/

namespace Caseload.Sql

/-- What can stand in brackets. -/
inductive Content
  | expression (e : Expr)
  | distinct (name : Name)
  | rows (source : Source) (condition : Expr)

/-- A token, or something in brackets. -/
inductive Item
  | token (t : Token)
  | bracket (content : Content)

namespace Item

/-- Whether an item is a token that does not stand in brackets. -/
def is (t : Token) : Item → Bool
  | token u => u = t
  | bracket _ => false

/-- The items before a token and, if it is there, those after it.  It must not be there twice. -/
def cut? (t : Token) (items : List Item) : Option (List Item × Option (List Item)) :=
  match items.splitOnP (is t) with
  | [before] => some (before, none)
  | [before, after] => some (before, some after)
  | _ => none

end Item

/-! ## Expressions -/

def connectiveWord : Connective → String
  | .conjunction => "AND"
  | .disjunction => "OR"

def Name.ofItems? : List Item → Option Name
  | [.token (.word row), .token (.mark "."), .token (.word column)] => some ⟨row, column⟩
  | _ => none

namespace Expr

def ofOperand? : List Item → Option Expr
  | [.token (.bind v)] => some (value v)
  | [.token (.number n)] => some (value (.integer n))
  | [.token (.word "TRUE")] => some (value (.boolean true))
  | [.token (.word "FALSE")] => some (value (.boolean false))
  | [.token (.word "cardinality"), .bracket (.expression list)] => some (cardinality list)
  | [.token (.word "EXISTS"), .bracket (.rows source condition)] =>
    some (existsRow source condition)
  | [.bracket (.expression e)] => some e
  | items => (Name.ofItems? items).map column

def ofOverlap? (items : List Item) : Option Expr := do
  match ← Item.cut? (.mark "&&") items with
  | (left, none) => ofOperand? left
  | (left, some right) => return overlaps (← ofOperand? left) (← ofOperand? right)

def ofEquality? (items : List Item) : Option Expr := do
  match ← Item.cut? (.mark "=") items with
  | (left, none) => ofOverlap? left
  | (left, some [.token (.word "ANY"), .bracket (.expression list)]) =>
    return equalsAny (← ofOverlap? left) list
  | (left, some right) => return equals (← ofOverlap? left) (← ofOverlap? right)

def ofTest? (items : List Item) : Option Expr := do
  match ← Item.cut? (.word "IS") items with
  | (left, none) => ofEquality? left
  | (left, some [.token (.word "NULL")]) => return isNull (← ofEquality? left)
  | _ => none

/-- The parts between the words of a connective, joined by it. -/
def ofGroup? (c : Connective) (part : List Item → Option Expr) (items : List Item) :
    Option Expr := do
  return ofParts c (← (items.splitOnP (Item.is (.word (connectiveWord c)))).mapM part)

def ofItems? : List Item → Option Expr :=
  ofGroup? .disjunction (ofGroup? .conjunction ofTest?)

end Expr

/-! ## Brackets -/

def Content.ofItems? : List Item → Option Content
  | .token (.word "SELECT") :: .token (.number _) :: .token (.word "FROM") ::
      .token (.word table) :: .token (.word shortName) :: .token (.word "WHERE") :: condition =>
    (Expr.ofItems? condition).map (.rows ⟨table, shortName⟩)
  | .token (.word "DISTINCT") :: name => (Name.ofItems? name).map .distinct
  | items => (Expr.ofItems? items).map .expression

/-- Reads tokens after some items.  The items of each bracket that is open are read up to where it
opens. -/
def Item.read? (outer : List (List Item)) (items : List Item) : List Token → Option (List Item)
  | [] => if outer.isEmpty then some items else none
  | t :: rest =>
    if t = .blank then read? outer items rest
    else if t = Token.opening then read? (items :: outer) [] rest
    else if t = Token.closing then
      match outer with
      | [] => none
      | before :: outer => do read? outer (before ++ [bracket (← Content.ofItems? items)]) rest
    else read? outer (items ++ [token t]) rest

/-! ## Selections -/

def Output.ofItems? : List Item → Option Output
  | [.token (.word "COUNT"), .bracket (.distinct name)] => some (.countDistinct name)
  | items => ((items.splitOnP (Item.is (.mark ","))).mapM Name.ofItems?).map .columns

def Source.ofItems? : List Item → Option Source
  | [.token (.word table), .token (.word shortName)] => some ⟨table, shortName⟩
  | _ => none

/-- A table with the condition on which its rows are joined. -/
def Source.ofJoin? (items : List Item) : Option (Source × Expr) := do
  match ← Item.cut? (.word "ON") items with
  | (source, some condition) => return (← ofItems? source, ← Expr.ofItems? condition)
  | _ => none

namespace SortTerm

def collation? : List Item → Option String × List Item
  | .token (.word "COLLATE") :: .token (.quoted name) :: rest => (some name, rest)
  | rest => (none, rest)

def direction? : List Item → Option SortDirection × List Item
  | .token (.word "ASC") :: rest => (some .ascending, rest)
  | .token (.word "DESC") :: rest => (some .descending, rest)
  | rest => (none, rest)

def nullsLast? : List Item → Option Bool
  | [] => some false
  | [.token (.word "NULLS"), .token (.word "LAST")] => some true
  | _ => none

def ofItems? (items : List Item) : Option SortTerm := do
  let name ← Name.ofItems? (items.take 3)
  let (collation, rest) := collation? (items.drop 3)
  let (direction, rest) := direction? rest
  return { name, collation, direction, nullsLast := ← nullsLast? rest }

/-- The terms after `ORDER`. -/
def listOfItems? : List Item → Option (List SortTerm)
  | .token (.word "BY") :: terms => (terms.splitOnP (Item.is (.mark ","))).mapM ofItems?
  | _ => none

end SortTerm

namespace Select

/-- The numbers after `LIMIT`. -/
def page? : List Item → Option (Value × Value)
  | [.token (.bind limit), .token (.word "OFFSET"), .token (.bind offset)] => some (limit, offset)
  | _ => none

/-- The items between `FROM` and `WHERE`. -/
def sources? (items : List Item) : Option (Source × Option (Source × Expr)) := do
  let (source, join) ← Item.cut? (.word "JOIN") items
  return (← Source.ofItems? source, ← join.mapM Source.ofJoin?)

/-- The items after `SELECT`, up to the order. -/
def body? (items : List Item) (order : List SortTerm) (page : Option (Value × Value)) :
    Option Select := do
  let (head, some condition) ← Item.cut? (.word "WHERE") items | none
  let (output, some sources) ← Item.cut? (.word "FROM") head | none
  let (source, join) ← sources? sources
  return {
    output := ← Output.ofItems? output
    source
    join
    condition := ← Expr.ofItems? condition
    order
    page }

def ofItems? (items : List Item) : Option Select := do
  let (items, page) ← Item.cut? (.word "LIMIT") items
  let (items, order) ← Item.cut? (.word "ORDER") items
  match items with
  | .token (.word "SELECT") :: rest =>
    body? rest ((← order.mapM SortTerm.listOfItems?).getD []) (← page.mapM page?)
  | _ => none

/-- The selection that a text with these values is. -/
def ofText? (text : String) (values : List Value) : Option Select := do
  ofItems? (← Item.read? [] [] (← Token.read? values text))

end Select

/-! ## Items of a level -/

theorem splitOnP_intercalate {α : Type} {p : α → Bool} {s : α} (separates : p s = true)
    {pieces : List (List α)} (nonempty : pieces ≠ [])
    (free : ∀ piece ∈ pieces, ∀ a ∈ piece, p a = false) :
    (List.intercalate [s] pieces).splitOnP p = pieces := by
  match pieces with
  | [] => contradiction
  | [piece] => simpa using List.splitOnP_eq_singleton (free piece (.head _))
  | piece :: next :: rest =>
    obtain ⟨first, others⟩ := List.forall_mem_cons.mp free
    rw [List.intercalate_cons_cons, List.append_assoc, List.singleton_append,
      List.splitOnP_append_cons_of_forall_mem first s separates,
      splitOnP_intercalate separates (by simp) others]

theorem forall_mem_intercalate {α : Type} {p : α → Prop} {between : List α} {pieces : List (List α)}
    (inBetween : ∀ a ∈ between, p a) (inPieces : ∀ piece ∈ pieces, ∀ a ∈ piece, p a) :
    ∀ a ∈ List.intercalate between pieces, p a := by
  match pieces with
  | [] => simp [List.intercalate]
  | [piece] => simpa using inPieces
  | piece :: next :: rest =>
    obtain ⟨first, others⟩ := List.forall_mem_cons.mp inPieces
    rw [List.intercalate_cons_cons, List.forall_mem_append, List.forall_mem_append]
    exact ⟨⟨first, inBetween⟩, forall_mem_intercalate inBetween others⟩

/-- A relation that appending keeps is kept by putting pieces together as well. -/
theorem rel_intercalate {α β : Type} {rel : List α → List β → Prop} (nil : rel [] [])
    (append : ∀ {a b : List α} {c d : List β}, rel a c → rel b d → rel (a ++ b) (c ++ d))
    {between : List α} {others : List β} (joins : rel between others) {pieces : List (List α)}
    {parts : List (List β)} (each : List.Forall₂ rel pieces parts) :
    rel (List.intercalate between pieces) (List.intercalate others parts) := by
  induction each with
  | nil => exact nil
  | cons first rest ih =>
    cases rest with
    | nil => simpa using first
    | cons next rest =>
      rw [List.intercalate_cons_cons, List.intercalate_cons_cons]
      exact append (append first joins) ih

theorem intercalate_nil_left {α : Type} (pieces : List (List α)) :
    List.intercalate [] pieces = pieces.flatten := by
  induction pieces with
  | nil => rfl
  | cons piece rest ih => cases rest <;> simp_all [List.intercalate_cons_cons]

namespace Item

variable {t : Token} {items before after : List Item}

theorem is_token : (token t).is t = true :=
  decide_eq_true rfl

theorem cut?_of_free (free : ∀ i ∈ items, i.is t = false) : cut? t items = some (items, none) := by
  simp [cut?, List.splitOnP_eq_singleton free]

theorem cut?_append (freeBefore : ∀ i ∈ before, i.is t = false)
    (freeAfter : ∀ i ∈ after, i.is t = false) :
    cut? t (before ++ token t :: after) = some (before, some after) := by
  simp [cut?, List.splitOnP_append_cons_of_forall_mem freeBefore _ is_token,
    List.splitOnP_eq_singleton freeAfter]

end Item

/-- The words at which the items of a level are split. -/
def keywords : List String :=
  ["SELECT", "DISTINCT", "FROM", "JOIN", "ON", "WHERE", "ORDER", "LIMIT", "OR", "AND", "IS"]

/-- Whether items may be split at an item. -/
def Item.splits : Item → Bool
  | token (.word name) => keywords.contains name
  | _ => false

/-- Items that are not split. -/
def Free (items : List Item) : Prop :=
  ∀ i ∈ items, i.splits = false

instance (items : List Item) : Decidable (Free items) :=
  inferInstanceAs (Decidable (∀ i ∈ items, i.splits = false))

theorem Free.not_is {items : List Item} (free : Free items) {k : String} (mem : k ∈ keywords) :
    ∀ i ∈ items, i.is (.word k) = false := by
  intro i inItems
  by_contra same
  obtain rfl : i = .token (.word k) := by cases i <;> simp_all [Item.is]
  simpa [Item.splits, mem] using free _ inItems

theorem Free.append {before after : List Item} (freeBefore : Free before) (freeAfter : Free after) :
    Free (before ++ after) :=
  List.forall_mem_append.mpr ⟨freeBefore, freeAfter⟩

/-! ## Reading conditions -/

namespace Expr

theorem ofGroup?_intercalate {c : Connective} {part : List Item → Option Expr}
    {parts : List (List Item)} (nonempty : parts ≠ []) (free : ∀ items ∈ parts, Free items)
    {es : List Expr} (each : List.Forall₂ (fun items e => part items = some e) parts es) :
    ofGroup? c part (List.intercalate [.token (.word (connectiveWord c))] parts) =
      some (ofParts c es) := by
  have mem : connectiveWord c ∈ keywords := by cases c <;> decide
  rw [ofGroup?, splitOnP_intercalate Item.is_token nonempty
    (fun items inParts => (free items inParts).not_is mem), mapM_eq_some_of_forall₂ each]
  rfl

/-- A part in which the word of a connective does not occur is a group of one part. -/
theorem ofGroup?_of_free {c : Connective} {part : List Item → Option Expr} {items : List Item}
    (free : ∀ i ∈ items, i.is (.word (connectiveWord c)) = false) {e : Expr}
    (reads : part items = some e) : ofGroup? c part items = some e := by
  simp [ofGroup?, List.splitOnP_eq_singleton free, reads, ofParts]

/-- Parts that are joined by the word of a connective are read as their group. -/
theorem ofItems?_intercalate {c : Connective} {parts : List (List Item)} (nonempty : parts ≠ [])
    (free : ∀ items ∈ parts, Free items) {es : List Expr}
    (each : List.Forall₂ (fun items e => ofTest? items = some e) parts es) :
    ofItems? (List.intercalate [.token (.word (connectiveWord c))] parts) =
      some (ofParts c es) := by
  cases c with
  | conjunction =>
    -- no part is split by the word that binds looser, nor is what joins them
    refine ofGroup?_of_free (forall_mem_intercalate (by decide) fun items inParts => ?_)
      (ofGroup?_intercalate nonempty free each)
    exact (free items inParts).not_is (by decide)
  | disjunction =>
    -- each part is a conjunction of one
    have single : List.Forall₂ (fun items e => Free items ∧ ofTest? items = some e) parts es :=
      (List.forall₂_and_left _ _).mpr ⟨free, each⟩
    refine ofGroup?_intercalate nonempty free (single.imp fun items e part => ?_)
    exact ofGroup?_of_free (part.1.not_is (by decide)) part.2

end Expr

/-! ## Reading brackets -/

theorem Content.ofItems?_expression {items : List Item}
    (noSelect : ∀ i ∈ items, i.is (.word "SELECT") = false)
    (noDistinct : ∀ i ∈ items, i.is (.word "DISTINCT") = false) {e : Expr}
    (reads : Expr.ofItems? items = some e) : ofItems? items = some (.expression e) := by
  unfold ofItems?
  split
  · simp [Item.is] at noSelect
  · simp [Item.is] at noDistinct
  · rw [reads]
    rfl

/-- Tokens become some items wherever they stand. -/
def Reads (ts : List Token) (items : List Item) : Prop :=
  ∀ outer before rest,
    Item.read? outer before (ts ++ rest) = Item.read? outer (before ++ items) rest

namespace Reads

variable {ts us : List Token} {items others : List Item}

theorem nil : Reads [] [] := by
  intro outer before rest
  simp

theorem append (left : Reads ts items) (right : Reads us others) :
    Reads (ts ++ us) (items ++ others) := by
  intro outer before rest
  rw [List.append_assoc, left, right, List.append_assoc]

theorem blank : Reads [.blank] [] := by
  intro outer before rest
  simp [Item.read?]

theorem token {t : Token} (plain : t ≠ .blank ∧ t ≠ Token.opening ∧ t ≠ Token.closing) :
    Reads [t] [.token t] := by
  intro outer before rest
  obtain ⟨notBlank, notOpening, notClosing⟩ := plain
  simp [Item.read?, notBlank, notOpening, notClosing]

theorem word {name : String} : Reads [.word name] [.token (.word name)] :=
  token (by simp [Token.opening, Token.closing])

theorem bind {v : Value} : Reads [.bind v] [.token (.bind v)] :=
  token (by simp [Token.opening, Token.closing])

/-- Items that are read to some content stand for it in brackets. -/
theorem bracketed (reads : Reads ts items) {content : Content}
    (found : Content.ofItems? items = some content) :
    Reads (Token.bracketed ts) [.bracket content] := by
  intro outer before rest
  calc Item.read? outer before (Token.bracketed ts ++ rest)
    _ = Item.read? (before :: outer) [] (ts ++ Token.closing :: rest) := by
      simp [Token.bracketed, Item.read?, Token.opening]
    _ = Item.read? (before :: outer) items (Token.closing :: rest) := reads _ _ _
    _ = Item.read? outer (before ++ [.bracket content]) rest := by
      simp [Item.read?, Token.opening, Token.closing, found]

theorem intercalate {between : List Token} {betweenItems : List Item}
    (reads : Reads between betweenItems) {pieces : List (List Token)} {parts : List (List Item)}
    (each : List.Forall₂ Reads pieces parts) :
    Reads (List.intercalate between pieces) (List.intercalate betweenItems parts) :=
  rel_intercalate nil append reads each

theorem spaced {pieces : List (List Token)} {parts : List (List Item)}
    (each : List.Forall₂ Reads pieces parts) : Reads (Token.spaced pieces) parts.flatten := by
  rw [← intercalate_nil_left]
  exact intercalate blank each

theorem commas {pieces : List (List Token)} {parts : List (List Item)}
    (each : List.Forall₂ Reads pieces parts) :
    Reads (Token.commas pieces) (List.intercalate [.token (.mark ",")] parts) :=
  intercalate ((token (by decide)).append blank) each

theorem words {names : List String} :
    Reads (Token.words names) (names.map fun name => .token (.word name)) := by
  rw [List.map_eq_flatMap, List.flatMap_def]
  exact spaced (forall₂_map fun name _ => word)

theorem read?_eq (reads : Reads ts items) : Item.read? [] [] ts = some items := by
  simpa [Item.read?] using reads [] [] []

end Reads

/-! ## Reading selections -/

namespace Select

section

variable {output sources condition : List Item} {order : List SortTerm}
  {page : Option (Value × Value)} {shown : Output} {source : Source}
  {join : Option (Source × Expr)} {e : Expr}

/-- The items up to the order. -/
def bodyItems (output sources condition : List Item) : List Item :=
  .token (.word "SELECT") ::
    (output ++ .token (.word "FROM") :: sources ++ .token (.word "WHERE") :: condition)

/-- The items for a page, which come last. -/
def pageItems : Option (Value × Value) → List Item
  | none => []
  | some (limit, offset) =>
    [.token (.word "LIMIT"), .token (.bind limit), .token (.word "OFFSET"), .token (.bind offset)]

/-- The pieces that the items up to the order are cut into, and what they are read to. -/
structure Body (output sources condition : List Item) (shown : Output) (source : Source)
    (join : Option (Source × Expr)) (e : Expr) : Prop where
  freeOutput : Free output
  freeSources : ∀ k ∈ ["FROM", "WHERE", "ORDER", "LIMIT"], ∀ i ∈ sources, i.is (.word k) = false
  freeCondition : Free condition
  readsOutput : Output.ofItems? output = some shown
  readsSources : sources? sources = some (source, join)
  readsCondition : Expr.ofItems? condition = some e

namespace Body

theorem not_is (body : Body output sources condition shown source join e) {k : String}
    (mem : k ∈ ["ORDER", "LIMIT"]) :
    ∀ i ∈ bodyItems output sources condition, i.is (.word k) = false := by
  have keyword : k ∈ keywords := by
    revert k
    decide
  have others : ∀ w ∈ ["SELECT", "FROM", "WHERE"],
      (Item.token (.word w)).is (.word k) = false := by
    revert k
    decide
  simp only [bodyItems, List.forall_mem_append, List.forall_mem_cons]
  exact ⟨others _ (by decide),
    ⟨body.freeOutput.not_is keyword, others _ (by decide),
      body.freeSources k (.tail _ (.tail _ mem))⟩,
    others _ (by decide), body.freeCondition.not_is keyword⟩

theorem body?_eq (body : Body output sources condition shown source join e) :
    body? (output ++ .token (.word "FROM") :: sources ++ .token (.word "WHERE") :: condition)
        order page =
      some { output := shown, source, join, condition := e, order, page } := by
  have freeHead : ∀ i ∈ output ++ .token (.word "FROM") :: sources, i.is (.word "WHERE") = false :=
    List.forall_mem_append.mpr ⟨body.freeOutput.not_is (by decide),
      List.forall_mem_cons.mpr ⟨by decide, body.freeSources _ (by decide)⟩⟩
  have cutWhere := Item.cut?_append freeHead (body.freeCondition.not_is (k := "WHERE") (by decide))
  have cutFrom := Item.cut?_append (body.freeOutput.not_is (k := "FROM") (by decide))
    (body.freeSources _ (by decide))
  simp only [body?, cutWhere, cutFrom, Option.bind_eq_bind, Option.bind_some, body.readsSources,
    body.readsOutput, body.readsCondition]
  rfl

theorem ofItems?_eq (body : Body output sources condition shown source join e) :
    ofItems? (bodyItems output sources condition) =
      some { output := shown, source, join, condition := e, order := [], page := none } := by
  have unlimited := Item.cut?_of_free (body.not_is (k := "LIMIT") (by decide))
  have unordered := Item.cut?_of_free (body.not_is (k := "ORDER") (by decide))
  simp only [ofItems?, unlimited, unordered, Option.bind_eq_bind, Option.bind_some]
  exact body.body?_eq

theorem ofItems?_append (body : Body output sources condition shown source join e)
    {terms : List Item} (freeTerms : Free terms)
    (reads : SortTerm.listOfItems? (.token (.word "BY") :: terms) = some order)
    (page : Option (Value × Value)) :
    ofItems? (bodyItems output sources condition ++
        .token (.word "ORDER") :: .token (.word "BY") :: terms ++ pageItems page) =
      some { output := shown, source, join, condition := e, order, page } := by
  have freeOrder : Free (.token (.word "BY") :: terms) :=
    List.forall_mem_cons.mpr ⟨by decide, freeTerms⟩
  have freeOrdered : ∀ i ∈ Item.token (.word "ORDER") :: .token (.word "BY") :: terms,
      i.is (.word "LIMIT") = false :=
    List.forall_mem_cons.mpr ⟨rfl, freeOrder.not_is (by decide)⟩
  have freeLimit := List.forall_mem_append.mpr ⟨body.not_is (k := "LIMIT") (by decide), freeOrdered⟩
  have cutOrder := Item.cut?_append (body.not_is (k := "ORDER") (by decide))
    (freeOrder.not_is (by decide))
  cases page with
  | none =>
    rw [pageItems, List.append_nil]
    simp only [ofItems?, Item.cut?_of_free freeLimit, cutOrder, Option.bind_eq_bind,
      Option.bind_some]
    simp [reads]
    exact body.body?_eq
  | some page =>
    have freePage : ∀ i ∈ [Item.token (.bind page.1), .token (.word "OFFSET"),
        .token (.bind page.2)], i.is (.word "LIMIT") = false := by
      simp [Item.is]
    have cutLimit := Item.cut?_append freeLimit freePage
    simp only [pageItems, ofItems?, cutLimit, cutOrder, Option.bind_eq_bind, Option.bind_some]
    simp [reads, page?]
    exact body.body?_eq

end Body

end

end Select

end Caseload.Sql
