import Caseload.Proofs.Sort.Order
import Caseload.Proofs.Sql.Listing
import Caseload.Proofs.Store.Assembly
import Mathlib.Data.List.Perm.Basic

/-!
# Role rows that match

Both stores list the role rows that satisfy a predicate by the ids of their tasks.  The rows of one
task come as they were saved from a store in memory, and by their names from a database.  So a
database has one way to list them (`gives_matching_iff`), which is the listing of the store in memory
with the rows of each task put in the order of their names, and the two are the same list exactly
where they were saved in that order (`rows_by_ids_and_names`).
-/

namespace Caseload

open Sql (Database OrderTerm Row Select Server Session SortTerm Statement rolesOf rowScope)

/-! ## Rows in the order of their names -/

namespace RoleRow

/-- The role rows in the order of their names. -/
def byName (rows : List RoleRow) : List RoleRow :=
  rows.mergeSort fun a b => (compare a.role b.role).isLE

variable {rows : List RoleRow}

theorem byName_perm (rows : List RoleRow) : (byName rows).Perm rows :=
  List.mergeSort_perm _ _

theorem pairwise_byName (distinct : (rows.map role).Nodup) :
    (byName rows).Pairwise fun a b => a.role < b.role := by
  have le : (byName rows).Pairwise fun a b => (compare a.role b.role).isLE = true := by
    apply List.pairwise_mergeSort
    · intro a b c ab bc
      exact Std.TransOrd.isLE_trans ab bc
    · intro a b
      rw [Std.OrientedOrd.eq_swap (a := b.role)]
      cases compare a.role b.role <;> rfl
  have ne : (byName rows).Pairwise fun a b => a.role ≠ b.role :=
    List.pairwise_map.mp (((byName_perm rows).map role).nodup_iff.mpr distinct)
  refine (le.and ne).imp fun ⟨le, ne⟩ => ?_
  obtain lt | same := Ordering.isLE_iff_eq_lt_or_eq_eq.mp le
  · exact compareOfLessAndEq_eq_lt.mp lt
  · exact absurd (Std.LawfulEqOrd.eq_of_compare same) ne

/-- There is one way to put rows in the order of their names, if these are different. -/
theorem eq_byName_of_perm {listed : List RoleRow} (perm : listed.Perm rows)
    (ordered : listed.Pairwise fun a b => a.role < b.role) : listed = byName rows := by
  have distinct : (rows.map role).Nodup :=
    (perm.map role).nodup_iff.mp (List.pairwise_map.mpr (ordered.imp String.ne_of_lt))
  refine (perm.trans (byName_perm rows).symm).eq_of_pairwise ?_ ordered (pairwise_byName distinct)
  intro a b _ _ ab ba
  exact absurd ba (String.lt_asymm ab)

/-- Rows with different names stay as they are just where they are in order. -/
theorem eq_byName_iff (distinct : (rows.map role).Nodup) :
    rows = byName rows ↔ rows.Pairwise fun a b => a.role < b.role := by
  refine ⟨fun same => ?_, fun ordered => eq_byName_of_perm (.refl rows) ordered⟩
  rw [same]
  exact pairwise_byName distinct

/-- Compares role rows, each with its task, by the ids of the tasks and then by their names. -/
def comparePaired (a b : Task × RoleRow) : Ordering :=
  (compare a.1.id b.1.id).then (compare a.2.role b.2.role)

instance : Std.TransCmp comparePaired :=
  inferInstanceAs (Std.TransCmp (compareLex (compareOn fun x : Task × RoleRow => x.1.id)
    (compareOn fun x : Task × RoleRow => x.2.role)))

theorem eq_of_comparePaired {a b : Task × RoleRow} (level : comparePaired a b = .eq) :
    a.1.id = b.1.id ∧ a.2.role = b.2.role := by
  obtain ⟨ids, names⟩ := Ordering.then_eq_eq.mp level
  exact ⟨Std.LawfulEqOrd.eq_of_compare ids, Std.LawfulEqOrd.eq_of_compare names⟩

end RoleRow

open RoleRow (byName comparePaired)

/-! ## The rows of tasks in order -/

theorem eq_of_flatMap_eq {α β : Type} {f g : α → List β} {items : List α}
    (same : items.flatMap f = items.flatMap g)
    (lengths : ∀ a ∈ items, (f a).length = (g a).length) :
    ∀ a ∈ items, f a = g a := by
  induction items with
  | nil => simp
  | cons a rest ih =>
    obtain ⟨first, others⟩ := List.forall_mem_cons.mp lengths
    obtain ⟨here, later⟩ := List.append_inj same first
    exact List.forall_mem_cons.mpr ⟨here, ih later others⟩

/-- No two role rows of a task have the same name. -/
def Task.NamesRows (t : Task) : Prop :=
  (t.roles.map RoleRow.role).Nodup

namespace Predicate

/-- The role rows that satisfy a predicate, each with its task, by the ids of the tasks and then by
their names. -/
def pairsInOrder (p : Predicate) (ts : List Task) : List (Task × RoleRow) :=
  (SortOrder.sort ⟨[]⟩ ts).flatMap fun t => (byName (p.matchingRows t)).map (t, ·)

/-- The role rows that satisfy a predicate, by the ids of the tasks and then by their names. -/
def rowsInOrder (p : Predicate) (ts : List Task) : List RoleRow :=
  (SortOrder.sort ⟨[]⟩ ts).flatMap fun t => byName (p.matchingRows t)

variable {p : Predicate} {ts : List Task}

theorem map_snd_pairsInOrder : (p.pairsInOrder ts).map Prod.snd = p.rowsInOrder ts := by
  simp [pairsInOrder, rowsInOrder, List.map_flatMap, Function.comp_def]

theorem nodup_names_matchingRows {t : Task} (named : t.NamesRows) :
    ((p.matchingRows t).map RoleRow.role).Nodup :=
  named.sublist (List.filter_sublist.map _)

theorem pairsInOrder_perm (p : Predicate) (ts : List Task) :
    (p.pairsInOrder ts).Perm ((rolesOf ts).filter fun x => p.holds x.1 x.2) := by
  have split : (rolesOf ts).filter (fun x => p.holds x.1 x.2) =
      ts.flatMap fun t => (p.matchingRows t).map (t, ·) := by
    simp only [rolesOf, List.filter_flatMap, List.filter_map]
    rfl
  rw [split]
  exact (SortOrder.sort_perm _ ts).flatMap fun t _ => (RoleRow.byName_perm _).map _

theorem pairwise_pairsInOrder (distinct : (ts.map Task.id).Nodup)
    (named : ∀ t ∈ ts, t.NamesRows) :
    (p.pairsInOrder ts).Pairwise fun a b => (comparePaired a b).isLE = true := by
  refine List.pairwise_flatMap.mpr ⟨fun t mem => ?_, ?_⟩
  · -- rows of one task are told apart by their names
    have names := RoleRow.pairwise_byName
      (nodup_names_matchingRows (p := p) (named t (SortOrder.mem_sort.mp mem)))
    refine List.pairwise_map.mpr (names.imp fun {a b} lt => ?_)
    have first : compare a.role b.role = .lt := compareOfLessAndEq_eq_lt.mpr lt
    simp [comparePaired, first]
  · refine (SortOrder.pairwise_before_sort _ distinct).imp fun {t u} before => ?_
    have ids : compare t.id u.id = .lt := before
    simp [comparePaired, ids]

/-- There is one way to list the rows that satisfy a predicate in this order. -/
theorem eq_pairsInOrder (distinct : (ts.map Task.id).Nodup) (named : ∀ t ∈ ts, t.NamesRows)
    {pairs : List (Task × RoleRow)}
    (perm : pairs.Perm ((rolesOf ts).filter fun x => p.holds x.1 x.2))
    (ordered : pairs.Pairwise fun a b => (comparePaired a b).isLE = true) :
    pairs = p.pairsInOrder ts := by
  have same := perm.trans (p.pairsInOrder_perm ts).symm
  refine same.eq_of_pairwise ?_ ordered (pairwise_pairsInOrder distinct named)
  intro a b inPairs inOrder ab ba
  -- rows that are level belong to one task and have one name there
  obtain ⟨ids, names⟩ := RoleRow.eq_of_comparePaired (Std.OrientedCmp.isLE_antisymm ab ba)
  obtain ⟨aTask, aRow⟩ := Sql.mem_rolesOf.mp (List.mem_of_mem_filter (perm.mem_iff.mp inPairs))
  obtain ⟨bTask, bRow⟩ := Sql.mem_rolesOf.mp
    (List.mem_of_mem_filter ((p.pairsInOrder_perm ts).mem_iff.mp inOrder))
  obtain ⟨t, row⟩ := a
  obtain ⟨u, other⟩ := b
  obtain rfl : t = u := List.inj_on_of_nodup_map distinct aTask bTask ids
  obtain rfl : row = other := List.inj_on_of_nodup_map (named t aTask) aRow bRow names
  rfl

/-- A store in memory lists the rows in this order just where the matching rows of each task were
saved in the order of their names. -/
theorem rows_eq_rowsInOrder_iff {s : MemoryStore} (named : ∀ t ∈ s.tasks, t.NamesRows) :
    s.rows p = p.rowsInOrder s.tasks ↔
      ∀ t ∈ s.tasks, (p.matchingRows t).Pairwise fun a b => a.role < b.role := by
  have each : (∀ t ∈ s.tasks, (p.matchingRows t).Pairwise fun a b => a.role < b.role) ↔
      ∀ t ∈ s.tasks, p.matchingRows t = byName (p.matchingRows t) :=
    forall₂_congr fun t mem =>
      (RoleRow.eq_byName_iff (nodup_names_matchingRows (named t mem))).symm
  rw [each]
  constructor
  · -- both lists give each task as many rows, so they are the same task by task
    intro same t mem
    refine eq_of_flatMap_eq same (fun u _ => ?_) t (SortOrder.mem_sort.mpr mem)
    exact (RoleRow.byName_perm _).length_eq.symm
  · intro sorted
    exact List.flatMap_congr fun t mem => sorted t (SortOrder.mem_sort.mp mem)

end Predicate

/-! ## The rows that a database lists -/

namespace Sql

variable (locale : String → String → Ordering)

theorem compare?_rowTerm (term : OrderTerm) (name : Task × RoleRow → String)
    (holds : ∀ x : Task × RoleRow, (rowScope x.1 x.1.id x.2).value? term.sortTerm.name =
      some (.text (name x)))
    (ascending : term.direction = none) (collated : term.byCodePoints = true)
    (a b : Task × RoleRow) :
    term.sortTerm.compare? locale (rowScope a.1 a.1.id a.2) (rowScope b.1 b.1.id b.2) =
      some (compare (name a) (name b)) := by
  simp only [SortTerm.compare?, holds, Option.bind_eq_bind, Option.bind_some]
  have text : (Value.text (name a)).compare? locale (some "C") (.text (name b)) =
      some (compare (name a) (name b)) :=
    agrees_text locale (name a) (name b)
  simpa [SortTerm.compareValues?, OrderTerm.sortTerm, ascending, collated] using text

/-- The terms that are written for role rows compare them by ids and then by names. -/
theorem compareAll?_rowTerms (a b : Task × RoleRow) :
    SortTerm.compareAll? locale (Statement.rowTerms.map OrderTerm.sortTerm)
      (rowScope a.1 a.1.id a.2) (rowScope b.1 b.1.id b.2) = some (comparePaired a b) := by
  have ids := compare?_rowTerm locale ⟨.rowTask, true, none, false⟩ (fun x => x.1.id)
    (fun _ => rfl) rfl rfl a b
  have names := compare?_rowTerm locale ⟨.rowRole, true, none, false⟩ (fun x => x.2.role)
    (fun _ => rfl) rfl rfl a b
  simp [SortTerm.compareAll?, Statement.rowTerms, ids, names, comparePaired]

/-- The selection for a predicate can give one list of rows. -/
theorem gives_matching_iff {db : Database} {ts : List Task} (stores : db.Stores ts)
    (named : ∀ t ∈ ts, t.NamesRows) (p : Predicate) {rows : List Row} :
    (Select.matching (.ofPredicate p) (Statement.rowTerms.map OrderTerm.sortTerm)).Gives locale db
        rows ↔
      rows = (p.pairsInOrder ts).map fun x => x.2.cells x.1.id := by
  obtain ⟨pairs, perm, kept⟩ := kept?_matching (p := p) stores
    (Statement.rowTerms.map OrderTerm.sortTerm)
  have ordered (pairs : List (Task × RoleRow)) :
      Select.Ordered locale (Statement.rowTerms.map OrderTerm.sortTerm)
        (pairs.map fun x => rowScope x.1 x.1.id x.2) ↔
      pairs.Pairwise fun a b => (comparePaired a b).isLE = true := by
    simp only [Select.Ordered, List.pairwise_map, compareAll?_rowTerms, Option.some.injEq,
      exists_eq_left']
  have shown (pairs : List (Task × RoleRow)) :
      (pairs.map fun x => rowScope x.1 x.1.id x.2).mapM
        (Scope.row? (roleColumns.map (⟨Select.roles.shortName, ·⟩))) =
      some (pairs.map fun x => x.2.cells x.1.id) :=
    mapM_map_eq_some fun _ _ => row?_roleColumns
  constructor
  · rintro ⟨names, scopes, arranged, output, found, reordered, inOrder, given⟩
    obtain rfl := Output.columns.inj output
    obtain rfl := Option.some.inj (kept.symm.trans found)
    obtain ⟨listed, samePerm, rfl⟩ := exists_perm_of_perm_map reordered
    obtain rfl := Predicate.eq_pairsInOrder stores.distinct named (samePerm.trans perm)
      ((ordered listed).mp inOrder)
    exact Option.some.inj (given.symm.trans (shown _))
  · rintro rfl
    refine ⟨_, _, (p.pairsInOrder ts).map fun x => rowScope x.1 x.1.id x.2, rfl, kept, ?_, ?_, ?_⟩
    · exact ((p.pairsInOrder_perm ts).trans perm.symm).map _
    · exact (ordered _).mpr (Predicate.pairwise_pairsInOrder stores.distinct named)
    · exact shown (p.pairsInOrder ts)

end Sql

namespace DatabaseStore

theorem mapM_ofRow_pairs (pairs : List (Task × RoleRow)) :
    (pairs.map fun x => x.2.cells x.1.id).mapM RoleRow.ofRow =
      .ok (pairs.map fun x => (x.1.id, x.2)) := by
  refine mapM_eq_ok_iff.mpr ?_
  rw [List.forall₂_map_left_iff, List.forall₂_map_right_iff, List.forall₂_same]
  exact fun x _ => RoleRow.ofRow_cells x.1.id x.2

/-- Rows that are given to a store are what it lists. -/
theorem run_rows_of_pairs {server : Server} {p : Predicate} {pairs : List (Task × RoleRow)}
    (given : server [] (.matchRows (.ofPredicate p)) =
      .ok (pairs.map fun x => x.2.cells x.1.id)) :
    (rows p).run.run server [] = ([.matchRows (.ofPredicate p)], .ok (pairs.map Prod.snd)) := by
  rw [rows, Session.run_bind_of_ok (Session.run_send_of_ok given),
    Session.run_bind_of_ok (run_readRows_of_ok (mapM_ofRow_pairs pairs)), List.map_map]
  rfl

/-- A database lists role rows by the ids of their tasks and then by their names.  The text that it
is sent for a predicate, read with the values that are bound to it, allows a single list of rows,
however the database compares text without a collation; and a store to which they are given lists
the rows that a store in memory with the same tasks lists, in the order of the tasks, but the rows
of each task by their names.  The two lists are the same just where the rows of each task that
satisfy the predicate were saved in the order of their names. -/
theorem rows_by_ids_and_names (s : MemoryStore) (db : Database) (stores : db.Stores s.tasks)
    (named : ∀ t ∈ s.tasks, t.NamesRows) (p : Predicate) :
    let statement := Statement.matchRows (.ofPredicate p)
    ∃ (select : Select) (answer : List Row),
      Select.ofText? statement.text statement.values = some select ∧
      (∀ (locale : String → String → Ordering) (given : List Row),
        select.Gives locale db given ↔ given = answer) ∧
      (∀ server : Server, server [] statement = .ok answer →
        (rows p).run.run server [] = ([statement], .ok (p.rowsInOrder s.tasks))) ∧
      (p.rowsInOrder s.tasks).Perm (s.rows p) ∧
      (s.rows p = p.rowsInOrder s.tasks ↔
        ∀ t ∈ s.tasks, (p.matchingRows t).Pairwise fun a b => a.role < b.role) := by
  refine ⟨_, _, Statement.ofText?_matchRows p,
    fun locale given => Sql.gives_matching_iff locale stores named p, fun server given => ?_, ?_,
    Predicate.rows_eq_rowsInOrder_iff named⟩
  · rw [run_rows_of_pairs given, Predicate.map_snd_pairsInOrder]
  · exact List.Perm.flatMap_left _ fun t _ => RoleRow.byName_perm _

/-- Two tasks have rows that were saved in the order of their names, and both stores list those that
allow viewing alike: those of the task `a` first, which was saved last. -/
theorem rows_alike_when_saved_by_names :
    let admin : RoleRow := { role := "admin", own := true }
    let clerk : RoleRow := { role := "clerk", read := true }
    let judge : RoleRow := { role := "judge", read := true, own := true }
    let b := { Task.bare "b" "review" .unassigned "IA" "1" "Asylum" with roles := [clerk, judge] }
    let a := { Task.bare "a" "decide" .assigned "IA" "2" "Asylum" with roles := [admin, judge] }
    let s : MemoryStore := (MemoryStore.empty.save b).save a
    let p : Predicate := .granted .read
    let statement := Statement.matchRows (.ofPredicate p)
    (Database.ofTasks s.tasks).Stores s.tasks ∧ (∀ t ∈ s.tasks, t.NamesRows) ∧
      s.rows p = [judge, clerk, judge] ∧
      ∃ (select : Select) (answer : List Row),
        Select.ofText? statement.text statement.values = some select ∧
        (∀ (locale : String → String → Ordering) (given : List Row),
          select.Gives locale (Database.ofTasks s.tasks) given ↔ given = answer) ∧
        ∀ server : Server, server [] statement = .ok answer →
          (rows p).run.run server [] = ([statement], .ok [judge, clerk, judge]) := by
  intro admin clerk judge b a s p statement
  have stores : (Database.ofTasks s.tasks).Stores s.tasks := Database.stores_ofTasks s.distinct
  have tasks : s.tasks = [b, a] := rfl
  have named : ∀ t ∈ s.tasks, t.NamesRows := by
    rw [tasks]
    simp only [List.forall_mem_cons, Task.NamesRows]
    decide
  have sorted : SortOrder.sort ⟨[]⟩ s.tasks = [a, b] := by
    have perm : [a, b].Perm s.tasks := tasks ▸ .swap b a []
    exact (SortOrder.eq_sort_of_pairwise_isLE _ perm s.distinct (by decide)).symm
  have listed : s.rows p = [judge, clerk, judge] := by
    rw [MemoryStore.rows, sorted]
    rfl
  obtain ⟨select, answer, read, gives, shown, -, same⟩ :=
    rows_by_ids_and_names s (Database.ofTasks s.tasks) stores named p
  have inOrder : ∀ t ∈ s.tasks, (p.matchingRows t).Pairwise fun x y => x.role < y.role := by
    rw [tasks]
    simp only [List.forall_mem_cons]
    decide
  rw [← same.mpr inOrder, listed] at shown
  exact ⟨stores, named, listed, select, answer, read, gives, shown⟩

/-- A task was saved with a row for judges before one for clerks.  A store in memory lists the two as
they were saved, and a database the other way round. -/
theorem rows_turned_round :
    let judge : RoleRow := { role := "judge", read := true }
    let clerk : RoleRow := { role := "clerk", read := true, own := true }
    let t := { Task.bare "1" "review" .unassigned "IA" "1" "Asylum" with roles := [judge, clerk] }
    let s : MemoryStore := MemoryStore.empty.save t
    let p : Predicate := .constant true
    let statement := Statement.matchRows (.ofPredicate p)
    (Database.ofTasks s.tasks).Stores s.tasks ∧ (∀ t ∈ s.tasks, t.NamesRows) ∧
      s.rows p = [judge, clerk] ∧
      ∃ (select : Select) (answer : List Row),
        Select.ofText? statement.text statement.values = some select ∧
        (∀ (locale : String → String → Ordering) (given : List Row),
          select.Gives locale (Database.ofTasks s.tasks) given ↔ given = answer) ∧
        (∀ server : Server, server [] statement = .ok answer →
          (rows p).run.run server [] = ([statement], .ok [clerk, judge])) ∧
        s.rows p ≠ [clerk, judge] := by
  intro judge clerk t s p statement
  have stores : (Database.ofTasks s.tasks).Stores s.tasks := Database.stores_ofTasks s.distinct
  have named : ∀ t ∈ s.tasks, t.NamesRows := by
    have tasks : s.tasks = [t] := rfl
    rw [tasks]
    exact List.forall_mem_singleton.mpr (by decide : (t.roles.map RoleRow.role).Nodup)
  have sorted : SortOrder.sort ⟨[]⟩ s.tasks = [t] :=
    List.perm_singleton.mp (SortOrder.sort_perm _ _)
  have listed : s.rows p = [judge, clerk] := by
    rw [MemoryStore.rows, sorted]
    rfl
  have names : [clerk, judge] = byName [judge, clerk] :=
    RoleRow.eq_byName_of_perm (.swap judge clerk []) (by decide)
  have pairs : p.pairsInOrder s.tasks = [(t, clerk), (t, judge)] := by
    rw [Predicate.pairsInOrder, sorted]
    change (byName [judge, clerk]).map (t, ·) ++ [] = _
    rw [← names]
    rfl
  refine ⟨stores, named, listed, _, _, Statement.ofText?_matchRows p,
    fun locale given => Sql.gives_matching_iff locale stores named p, fun server given => ?_, ?_⟩
  · rw [run_rows_of_pairs given, pairs]
    rfl
  · rw [listed]
    decide

end DatabaseStore

end Caseload
