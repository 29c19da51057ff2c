import Caseload.Proofs.Store.Asking
import Caseload.Proofs.Store.Assembly
import Caseload.Proofs.Store.Transaction
import Caseload.Proofs.Store.Wording

/-!
# What a search sends

A search counts, lists and loads role rows, in this order, and each of the three statements may be
the last one.  `Course` lists the ways in which that can go.  Whatever the server replies, a search
that asks at all takes one of them (`course_listPage`), and what it sends and how it ends is read
off them (`search_sends_in_stages`).
-/

namespace Caseload

open Sql (Condition OrderTerm Row Server Session Statement Table Token)

/-! ## Servers -/

namespace Sql.Server

variable {server : Server}

/-- The rows that the server replies with hold what their tables promise. -/
structure Conforms (server : Server) : Prop where
  tasks : ∀ {before condition order limit} {rows : List Row},
    server before (.listTasks condition order limit) = .ok rows →
      ∀ row ∈ rows, Table.tasks.Admits row
  roles : ∀ {before ids} {rows : List Row},
    server before (.loadRows ids) = .ok rows → ∀ row ∈ rows, Table.roles.Admits row

theorem Conforms.mono {other : Server} (conforms : server.Conforms)
    (answers : ∀ before s answer, other before s = .ok answer → server before s = .ok answer) :
    other.Conforms where
  tasks answered := conforms.tasks (answers _ _ _ answered)
  roles answered := conforms.roles (answers _ _ _ answered)

theorem conforms_giving {total : Int64} {rows roleRows : List Row}
    (admitted : ∀ row ∈ rows, Table.tasks.Admits row)
    (admittedRoles : ∀ row ∈ roleRows, Table.roles.Admits row) :
    (giving total rows roleRows).Conforms where
  tasks answered := Except.ok.inj answered ▸ admitted
  roles answered := Except.ok.inj answered ▸ admittedRoles

/-- Where all statements but the last one are accepted, only the last one can be refused. -/
theorem Accepts.eq_of_refused {start earlier before after : List Statement} {last s : Statement}
    {failure : StatementFailure} (accepts : server.Accepts start earlier)
    (split : earlier ++ [last] = before ++ s :: after)
    (refused : server (start ++ before) s = .error failure) :
    before = earlier ∧ s = last ∧ after = [] := by
  induction earlier generalizing start before with
  | nil =>
    cases before with
    | nil => simpa [eq_comm] using split
    | cons => simp at split
  | cons first earlier ih =>
    obtain ⟨⟨answer, accepted⟩, accepts⟩ := accepts
    cases before with
    | nil =>
      -- the first statement was accepted, so it cannot be the one that is refused
      obtain ⟨rfl, -⟩ := List.cons.inj split
      rw [List.append_nil] at refused
      cases accepted.symm.trans refused
    | cons t before =>
      obtain ⟨rfl, later⟩ := List.cons.inj split
      obtain ⟨rfl, rfl, rfl⟩ := ih accepts later (by simpa using refused)
      exact ⟨rfl, rfl, rfl⟩

end Sql.Server

namespace DatabaseStore

/-! ## The course of a search -/

section

variable (server : Server) (p : Predicate) (order : SortOrder) (w : Window)

/-- The server counts, and the page can be listed. -/
structure Counted (total : Int64) : Prop where
  counted : server [] (counting p) = .ok total
  countable : 0 ≤ total.toInt
  offset : w.offset ≤ maxSigned

/-- The server counts and lists a page. -/
structure Listed (total : Int64) (rows : List Row) : Prop extends Counted server p w total where
  listed : server [counting p] (listing p order w) = .ok rows

/-- The server counts and lists a page with the tasks of some ids. -/
structure Identified (total : Int64) (rows : List Row) (ids : List String) : Prop
    extends Listed server p order w total rows where
  some : rows ≠ []
  identified : rows.map (Row.get · "task_id") = ids.map .text

/-- How a search goes on that asks: the statements that it sends, and how it ends. -/
inductive Course : List Statement → Except Error (SearchResult Task) → Prop
  | countRefused {failure : StatementFailure}
      (refused : server [] (counting p) = .error failure) :
      Course [counting p] (.error (.statement .countTasks failure))
  | negative {total : Int64} (counted : server [] (counting p) = .ok total)
      (negative : total.toInt < 0) : Course [counting p] (.error (.negativeCount total))
  | beyond {total : Int64} (counted : server [] (counting p) = .ok total)
      (countable : 0 ≤ total.toInt) (beyond : maxSigned < w.offset) :
      Course [counting p] (.error .offsetTooLarge)
  | listRefused {total : Int64} {failure : StatementFailure} (counted : Counted server p w total)
      (refused : server [counting p] (listing p order w) = .error failure) :
      Course [counting p, listing p order w] (.error (.statement .listTasks failure))
  | nothing {total : Int64} (listed : Listed server p order w total []) :
      Course [counting p, listing p order w] (.ok ⟨[], total.toInt.toNat⟩)
  | rolesRefused {total : Int64} {rows : List Row} {ids : List String}
      {failure : StatementFailure} (identified : Identified server p order w total rows ids)
      (refused : server [counting p, listing p order w] (.loadRows ids) = .error failure) :
      Course [counting p, listing p order w, .loadRows ids]
        (.error (.statement .loadRoles failure))
  | rolesLoaded {total : Int64} {rows roleRows : List Row} {ids : List String}
      {found : Except Error (List Task)} (identified : Identified server p order w total rows ids)
      (loaded : server [counting p, listing p order w] (.loadRows ids) = .ok roleRows) :
      Course [counting p, listing p order w, .loadRows ids]
        (found.map (⟨·, total.toInt.toNat⟩))

end

variable {p : Predicate} {order : SortOrder} {w : Window} {server : Server}
  {before : List Statement}

theorem run_count_of_error {failure : StatementFailure}
    (refused : server before (counting p) = .error failure) :
    (count p).run.run server before =
      (before ++ [counting p], .error (.statement .countTasks failure)) :=
  Session.run_bind_of_error (Session.run_send_of_error refused)

theorem run_count_of_ok {total : Int64} (counted : server before (counting p) = .ok total) :
    (count p).run.run server before =
      (before ++ [counting p],
        if total.toInt < 0 then .error (.negativeCount total) else .ok total.toInt.toNat) := by
  refine (Session.run_bind_of_ok (Session.run_send_of_ok counted)).trans ?_
  split <;> rfl

theorem run_list_of_error {failure : StatementFailure} (reached : w.Reached)
    (offset : w.offset ≤ maxSigned)
    (refused : server before (listing p order w) = .error failure) :
    (list ⟨p, order, some w⟩).run.run server before =
      (before ++ [listing p order w], .error (.statement .listTasks failure)) := by
  rw [list, mapM_toLimit_eq_ok reached offset, Session.run_bind_of_ok (Session.run_liftExcept _)]
  exact Session.run_bind_of_error (Session.run_send_of_error refused)

theorem run_listPage_of_never (never : p.isNever = true) :
    (toTaskStore.listPage p order w).run.run server before = (before, .ok ⟨[], 0⟩) := by
  rw [TaskStore.listPage, if_pos never]
  rfl

/-- Where a search asks, it counts and lists. -/
theorem run_listPage (possible : p.isNever = false) :
    (toTaskStore.listPage p order w).run.run server before =
      (do
        let total ← count p
        let tasks ← list ⟨p, order, some w⟩
        return ⟨tasks, total⟩ : Session (SearchResult Task)).run.run server before := by
  rw [TaskStore.listPage, possible]
  rfl

theorem run_list_of_listed {rows : List Row} {stored : List StoredTask} (reached : w.Reached)
    (offset : w.offset ≤ maxSigned) (listed : server before (listing p order w) = .ok rows)
    (readable : rows.mapM StoredTask.ofRow = .ok stored) :
    (list ⟨p, order, some w⟩).run.run server before =
      (do
        let read ← loadRows (stored.map StoredTask.id)
        liftExcept (StoredTask.assemble read stored) : Session (List Task)).run.run server
        (before ++ [listing p order w]) :=
  run_list_of_ok (mapM_toLimit_eq_ok reached offset) listed readable

theorem course_of_counted {total : Int64} (reached : w.Reached) (conforms : server.Conforms)
    (counted : Counted server p w total) :
    Course server p order w ((list ⟨p, order, some w⟩).run.run server [counting p]).1
      (((list ⟨p, order, some w⟩).run.run server [counting p]).2.map
        (⟨·, total.toInt.toNat⟩)) := by
  cases answered : server [counting p] (listing p order w) with
  | error failure =>
    rw [run_list_of_error reached counted.offset answered]
    exact .listRefused counted answered
  | ok rows =>
    obtain ⟨stored, readable⟩ := StoredTask.exists_mapM_ofRow (conforms.tasks answered)
    have listed : Listed server p order w total rows := ⟨counted, answered⟩
    rw [run_list_of_listed reached counted.offset answered readable]
    have identified := map_id_of_ofRow (mapM_eq_ok_iff.mp readable)
    cases stored with
    | nil =>
      obtain rfl : rows = [] := List.map_eq_nil_iff.mp identified
      exact .nothing listed
    | cons s rest =>
      have some : rows ≠ [] := by
        rintro rfl
        cases identified
      have identified : Identified server p order w total rows ((s :: rest).map StoredTask.id) :=
        ⟨listed, some, identified⟩
      cases loaded : server ([counting p] ++ [listing p order w])
          (.loadRows ((s :: rest).map StoredTask.id)) with
      | error failure =>
        rw [Session.run_bind_of_error (run_loadRows_of_error (by simp) loaded)]
        exact .rolesRefused identified loaded
      | ok roleRows =>
        obtain ⟨read, readRoles⟩ := RoleRow.exists_mapM_ofRow (conforms.roles loaded)
        rw [Session.run_bind_of_ok (run_loadRows_of_ok (by simp) loaded readRoles),
          Session.run_liftExcept]
        exact .rolesLoaded identified loaded

theorem course_listPage (reached : w.Reached) (conforms : server.Conforms)
    (possible : p.isNever = false) :
    Course server p order w ((toTaskStore.listPage p order w).run.run server []).1
      ((toTaskStore.listPage p order w).run.run server []).2 := by
  rw [run_listPage possible]
  cases answered : server [] (counting p) with
  | error failure =>
    rw [Session.run_bind_of_error (run_count_of_error answered)]
    exact .countRefused answered
  | ok total =>
    have counts := run_count_of_ok answered
    by_cases negative : total.toInt < 0
    · rw [if_pos negative] at counts
      rw [Session.run_bind_of_error counts]
      exact .negative answered negative
    · rw [if_neg negative] at counts
      rw [Session.run_bind_of_ok counts]
      by_cases beyond : maxSigned < w.offset
      · rw [Session.run_bind_of_error (run_list_of_beyond reached beyond)]
        exact .beyond answered (Int.not_lt.mp negative) beyond
      · have counted : Counted server p w total :=
          ⟨answered, Int.not_lt.mp negative, Nat.not_lt.mp beyond⟩
        rw [Session.run_bind_pure]
        exact course_of_counted reached conforms counted

/-! ## What is read off a course -/

section

variable (server : Server) (p : Predicate) (order : SortOrder) (w : Window)

/-- What errors of a search say, one text for each statement. -/
def searchFailureTexts : List String :=
  ["failed to count tasks", "failed to search tasks", "failed to load task role rows"]

/-- What a search that asks sends and how it ends. -/
structure Searches {α : Type} (sent : List Statement) (result : Except Error α) : Prop where
  sequence : ∃ ids, sent <+: [counting p, listing p order w, .loadRows ids]
  counts : counting p ∈ sent
  lists_iff : listing p order w ∈ sent ↔ ∃ total, Counted server p w total
  /-- Role rows are loaded exactly where tasks are listed and there are some. -/
  loads_iff : (∃ ids, .loadRows ids ∈ sent) ↔
    ∃ total rows, Listed server p order w total rows ∧ rows ≠ []
  binds : ∀ ids, .loadRows ids ∈ sent → (Statement.loadRows ids).values = [.texts ids] ∧
    ∃ rows : List Row, server [counting p] (listing p order w) = .ok rows ∧
      rows.map (Row.get · "task_id") = ids.map .text
  /-- A statement that is refused is the last one, and the error says which it was. -/
  stops : ∀ earlier s later failure, sent = earlier ++ s :: later →
    server earlier s = .error failure → later = [] ∧ ∃ text e,
      searchFailureTexts[earlier.length]? = some text ∧ result = .error e ∧ e.kind = .internal ∧
      e.message = "internal error: " ++ text ++ ": " ++ failure.message
  negative : ∀ total : Int64, server [] (counting p) = .ok total → total.toInt < 0 →
    sent = [counting p] ∧ ∃ e, result = .error e ∧ e.kind = .internal
  beyond : ∀ total : Int64, server [] (counting p) = .ok total → 0 ≤ total.toInt →
    maxSigned < w.offset → sent = [counting p] ∧ ∃ e, result = .error e ∧ e.kind = .validation

/-- A count and a listing have the text of a condition in common, and what is bound for it; a
listing binds its page after that. -/
structure WordedAlike : Prop where
  text_counting : (counting p).text = Statement.countingFront ++ (Condition.ofPredicate p).text
  text_listing : (listing p order w).text =
    Statement.listingFront ++ (Condition.ofPredicate p).text ++ ") " ++
      Token.spell (Sql.orderTokens (OrderTerm.ofOrder order)) ++
        Statement.pageText (counting p).values.length
  values_listing : w.offset ≤ maxSigned →
    (listing p order w).values = (counting p).values ++ [.integer w.limit, .integer w.offset]

end

theorem wordedAlike (p : Predicate) (order : SortOrder) (reached : w.Reached) :
    WordedAlike p order w where
  text_counting := Statement.text_countTasks _
  text_listing := by rw [text_listing, values_counting]
  values_listing offset := by rw [values_listing reached offset, values_counting]

theorem values_loadRows (ids : List String) : (Statement.loadRows ids).values = [.texts ids] :=
  rfl

theorem loadRows_mem_iff {ids loaded : List String} :
    .loadRows ids ∈ [counting p, listing p order w, .loadRows loaded] ↔ ids = loaded := by
  simp [counting, listing]

namespace Course

variable {sent : List Statement} {result : Except Error (SearchResult Task)}
  (course : Course server p order w sent result)
include course

theorem isPrefix : ∃ ids, sent <+: [counting p, listing p order w, .loadRows ids] := by
  cases course with
  | countRefused | negative | beyond => exact ⟨[], by simp⟩
  | listRefused | nothing => exact ⟨[], by simp⟩
  | rolesRefused | rolesLoaded => exact ⟨_, List.prefix_rfl⟩

theorem counting_mem : counting p ∈ sent := by
  cases course <;> exact List.mem_cons_self

theorem listing_mem_iff : listing p order w ∈ sent ↔ ∃ total, Counted server p w total := by
  cases course with
  | countRefused refused =>
    refine iff_of_false (by simp [counting, listing]) ?_
    rintro ⟨total, counted, -⟩
    cases refused.symm.trans counted
  | negative counted negative =>
    refine iff_of_false (by simp [counting, listing]) ?_
    rintro ⟨total, counted', countable, -⟩
    obtain rfl := Except.ok.inj (counted.symm.trans counted')
    exact absurd negative (Int.not_lt.mpr countable)
  | beyond _ _ beyond =>
    refine iff_of_false (by simp [counting, listing]) ?_
    rintro ⟨total, -, -, offset⟩
    exact absurd beyond (Nat.not_lt.mpr offset)
  | listRefused counted => exact iff_of_true (by simp) ⟨_, counted⟩
  | nothing listed => exact iff_of_true (by simp) ⟨_, listed.toCounted⟩
  | rolesRefused identified => exact iff_of_true (by simp) ⟨_, identified.toCounted⟩
  | rolesLoaded identified => exact iff_of_true (by simp) ⟨_, identified.toCounted⟩

theorem loads_iff : (∃ ids, .loadRows ids ∈ sent) ↔
    ∃ total rows, Listed server p order w total rows ∧ rows ≠ [] := by
  -- what is given for a listing is given only where the listing is sent
  have lists : ∀ total rows, Listed server p order w total rows → listing p order w ∈ sent :=
    fun total rows listed => course.listing_mem_iff.mpr ⟨total, listed.toCounted⟩
  cases course with
  | countRefused | negative | beyond =>
    refine iff_of_false (by simp [counting]) ?_
    rintro ⟨total, rows, listed, -⟩
    have mem := lists total rows listed
    simp [counting, listing] at mem
  | listRefused _ refused =>
    refine iff_of_false (by simp [counting, listing]) ?_
    rintro ⟨total, rows, listed, -⟩
    cases refused.symm.trans listed.listed
  | nothing listed =>
    refine iff_of_false (by simp [counting, listing]) ?_
    rintro ⟨total, rows, listed', some⟩
    exact some (Except.ok.inj (listed'.listed.symm.trans listed.listed))
  | rolesRefused identified | rolesLoaded identified =>
    exact iff_of_true ⟨_, loadRows_mem_iff.mpr rfl⟩ ⟨_, _, identified.toListed, identified.some⟩

theorem identified_of_mem {ids : List String} (mem : .loadRows ids ∈ sent) :
    ∃ total rows, Identified server p order w total rows ids := by
  cases course with
  | countRefused | negative | beyond | listRefused | nothing => simp [counting, listing] at mem
  | rolesRefused identified | rolesLoaded identified =>
    exact ⟨_, _, loadRows_mem_iff.mp mem ▸ identified⟩

/-- All statements but the last one are accepted; if that one is refused, the error says so. -/
theorem exists_last : ∃ earlier last, sent = earlier ++ [last] ∧ server.Accepts [] earlier ∧
    ∀ failure, server earlier last = .error failure → ∃ stage,
      searchFailureTexts[earlier.length]? = some stage.message ∧
        result = .error (.statement stage failure) := by
  cases course with
  | countRefused refused =>
    refine ⟨[], _, rfl, trivial, fun failure refused' => ⟨.countTasks, rfl, ?_⟩⟩
    rw [Except.error.inj (refused.symm.trans refused')]
  | negative counted | beyond counted =>
    exact ⟨[], _, rfl, trivial, fun failure refused => by cases counted.symm.trans refused⟩
  | listRefused counted refused =>
    refine ⟨[_], _, rfl, ⟨⟨_, counted.counted⟩, trivial⟩,
      fun failure refused' => ⟨.listTasks, rfl, ?_⟩⟩
    rw [Except.error.inj (refused.symm.trans refused')]
  | nothing listed =>
    exact ⟨[_], _, rfl, ⟨⟨_, listed.counted⟩, trivial⟩,
      fun failure refused => by cases listed.listed.symm.trans refused⟩
  | rolesRefused identified refused =>
    refine ⟨[_, _], _, rfl, ⟨⟨_, identified.counted⟩, ⟨_, identified.listed⟩, trivial⟩,
      fun failure refused' => ⟨.loadRoles, rfl, ?_⟩⟩
    rw [Except.error.inj (refused.symm.trans refused')]
  | rolesLoaded identified loaded =>
    exact ⟨[_, _], _, rfl, ⟨⟨_, identified.counted⟩, ⟨_, identified.listed⟩, trivial⟩,
      fun failure refused => by cases loaded.symm.trans refused⟩

/-- Where the server counts and yet no page can be listed, nothing follows the count. -/
theorem eq_of_not_counted {total : Int64} (counted : server [] (counting p) = .ok total)
    (unlistable : ¬ Counted server p w total) :
    sent = [counting p] ∧ result =
      .error (if total.toInt < 0 then .negativeCount total else .offsetTooLarge) := by
  -- this leaves the courses that end with the count
  have unlisted : listing p order w ∉ sent := by
    intro mem
    obtain ⟨total', counted'⟩ := course.listing_mem_iff.mp mem
    obtain rfl := Except.ok.inj (counted.symm.trans counted'.counted)
    exact unlistable counted'
  cases course with
  | countRefused refused => cases refused.symm.trans counted
  | negative counted' negative =>
    obtain rfl := Except.ok.inj (counted.symm.trans counted')
    rw [if_pos negative]
    exact ⟨rfl, rfl⟩
  | beyond counted' countable =>
    obtain rfl := Except.ok.inj (counted.symm.trans counted')
    rw [if_neg (Int.not_lt.mpr countable)]
    exact ⟨rfl, rfl⟩
  | listRefused | nothing | rolesRefused | rolesLoaded => simp at unlisted

theorem searches : Searches server p order w sent result where
  sequence := course.isPrefix
  counts := course.counting_mem
  lists_iff := course.listing_mem_iff
  loads_iff := course.loads_iff
  binds ids mem := by
    obtain ⟨total, rows, identified⟩ := course.identified_of_mem mem
    exact ⟨values_loadRows ids, rows, identified.listed, identified.identified⟩
  stops earlier s later failure split refused := by
    obtain ⟨init, last, rfl, accepts, ends⟩ := course.exists_last
    obtain ⟨rfl, rfl, rfl⟩ := accepts.eq_of_refused split refused
    obtain ⟨stage, text, failed⟩ := ends failure refused
    exact ⟨rfl, _, _, text, failed, rfl, message_statement stage failure⟩
  negative total counted negative := by
    obtain ⟨sent, failed⟩ := course.eq_of_not_counted counted
      fun counted => absurd negative (Int.not_lt.mpr counted.countable)
    rw [if_pos negative] at failed
    exact ⟨sent, _, failed, rfl⟩
  beyond total counted countable beyond := by
    obtain ⟨sent, failed⟩ := course.eq_of_not_counted counted
      fun counted => absurd beyond (Nat.not_lt.mpr counted.offset)
    rw [if_neg (Int.not_lt.mpr countable)] at failed
    exact ⟨sent, _, failed, rfl⟩

end Course

theorem Searches.eq_of_loadRows_mem {α : Type} {sent : List Statement} {result : Except Error α}
    {ids : List String} (searches : Searches server p order w sent result)
    (mem : .loadRows ids ∈ sent) : sent = [counting p, listing p order w, .loadRows ids] := by
  obtain ⟨loaded, isPrefix⟩ := searches.sequence
  simp only [List.prefix_cons_iff, List.prefix_nil] at isPrefix
  obtain rfl | ⟨_, rfl, rfl | ⟨_, rfl, rfl | ⟨_, rfl, rfl⟩⟩⟩ := isPrefix
  · cases mem
  · simp [counting] at mem
  · simp [counting, listing] at mem
  · rw [loadRows_mem_iff.mp mem]

/-- What is made of the tasks that are found changes nothing that is sent for them. -/
theorem Searches.map {α β : Type} {sent : List Statement} {result : Except Error α}
    (searches : Searches server p order w sent result) (f : α → β) :
    Searches server p order w sent (result.map f) where
  sequence := searches.sequence
  counts := searches.counts
  lists_iff := searches.lists_iff
  loads_iff := searches.loads_iff
  binds := searches.binds
  stops earlier s later failure split refused := by
    obtain ⟨last, text, e, shown, rfl, worded⟩ :=
      searches.stops earlier s later failure split refused
    exact ⟨last, text, e, shown, rfl, worded⟩
  negative total counted negative := by
    obtain ⟨sent, e, rfl, kind⟩ := searches.negative total counted negative
    exact ⟨sent, e, rfl, kind⟩
  beyond total counted countable beyond := by
    obtain ⟨sent, e, rfl, kind⟩ := searches.beyond total counted countable beyond
    exact ⟨sent, e, rfl, kind⟩

/-! ## Searches of a caller -/

section

variable {c : Caller} {r : SearchRequest} {required : List Permission}

theorem run_search :
    (toTaskStore.search c r required w).run.run server [] =
      if r.hasFilter then
        (toTaskStore.listPage (c.searchCondition r required) r.taskOrder w).run.run server []
      else
        ([], .error .noFilter) := by
  unfold TaskStore.search SearchRequest.requireFilter
  split <;> rfl

theorem run_searchSummaries :
    (toTaskStore.searchSummaries c r required w).run.run server [] =
      if r.hasFilter then
        (do
          let found ← toTaskStore.listPage (c.searchCondition r required) r.summaryOrder w
          return ⟨found.tasks.map Task.summary, found.total⟩ :
            Session (SearchResult TaskSummary)).run.run server []
      else
        ([], .error .noFilter) := by
  unfold TaskStore.searchSummaries SearchRequest.requireFilter
  split <;> rfl

end

/-- A search sends its statements in stages.  Where all lists of filters are empty it is refused,
and where no role is in force it finds nothing; nothing is sent then.  Otherwise tasks are counted
and listed and their role rows loaded, each only after the stage before has gone well, and a
statement that is refused is the last one.  A count and a listing say the same of tasks and bind the
same values for it. -/
theorem search_sends_in_stages (c : Caller) (r : SearchRequest) (required : List Permission)
    (w : Window) (reached : w.Reached) (server : Server) (conforms : server.Conforms) :
    let p := c.searchCondition r required
    let tasks := (toTaskStore.search c r required w).run.run server []
    let summaries := (toTaskStore.searchSummaries c r required w).run.run server []
    (WordedAlike p r.taskOrder w ∧ WordedAlike p r.summaryOrder w) ∧
    (r.Unfiltered → ∃ e : Error, e.kind = .validation ∧
      tasks = ([], .error e) ∧ summaries = ([], .error e)) ∧
    (¬ r.Unfiltered → c.Inactive →
      tasks = ([], .ok ⟨[], 0⟩) ∧ summaries = ([], .ok ⟨[], 0⟩)) ∧
    (¬ r.Unfiltered → ¬ c.Inactive →
      Searches server p r.taskOrder w tasks.1 tasks.2 ∧
        Searches server p r.summaryOrder w summaries.1 summaries.2) := by
  intro p tasks summaries
  have never : p.isNever = true ↔ c.Inactive := by
    rw [Predicate.isNever_iff, (c.neverWhen_searchCondition r required).never_iff]
  have searched : tasks = _ := run_search
  have summarized : summaries = _ := run_searchSummaries
  refine ⟨⟨wordedAlike p _ reached, wordedAlike p _ reached⟩, fun unfiltered => ?refused,
    fun filtered inactive => ?nothing, fun filtered active => ?asked⟩
  case refused =>
    rw [searched, summarized, SearchRequest.hasFilter_eq_false_iff.mpr unfiltered]
    exact ⟨.noFilter, rfl, rfl, rfl⟩
  all_goals
    rw [← SearchRequest.hasFilter_eq_false_iff, Bool.not_eq_false] at filtered
    rw [searched, summarized, if_pos filtered, if_pos filtered]
  case nothing =>
    rw [Session.run_bind_pure, run_listPage_of_never (never.mpr inactive),
      run_listPage_of_never (never.mpr inactive)]
    exact ⟨rfl, rfl⟩
  case asked =>
    have possible : p.isNever = false := by simpa using mt never.mp active
    rw [Session.run_bind_pure]
    exact ⟨(course_listPage reached conforms possible).searches,
      (course_listPage reached conforms possible).searches.map _⟩

/-- Of two tasks that are listed the role rows cannot be loaded: the search has sent all three
statements, the last one for the tasks in the order of the listing, and finds nothing. -/
theorem search_sends_roles_last :
    let clerk : RoleAssignment :=
      { actor := "7", scope := .organisation, role := "clerk", grant := .excluded }
    let c : Caller := ⟨[clerk], ⟨⟨2026, 3, 1, by decide⟩, 0, 0, by decide⟩⟩
    let r : SearchRequest := { jurisdictions := ["IA"] }
    let row (id : String) := (Task.bare id "review" .unassigned "IA" "1" "Asylum").cells
    let server : Server := fun before s =>
      if before.length = 2 then .error ⟨"error returned from database: disk full"⟩
      else Server.giving 2 [row "b", row "a"] [] before s
    let w : Window := ⟨0, 20, by decide, by decide, by decide⟩
    let p := c.searchCondition r [.read]
    Window.ofRequest 0 20 = .ok w ∧ w.Reached ∧ server.Conforms ∧ ∃ e : Error,
      (toTaskStore.search c r [.read] w).run.run server [] =
        ([counting p, listing p r.taskOrder w, .loadRows ["b", "a"]], .error e) ∧
      e.message = "internal error: failed to load task role rows: " ++
        "error returned from database: disk full" := by
  intro clerk c r row server w p
  have accepted : Window.ofRequest 0 20 = .ok w := rfl
  have conforms : server.Conforms := by
    have given : (Server.giving 2 [row "b", row "a"] []).Conforms :=
      Server.conforms_giving (by simp [row, Task.admits_cells]) (by simp)
    refine given.mono fun before s answer answered => ?_
    simp only [server] at answered
    split at answered
    next => cases answered
    next => exact answered
  have filtered : ¬ r.Unfiltered := fun none => absurd none.jurisdictions (by decide)
  have active : ¬ c.Inactive :=
    fun none => none clerk (by simp [c]) (by simp [clerk, RoleAssignment.InForce])
  obtain ⟨-, -, -, asked⟩ := search_sends_in_stages c r [.read] w (.start accepted) server conforms
  obtain ⟨searches, -⟩ := asked filtered active
  have listed : Listed server p r.taskOrder w 2 [row "b", row "a"] :=
    ⟨⟨rfl, by decide, by decide⟩, rfl⟩
  obtain ⟨ids, mem⟩ := searches.loads_iff.mpr ⟨2, _, listed, by simp⟩
  obtain ⟨-, rows, answered, identified⟩ := searches.binds ids mem
  obtain rfl := Except.ok.inj (listed.listed.symm.trans answered)
  obtain rfl : ["b", "a"] = ids := Sql.Value.map_text_inj.mp identified
  have sent := searches.eq_of_loadRows_mem mem
  obtain ⟨-, text, e, wording, failed, -, message⟩ :=
    searches.stops [_, _] _ [] ⟨"error returned from database: disk full"⟩ sent rfl
  obtain rfl := Option.some.inj wording
  exact ⟨accepted, .start accepted, conforms, e, Prod.ext sent failed, message⟩

end DatabaseStore

end Caseload
