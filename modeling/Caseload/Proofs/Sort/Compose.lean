import Caseload.Proofs.Sort.Total
import Caseload.Search
import Mathlib.Data.List.Induction

/-!
# Composed orders

An order is composed from what a caller asks to be sorted by: what resolves to no key is dropped,
and so is each key whose field an earlier one has.  Neither changes how tasks compare.

What carries the proof is that a later key on the same field never tells tasks apart: where the
earlier one sees no difference, both tasks have the same value there, or both have none, and then no
direction sees one (`compareBy_insert_of_known`).
-/

namespace Caseload

namespace SortOrder

variable {keys before rest : List SortKey} {k : SortKey} {a b : Task}

/-! ## Keys that repeat a field -/

theorem compareBy_insert_of_level (level : k.compare a b = .eq) :
    compareBy (before ++ k :: rest) a b = compareBy (before ++ rest) a b := by
  induction before with
  | nil =>
    rw [List.nil_append, compareBy, level]
    rfl
  | cons e before ih => rw [List.cons_append, compareBy, ih, List.cons_append, compareBy]

theorem compareBy_insert_of_known (known : ∃ e ∈ before, e.field = k.field) :
    compareBy (before ++ k :: rest) a b = compareBy (before ++ rest) a b := by
  induction before with
  | nil =>
    obtain ⟨e, mem, -⟩ := known
    cases mem
  | cons e before ih =>
    rw [List.cons_append, compareBy, List.cons_append, compareBy]
    obtain ⟨earlier, mem, same⟩ := known
    cases mem with
    | head =>
      -- the key in front decides, or else the two tasks are level in the field of both keys
      cases first : e.compare a b with
      | lt | gt => rfl
      | eq =>
        have level : k.compare a b = .eq := by
          rwa [SortKey.compare_eq_iff, ← same, ← SortKey.compare_eq_iff]
        rw [compareBy_insert_of_level level]
    | tail _ mem => rw [ih ⟨earlier, mem, same⟩]

theorem addKey_eq :
    addKey keys k = if ∃ e ∈ keys, e.field = k.field then keys else keys ++ [k] := by
  simp [addKey]

/-- Adding keys one by one compares as all of them do. -/
theorem compareBy_foldl_addKey (before keys : List SortKey) (a b : Task) :
    compareBy (keys.foldl addKey before) a b = compareBy (before ++ keys) a b := by
  induction keys generalizing before with
  | nil => rw [List.foldl_nil, List.append_nil]
  | cons k rest ih =>
    rw [List.foldl_cons, ih, addKey_eq]
    split
    next known => exact (compareBy_insert_of_known known).symm
    next => rw [List.append_assoc, List.singleton_append]

/-! ## The first key for each field -/

/-- The keys before which no other one has their field, in their order. -/
def firstOfEachField (keys : List SortKey) : List SortKey :=
  (keys.zipIdx.filter fun (k, i) => ¬ ∃ e ∈ keys.take i, e.field = k.field).map Prod.fst

theorem firstOfEachField_concat (keys : List SortKey) (k : SortKey) :
    firstOfEachField (keys ++ [k]) =
      if ∃ e ∈ keys, e.field = k.field then firstOfEachField keys
      else firstOfEachField keys ++ [k] := by
  -- what comes before a key is not changed by one at the end
  have old : (keys.zipIdx.filter fun (l, i) => ¬ ∃ e ∈ (keys ++ [k]).take i, e.field = l.field) =
      keys.zipIdx.filter fun (l, i) => ¬ ∃ e ∈ keys.take i, e.field = l.field := by
    refine List.filter_congr fun (l, i) mem => ?_
    have inside : i < keys.length := List.snd_lt_of_mem_zipIdx mem
    simp only [List.take_append_of_le_length (Nat.le_of_lt inside)]
  rw [firstOfEachField, List.zipIdx_append, List.filter_append, old, List.map_append,
    ← firstOfEachField, List.zipIdx_singleton, List.filter_singleton, Nat.zero_add]
  by_cases known : ∃ e ∈ keys, e.field = k.field <;> simp [known]

/-- A field is among the keys that are kept exactly if it is among all of them. -/
theorem exists_field_foldl_addKey {f : SortField} :
    (∃ e ∈ keys.foldl addKey before, e.field = f) ↔ ∃ e ∈ before ++ keys, e.field = f := by
  induction keys generalizing before with
  | nil => rw [List.foldl_nil, List.append_nil]
  | cons k rest ih =>
    rw [List.foldl_cons, ih, addKey_eq]
    split
    next known =>
      obtain ⟨e, mem, same⟩ := known
      grind
    next => rw [List.append_assoc, List.singleton_append]

theorem foldl_addKey_eq_nil_iff : keys.foldl addKey [] = [] ↔ keys = [] := by
  cases keys with
  | nil => exact iff_of_true rfl rfl
  | cons k rest =>
    refine iff_of_false (fun none => ?_) (by simp)
    have some : ∃ e ∈ (k :: rest).foldl addKey [], e.field = k.field :=
      exists_field_foldl_addKey.mpr ⟨k, List.mem_cons_self, rfl⟩
    simp [none] at some

theorem nodup_fields_foldl_addKey (distinct : (before.map SortKey.field).Nodup) :
    ((keys.foldl addKey before).map SortKey.field).Nodup := by
  induction keys generalizing before with
  | nil => exact distinct
  | cons k rest ih =>
    rw [List.foldl_cons, addKey_eq]
    split
    next => exact ih distinct
    next new =>
      refine ih ?_
      rw [List.map_append, List.map_singleton]
      refine List.nodup_append.mpr ⟨distinct, List.pairwise_singleton _ _, ?_⟩
      simpa using new

theorem foldl_addKey_eq (keys : List SortKey) : keys.foldl addKey [] = firstOfEachField keys := by
  induction keys using List.reverseRecOn with
  | nil => rfl
  | append_singleton keys k ih =>
    have kept : (∃ e ∈ firstOfEachField keys, e.field = k.field) ↔ ∃ e ∈ keys, e.field = k.field := by
      rw [← ih, exists_field_foldl_addKey, List.nil_append]
    rw [List.foldl_concat, firstOfEachField_concat, ih, addKey_eq]
    simp only [kept]

/-- A later key for a field is not added, whatever follows. -/
theorem foldl_addKey_insert_of_known (known : ∃ e ∈ before, e.field = k.field) :
    (before ++ k :: rest).foldl addKey [] = (before ++ rest).foldl addKey [] := by
  have kept : ∃ e ∈ before.foldl addKey [], e.field = k.field :=
    exists_field_foldl_addKey.mpr known
  rw [List.foldl_append, List.foldl_cons, addKey_eq, if_pos kept, List.foldl_append]

/-! ## Instructions -/

/-- The keys that instructions name, one after the other. -/
def named (instructions : List SortInstruction) : List SortKey :=
  instructions.filterMap SortInstruction.resolve?

theorem compose_eq (instructions : List SortInstruction) (default : SortOrder) :
    compose instructions default =
      if named instructions = [] then default else ⟨firstOfEachField (named instructions)⟩ := by
  unfold compose
  rw [← named]
  split
  next none => rw [if_pos (foldl_addKey_eq_nil_iff.mp none)]
  next some => rw [if_neg (mt foldl_addKey_eq_nil_iff.mpr some), foldl_addKey_eq]

/-- An instruction that has no effect after some others: it names no key, or it names one for a
field for which one of them names a key, in whatever direction. -/
inductive Idle (before : List SortInstruction) (i : SortInstruction) : Prop
  | unresolved (none : i.resolve? = none)
  | repeated {earlier : SortInstruction} {k l : SortKey} (mem : earlier ∈ before)
    (first : earlier.resolve? = some k) (again : i.resolve? = some l) (same : l.field = k.field)

theorem compose_insert_of_idle {before : List SortInstruction} {i : SortInstruction}
    (idle : Idle before i) (after : List SortInstruction) (default : SortOrder) :
    compose (before ++ i :: after) default = compose (before ++ after) default := by
  have same : (named (before ++ i :: after)).foldl addKey [] =
      (named (before ++ after)).foldl addKey [] := by
    simp only [named, List.filterMap_append]
    cases idle with
    | unresolved none => rw [List.filterMap_cons_none none]
    | @repeated earlier k l mem first again same =>
      rw [List.filterMap_cons_some again]
      exact foldl_addKey_insert_of_known ⟨k, List.mem_filterMap.mpr ⟨earlier, mem, first⟩, same.symm⟩
  unfold compose
  rw [← named, same, named]

/-- No field comes twice, unless it does so in the given order and nothing else is asked for. -/
theorem nodup_fields_compose {default : SortOrder} (distinct : (default.keys.map SortKey.field).Nodup)
    (instructions : List SortInstruction) :
    ((compose instructions default).keys.map SortKey.field).Nodup := by
  rw [compose_eq]
  split
  next => exact distinct
  next =>
    rw [← foldl_addKey_eq]
    exact nodup_fields_foldl_addKey List.nodup_nil

/-- Dropping what names no key and what repeats a field never changes the order.  If some instruction
names a key, the keys of a composed order are the first one for each field, in order and no field
twice, and tasks compare under it as under all keys that are named, repetitions included; if none
does, the order is the given one, and those of tasks and of summaries have no field twice either.  So
an idle instruction can be put anywhere among the others, and every search of every store stays as
it is. -/
theorem compose_keeps_comparison (instructions : List SortInstruction) (default : SortOrder) :
    let order := compose instructions default
    (named instructions ≠ [] →
      order.keys = firstOfEachField (named instructions) ∧
      (order.keys.map SortKey.field).Nodup ∧
      ∀ a b, order.compare a b = (SortOrder.mk (named instructions)).compare a b) ∧
    (named instructions = [] → order = default) ∧
    (∀ r : SearchRequest, (r.taskOrder.keys.map SortKey.field).Nodup ∧
      (r.summaryOrder.keys.map SortKey.field).Nodup) ∧
    ∀ before i after, Idle before i →
      (instructions = before ++ after → compose (before ++ i :: after) default = order) ∧
      ∀ (m : Type → Type) [Monad m] [MonadExcept Error m] (store : TaskStore m) (c : Caller)
        (r : SearchRequest) (required : List Permission) (page : Window),
        store.search c { r with sorting := before ++ i :: after } required page =
          store.search c { r with sorting := before ++ after } required page ∧
        store.searchSummaries c { r with sorting := before ++ i :: after } required page =
          store.searchSummaries c { r with sorting := before ++ after } required page := by
  intro order
  refine ⟨fun some => ?resolved, fun none => (compose_eq instructions default).trans (if_pos none),
    fun r => ⟨nodup_fields_compose (by decide) _, nodup_fields_compose (by decide) _⟩,
    fun before i after idle => ⟨?inserted, ?searched⟩⟩
  case resolved =>
    have eq : order = ⟨firstOfEachField (named instructions)⟩ :=
      (compose_eq instructions default).trans (if_neg some)
    have keys : order.keys = (named instructions).foldl addKey [] := by rw [eq, foldl_addKey_eq]
    refine ⟨congrArg SortOrder.keys eq, keys ▸ nodup_fields_foldl_addKey List.nodup_nil,
      fun a b => ?_⟩
    rw [compare, keys, compareBy_foldl_addKey, List.nil_append, compare]
  case inserted =>
    rintro rfl
    exact compose_insert_of_idle idle after default
  case searched =>
    intro m _ _ store c r required page
    -- the order is all that a search takes from the instructions
    have tasks := compose_insert_of_idle idle after taskDefault
    have summaries := compose_insert_of_idle idle after summaryDefault
    constructor
    · simp only [TaskStore.search, SearchRequest.taskOrder, tasks]
      rfl
    · simp only [TaskStore.searchSummaries, SearchRequest.summaryOrder, summaries]
      rfl

/-- Sorting by the name of the case, by a field that is none, by when a task is due and by the name
of the case again. -/
theorem compose_of_repeated_name :
    let instructions : List SortInstruction :=
      [⟨"caseName", "DESC"⟩, ⟨"colour", "asc"⟩, ⟨" due_date ", "ascending"⟩]
    let again : SortInstruction := ⟨"case_name", "asc"⟩
    named instructions ≠ [] ∧ Idle instructions again ∧
      (compose instructions taskDefault).keys = [⟨.caseName, .descending⟩, ⟨.due, .ascending⟩] ∧
      compose (instructions ++ [again]) taskDefault = compose instructions taskDefault := by
  intro instructions again
  have keys : named instructions = [⟨.caseName, .descending⟩, ⟨.due, .ascending⟩] := by
    decide +kernel
  have some : named instructions ≠ [] := by simp [keys]
  have idle : Idle instructions again := .repeated (k := ⟨.caseName, .descending⟩)
    (l := ⟨.caseName, .ascending⟩) List.mem_cons_self (by decide +kernel) (by decide +kernel) rfl
  obtain ⟨composed, -, -, inserted⟩ := compose_keeps_comparison instructions taskDefault
  refine ⟨some, idle, ?_, (inserted instructions again [] idle).1 (List.append_nil _).symm⟩
  rw [(composed some).1, keys]
  rfl

end SortOrder

end Caseload
