import Mathlib.Data.List.Forall2
import Mathlib.Tactic.Tauto

/-!
# First failures

A run that can fail gives its result when every part of it does (`bind_eq_ok_iff`,
`mapM_eq_ok_iff`).  Otherwise it gives the error of the first part that fails, and all before that
part has gone well (`bind_eq_error_iff`, `mapM_eq_error_iff`).  Where the parts of a run are checks
that are told apart by what they find wrong, `FirstFault` says which fault the run reports.  Of a
run that only gives something or nothing no more is asked than that it gives it.
-/

namespace Caseload

variable {α β ε : Type}

theorem bind_eq_ok_iff {x : Except ε α} {next : α → Except ε β} {b : β} :
    (x >>= next) = .ok b ↔ ∃ a, x = .ok a ∧ next a = .ok b := by
  cases x <;> simp [bind, Except.bind]

theorem bind_eq_error_iff {x : Except ε α} {next : α → Except ε β} {e : ε} :
    (x >>= next) = .error e ↔ x = .error e ∨ ∃ a, x = .ok a ∧ next a = .error e := by
  cases x <;> simp [bind, Except.bind]

theorem exists_bind_eq_ok_iff {x : Except ε α} {next : α → Except ε β} :
    (∃ b, (x >>= next) = .ok b) ↔ ∃ a, x = .ok a ∧ ∃ b, next a = .ok b := by
  cases x <;> simp [bind, Except.bind]

theorem map_eq_ok_iff {x : Except ε α} {f : α → β} {b : β} :
    x.map f = .ok b ↔ ∃ a, x = .ok a ∧ f a = b := by
  cases x <;> simp [Except.map]

theorem map_eq_error_iff {x : Except ε α} {f : α → β} {e : ε} :
    x.map f = .error e ↔ x = .error e := by
  cases x <;> simp [Except.map]

theorem ofExcept_eq (x : Except ε α) : (MonadExcept.ofExcept x : Except ε α) = x := by
  cases x <;> rfl

theorem exists_pure_eq_ok (a : α) : ∃ b, (pure a : Except ε α) = .ok b :=
  ⟨a, rfl⟩

variable {f : α → Except ε β} {items : List α}

theorem mapM_eq_ok_iff {results : List β} :
    items.mapM f = .ok results ↔ List.Forall₂ (fun a b => f a = .ok b) items results := by
  induction items generalizing results with
  | nil => simp [pure, Except.pure, eq_comm]
  | cons a rest ih =>
    simp only [List.mapM_cons, bind_eq_ok_iff, ih, List.forall₂_cons_left_iff, pure, Except.pure,
      Except.ok.injEq]
    constructor
    · rintro ⟨b, first, bs, others, same⟩
      exact ⟨b, bs, first, others, same.symm⟩
    · rintro ⟨b, bs, first, others, same⟩
      exact ⟨b, first, bs, others, same.symm⟩

theorem mapM_eq_of_forall₂ {γ : Type} {g : γ → Except ε β} {others : List γ}
    (each : List.Forall₂ (fun a c => f a = g c) items others) : items.mapM f = others.mapM g := by
  induction each with
  | nil => rfl
  | cons same _ ih => rw [List.mapM_cons, List.mapM_cons, same, ih]

theorem exists_ok_of_mapM_eq_ok {results : List β} (done : items.mapM f = .ok results) :
    ∀ a ∈ items, ∃ b, f a = .ok b := by
  have each := mapM_eq_ok_iff.mp done
  clear done
  intro a mem
  induction each with
  | nil => cases mem
  | cons first _ ih =>
    cases mem with
    | head => exact ⟨_, first⟩
    | tail _ mem => exact ih mem

theorem mem_iff_of_mapM_eq_ok {results : List β} (done : items.mapM f = .ok results) {b : β} :
    b ∈ results ↔ ∃ a ∈ items, f a = .ok b := by
  have each := mapM_eq_ok_iff.mp done
  clear done
  induction each with
  | nil => simp
  | cons first _ ih =>
    simp [ih, first, eq_comm]

theorem mapM_eq_error_iff {e : ε} :
    items.mapM f = .error e ↔
      ∃ before a after, items = before ++ a :: after ∧ (∀ x ∈ before, ∃ b, f x = .ok b) ∧
        f a = .error e := by
  induction items with
  | nil => simp [pure, Except.pure]
  | cons a rest ih =>
    have unfolded : (a :: rest).mapM f = .error e ↔
        f a = .error e ∨ ∃ b, f a = .ok b ∧ rest.mapM f = .error e := by
      simp [bind_eq_error_iff, pure, Except.pure]
    rw [unfolded]
    -- the list is cut where the failing part stands: at its front, or as the rest is cut
    constructor
    · rintro (first | ⟨b, first, later⟩)
      · exact ⟨[], a, rest, rfl, by simp, first⟩
      · obtain ⟨before, x, after, split, fine, failed⟩ := ih.mp later
        refine ⟨a :: before, x, after, by rw [split, List.cons_append], ?_, failed⟩
        exact List.forall_mem_cons.mpr ⟨⟨b, first⟩, fine⟩
    · rintro ⟨before, x, after, split, fine, failed⟩
      cases before with
      | nil =>
        cases split
        exact .inl failed
      | cons y before =>
        cases split
        obtain ⟨⟨b, first⟩, fine⟩ := List.forall_mem_cons.mp fine
        exact .inr ⟨b, first, ih.mpr ⟨before, x, after, rfl, fine, failed⟩⟩

/-- Where every part goes well, so does all of it. -/
theorem exists_mapM_eq_ok (fine : ∀ a ∈ items, ∃ b, f a = .ok b) :
    ∃ results, items.mapM f = .ok results := by
  cases done : items.mapM f with
  | ok results => exact ⟨results, rfl⟩
  | error e =>
    obtain ⟨before, a, after, rfl, -, failed⟩ := mapM_eq_error_iff.mp done
    obtain ⟨b, made⟩ := fine a (by simp)
    cases failed.symm.trans made

/-! ## Runs that may give nothing -/

theorem bind_of_eq_some {x : Option α} {next : α → Option β} {a : α} (found : x = some a) :
    (x >>= next) = next a := by
  rw [found]
  rfl

section

variable {γ : Type}

theorem forall₂_map {rel : β → γ → Prop} {f : α → β} {g : α → γ} {items : List α}
    (each : ∀ a ∈ items, rel (f a) (g a)) : List.Forall₂ rel (items.map f) (items.map g) := by
  rw [List.forall₂_map_left_iff, List.forall₂_map_right_iff]
  exact List.forall₂_same.mpr each

theorem mapM_eq_some_of_forall₂ {f : α → Option β} {items : List α} {results : List β}
    (each : List.Forall₂ (fun a b => f a = some b) items results) :
    items.mapM f = some results := by
  induction each with
  | nil => rfl
  | cons first _ ih => simp [first, ih]

theorem mapM_map_eq_some {f : α → β} {g : β → Option γ} {k : α → γ} {items : List α}
    (known : ∀ a ∈ items, g (f a) = some (k a)) : (items.map f).mapM g = some (items.map k) :=
  mapM_eq_some_of_forall₂ (forall₂_map known)

/-- What undoes `f` for every item undoes it for a list of them. -/
theorem mapM_map_eq_self {f : α → β} {g : β → Option α} (undone : ∀ a, g (f a) = some a)
    (items : List α) : (items.map f).mapM g = some items := by
  have undone : ∀ a ∈ items, g (f a) = some (id a) := fun a _ => undone a
  rw [mapM_map_eq_some undone, List.map_id]

end

/-! ## Checks in a row -/

section

variable {γ : Type} {fault : γ → ε → Prop} {checks : List γ} {c : γ} {e : ε}

/-- This is what the first check finds that finds a fault. -/
def FirstFault (fault : γ → ε → Prop) (checks : List γ) (e : ε) : Prop :=
  ∃ before c after, checks = before ++ c :: after ∧ (∀ b ∈ before, ∀ e, ¬ fault b e) ∧ fault c e

theorem not_firstFault_nil : ¬ FirstFault fault [] e := by
  rintro ⟨before, c, after, split, -⟩
  simp at split

theorem firstFault_cons_iff :
    FirstFault fault (c :: checks) e ↔
      fault c e ∨ (∀ e, ¬ fault c e) ∧ FirstFault fault checks e := by
  constructor
  · rintro ⟨before, d, after, split, fine, found⟩
    cases before with
    | nil =>
      cases split
      exact .inl found
    | cons b before =>
      cases split
      obtain ⟨first, fine⟩ := List.forall_mem_cons.mp fine
      exact .inr ⟨first, before, d, after, rfl, fine, found⟩
  · rintro (found | ⟨first, before, d, after, rfl, fine, found⟩)
    · exact ⟨[], c, checks, rfl, by simp, found⟩
    · exact ⟨c :: before, d, after, rfl, List.forall_mem_cons.mpr ⟨first, fine⟩, found⟩

theorem exists_firstFault (mem : c ∈ checks) (found : fault c e) :
    ∃ e, FirstFault fault checks e := by
  induction checks with
  | nil => cases mem
  | cons d rest ih =>
    by_cases first : ∃ e, fault d e
    · obtain ⟨e, first⟩ := first
      exact ⟨e, firstFault_cons_iff.mpr (.inl first)⟩
    · have later : c ∈ rest := by
        cases mem with
        | head => exact absurd ⟨e, found⟩ first
        | tail _ mem => exact mem
      obtain ⟨e, others⟩ := ih later
      exact ⟨e, firstFault_cons_iff.mpr (.inr ⟨not_exists.mp first, others⟩)⟩

theorem firstFault_singleton_iff : FirstFault fault [c] e ↔ fault c e := by
  rw [firstFault_cons_iff]
  exact or_iff_left fun later => not_firstFault_nil later.2

theorem firstFault_append_iff {others : List γ} :
    FirstFault fault (checks ++ others) e ↔
      FirstFault fault checks e ∨
        (∀ c ∈ checks, ∀ e, ¬ fault c e) ∧ FirstFault fault others e := by
  induction checks with
  | nil => simp [not_firstFault_nil]
  | cons c checks ih =>
    rw [List.cons_append, firstFault_cons_iff, firstFault_cons_iff, ih, List.forall_mem_cons]
    tauto

/-- A run that reports the first fault goes well when there is none. -/
theorem exists_ok_iff_of_firstFault {x : Except ε α}
    (faults : ∀ e, x = .error e ↔ FirstFault fault checks e) :
    (∃ a, x = .ok a) ↔ ∀ c ∈ checks, ∀ e, ¬ fault c e := by
  cases done : x with
  | ok a =>
    refine iff_of_true ⟨a, rfl⟩ fun c mem e found => ?_
    obtain ⟨d, first⟩ := exists_firstFault mem found
    cases ((faults d).mpr first).symm.trans done
  | error e =>
    obtain ⟨before, c, after, rfl, -, found⟩ := (faults e).mp done
    exact iff_of_false nofun fun fine => fine c (by simp) e found

/-- A run that begins with some checks goes on with others once those are passed. -/
theorem bind_eq_error_iff_firstFault {x : Except ε α} {next : α → Except ε β} {others : List γ}
    (first : ∀ e, x = .error e ↔ FirstFault fault checks e)
    (later : ∀ a, x = .ok a → (next a = .error e ↔ FirstFault fault others e)) :
    (x >>= next) = .error e ↔ FirstFault fault (checks ++ others) e := by
  rw [bind_eq_error_iff, firstFault_append_iff, ← exists_ok_iff_of_firstFault first, first]
  refine or_congr_right ?_
  constructor
  · rintro ⟨a, done, failed⟩
    exact ⟨⟨a, done⟩, (later a done).mp failed⟩
  · rintro ⟨⟨a, done⟩, failed⟩
    exact ⟨a, done, (later a done).mpr failed⟩

theorem bind_eq_error_iff_firstFault_cons {x : Except ε α} {next : α → Except ε β}
    (first : ∀ e, x = .error e ↔ fault c e)
    (later : ∀ a, x = .ok a → (next a = .error e ↔ FirstFault fault checks e)) :
    (x >>= next) = .error e ↔ FirstFault fault (c :: checks) e := by
  have single (e : ε) : x = .error e ↔ FirstFault fault [c] e := by
    rw [first, firstFault_singleton_iff]
  exact bind_eq_error_iff_firstFault single later

theorem pure_eq_error_iff_firstFault {a : α} :
    (pure a : Except ε α) = .error e ↔ FirstFault fault [] e :=
  iff_of_false nofun not_firstFault_nil

end

end Caseload
