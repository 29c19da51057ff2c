import Caseload.Proofs.Access.Decision

/-!
# Less limited roles and wider filters

A role assignment can be limited less: by a higher level, by one attribute fewer, by a longer time,
by one more authorisation.  Whichever it is, what the role lets its holder see stays in sight
(`RoleAssignment.Eased.within`).  The filters of a search accept more when their lists grow, except
that an empty list, which accepts everything, must stay as it is.
-/

namespace Caseload

/-! ## Roles -/

namespace RoleAssignment

/-- One way in which a role assignment can be limited less. -/
inductive Eased (a : RoleAssignment) : RoleAssignment → Prop
  | raise {level : Classification} (le : a.classification ≤ level) :
      Eased a { a with classification := level }
  /-- An attribute is replaced by blanks. -/
  | blank {key text : String} (blanks : Text.trim text = "") :
      Eased a { a with attributes := a.attributes.insert key text }
  | remove {key : String} : Eased a { a with attributes := a.attributes.erase key }
  | dropBegin : Eased a { a with begins := none }
  | beginEarlier {old new : Instant} (begins : a.begins = some old) (le : ¬ old < new) :
      Eased a { a with begins := some new }
  | dropEnd : Eased a { a with ends := none }
  | endLater {old new : Instant} (ends : a.ends = some old) (le : ¬ new < old) :
      Eased a { a with ends := some new }
  | authorise {text : String} :
      Eased a { a with authorisations := some ((a.authorisations.getD ∅).insert text) }

/-- A role assignment that limits its holder in nothing more than another one does. -/
structure Within (a b : RoleAssignment) : Prop where
  role : a.role = b.role
  grant : a.grant = b.grant
  level : a.classification ≤ b.classification
  inForce : ∀ now, a.InForce now → b.InForce now
  confines : ∀ key value, a.Confines key value → b.Confines key value
  unlocks : ∀ row, a.Unlocks row → b.Unlocks row

variable {a b : RoleAssignment} {t : Task} {row : RoleRow} {now : Instant}

namespace Within

theorem refl (a : RoleAssignment) : a.Within a where
  role := rfl
  grant := rfl
  level := Nat.le_refl _
  inForce _ inForce := inForce
  confines _ _ confines := confines
  unlocks _ unlocks := unlocks

theorem confinesTask (within : a.Within b) (confined : a.ConfinesTask t) : b.ConfinesTask t where
  caseType := within.confines _ _ confined.caseType
  region := within.confines _ _ confined.region
  jurisdiction := within.confines _ _ confined.jurisdiction
  baseLocation := within.confines _ _ confined.baseLocation
  caseId := within.confines _ _ confined.caseId

theorem reaches (within : a.Within b) (reaches : a.Reaches t row) : b.Reaches t row := by
  have same := within.grant
  cases reaches with
  | unguarded grant confined unguarded =>
    exact .unguarded (same ▸ grant) (within.confinesTask confined) unguarded
  | challenged grant confined authorised =>
    exact .challenged (same ▸ grant) (within.confinesTask confined)
      (authorised.imp_right (within.unlocks row))
  | excluded grant confined =>
    exact .excluded (same ▸ grant) (within.confines _ _ confined)

theorem sees (within : a.Within b) (sees : a.Sees now t row) : b.Sees now t row where
  inForce := within.inForce now sees.inForce
  covers := {
    role := within.role ▸ sees.covers.role
    level := Nat.le_trans sees.covers.level within.level
    reaches := within.reaches sees.covers.reaches }

end Within

/-- Limiting a role less hides nothing from its holder. -/
theorem Eased.within (eased : a.Eased b) : a.Within b := by
  cases eased with
  | raise le => exact { Within.refl a with level := le }
  | @blank key text blanks =>
    refine { Within.refl a with confines := fun other value confines limit kept nonblank => ?_ }
    by_cases same : key = other.key
    · -- the attribute that is replaced is no limit any more
      subst same
      obtain rfl : text = limit := by simpa using kept
      exact absurd blanks nonblank
    · refine confines limit ?_ nonblank
      simpa [Std.ExtTreeMap.getElem?_insert, same] using kept
  | @remove key =>
    refine { Within.refl a with confines := fun other value confines limit kept nonblank => ?_ }
    refine confines limit ?_ nonblank
    simp only [Std.ExtTreeMap.getElem?_erase] at kept
    split at kept
    · cases kept
    · exact kept
  | dropBegin =>
    exact { Within.refl a with inForce := fun now inForce => ⟨by simp, inForce.2⟩ }
  | beginEarlier begins le =>
    refine { Within.refl a with inForce := fun now inForce => ⟨?_, inForce.2⟩ }
    rintro _ ⟨⟩
    exact Int.lt_of_le_of_lt (Int.not_lt.mp le) (inForce.1 _ begins)
  | dropEnd =>
    exact { Within.refl a with inForce := fun now inForce => ⟨inForce.1, by simp⟩ }
  | endLater ends le =>
    refine { Within.refl a with inForce := fun now inForce => ⟨inForce.1, ?_⟩ }
    rintro _ ⟨⟩
    exact Int.lt_of_lt_of_le (inForce.2 _ ends) (Int.not_lt.mp le)
  | authorise =>
    refine { Within.refl a with unlocks := fun row unlocks => ?_ }
    obtain ⟨asked, held, text, guarded, kept, mem, nonblank, wanted⟩ := unlocks
    refine ⟨asked, _, text, guarded, rfl, ?_, nonblank, wanted⟩
    rw [kept]
    exact Std.ExtTreeSet.mem_insert.mpr (.inr mem)

end RoleAssignment

/-! ## Filters -/

/-- A list that accepts what another one accepts: it has all its values, and it is empty only where
the other one is. -/
structure Loosens {α : Type} (values more : List α) : Prop where
  subset : values ⊆ more
  isEmpty_eq : values.isEmpty = more.isEmpty

theorem Loosens.refl {α : Type} (values : List α) : Loosens values values :=
  ⟨List.Subset.refl _, rfl⟩

theorem Loosens.accepted {α : Type} {values more : List α} (loosens : Loosens values more)
    {value : Option α} (accepted : Accepted values value) : Accepted more value := by
  obtain nothing | ⟨v, mem, found⟩ := accepted
  · left
    simpa [nothing] using loosens.isEmpty_eq
  · exact .inr ⟨v, loosens.subset mem, found⟩

theorem subset_append_cons {α : Type} (before : List α) (v : α) (after : List α) :
    before ++ after ⊆ before ++ v :: after :=
  ((List.Sublist.refl before).append (List.sublist_cons_self v after)).subset

/-- The same list, or the list with one more value somewhere; nothing is added to an empty list. -/
def Extended {α : Type} (values more : List α) : Prop :=
  values = more ∨
    ∃ before v after, values = before ++ after ∧ more = before ++ v :: after ∧ values ≠ []

theorem Extended.loosens {α : Type} {values more : List α} (extended : Extended values more) :
    Loosens values more := by
  obtain rfl | ⟨before, v, after, rfl, rfl, nonempty⟩ := extended
  · exact .refl _
  · refine ⟨subset_append_cons before v after, ?_⟩
    rw [List.isEmpty_eq_false_iff.mpr nonempty]
    simp

/-- Lists with the same members, whatever their order and however often each member occurs. -/
def SameMembers {α : Type} (values others : List α) : Prop :=
  ∀ v, v ∈ values ↔ v ∈ others

theorem SameMembers.symm {α : Type} {values others : List α} (same : SameMembers values others) :
    SameMembers others values :=
  fun v => (same v).symm

theorem SameMembers.loosens {α : Type} {values others : List α}
    (same : SameMembers values others) : Loosens values others := by
  refine ⟨fun v => (same v).mp, ?_⟩
  rw [Bool.eq_iff_iff, List.isEmpty_iff, List.isEmpty_iff, List.eq_nil_iff_forall_not_mem,
    List.eq_nil_iff_forall_not_mem]
  exact forall_congr' fun v => not_congr (same v)

namespace SearchRequest

/-- Requests with the same sorting whose lists of accepted values are related one by one. -/
structure Related (rel : {α : Type} → List α → List α → Prop) (r u : SearchRequest) : Prop where
  jurisdictions : rel r.jurisdictions u.jurisdictions
  states : rel r.states u.states
  locations : rel r.locations u.locations
  regions : rel r.regions u.regions
  caseIds : rel r.caseIds u.caseIds
  users : rel r.users u.users
  workTypes : rel r.workTypes u.workTypes
  roleCategories : rel r.roleCategories u.roleCategories
  taskTypes : rel r.taskTypes u.taskTypes
  taskIds : rel r.taskIds u.taskIds
  sorting : r.sorting = u.sorting

variable {r u : SearchRequest}

theorem Related.refl {rel : {α : Type} → List α → List α → Prop}
    (each : ∀ {α : Type} (l : List α), rel l l) (r : SearchRequest) : r.Related rel r where
  jurisdictions := each _
  states := each _
  locations := each _
  regions := each _
  caseIds := each _
  users := each _
  workTypes := each _
  roleCategories := each _
  taskTypes := each _
  taskIds := each _
  sorting := rfl

theorem Related.mono {rel other : {α : Type} → List α → List α → Prop} (related : r.Related rel u)
    (weaker : ∀ {α : Type} {l m : List α}, rel l m → other l m) : r.Related other u where
  jurisdictions := weaker related.jurisdictions
  states := weaker related.states
  locations := weaker related.locations
  regions := weaker related.regions
  caseIds := weaker related.caseIds
  users := weaker related.users
  workTypes := weaker related.workTypes
  roleCategories := weaker related.roleCategories
  taskTypes := weaker related.taskTypes
  taskIds := weaker related.taskIds
  sorting := related.sorting

theorem Related.flip {rel : {α : Type} → List α → List α → Prop} (related : r.Related rel u) :
    u.Related (fun l m => rel m l) r where
  jurisdictions := related.jurisdictions
  states := related.states
  locations := related.locations
  regions := related.regions
  caseIds := related.caseIds
  users := related.users
  workTypes := related.workTypes
  roleCategories := related.roleCategories
  taskTypes := related.taskTypes
  taskIds := related.taskIds
  sorting := related.sorting.symm

theorem Related.accepts (loosens : r.Related Loosens u) {t : Task} (accepts : r.Accepts t) :
    u.Accepts t where
  jurisdiction := loosens.jurisdictions.accepted accepts.jurisdiction
  state := loosens.states.accepted accepts.state
  location := loosens.locations.accepted accepts.location
  region := loosens.regions.accepted accepts.region
  caseId := loosens.caseIds.accepted accepts.caseId
  user := loosens.users.accepted accepts.user
  workType := loosens.workTypes.accepted accepts.workType
  roleCategory := loosens.roleCategories.accepted accepts.roleCategory
  taskType := loosens.taskTypes.accepted accepts.taskType
  taskId := loosens.taskIds.accepted accepts.taskId

theorem Related.hasFilter_eq (loosens : r.Related Loosens u) : r.hasFilter = u.hasFilter := by
  simp only [hasFilter, loosens.jurisdictions.isEmpty_eq, loosens.states.isEmpty_eq,
    loosens.locations.isEmpty_eq, loosens.regions.isEmpty_eq, loosens.caseIds.isEmpty_eq,
    loosens.users.isEmpty_eq, loosens.workTypes.isEmpty_eq, loosens.roleCategories.isEmpty_eq,
    loosens.taskTypes.isEmpty_eq, loosens.taskIds.isEmpty_eq]

end SearchRequest

end Caseload
