import Caseload.Proofs.Access.Monotone
import Caseload.Proofs.Signature.Product
import Mathlib.Logic.Relation

/-!
# Signatures of requests that are written differently

The same search can be asked for in many spellings: values in another order or more than once,
blanks around a value, values of blanks.  A dimension takes the same values from all of them, since
it looks only at which trimmed values there are (`dimension_eq_of_sameMembers`).

Role categories are the exception.  A well-known category gets its letter as it is given, before it
is trimmed, so blanks around it change the signatures.  Apart from these blanks the signatures are
canonical.
-/

namespace Caseload

/-! ## Spellings of lists -/

section
variable {α β : Type} {values others : List α}

theorem SameMembers.filterMap (same : SameMembers values others) (f : α → Option β) :
    SameMembers (values.filterMap f) (others.filterMap f) := by
  intro b
  rw [List.mem_filterMap, List.mem_filterMap]
  exact exists_congr fun a => and_congr_left' (same a)

theorem SameMembers.map (same : SameMembers values others) (f : α → β) :
    SameMembers (values.map f) (others.map f) := by
  intro b
  rw [List.mem_map, List.mem_map]
  exact exists_congr fun a => and_congr_left' (same a)

end

/-- A list of texts written otherwise: in any order and with any repetitions, with blanks around a
text other than the bare ones, or with one more text of blanks. -/
inductive Respelled (bare : List String) : List String → List String → Prop
  | rearranged {values others : List String} (same : SameMembers values others) :
    Respelled bare values others
  | surrounded {before after : List String} {text front back : String} (free : text ∉ bare)
    (blankFront : Text.OfBlanks front) (blankBack : Text.OfBlanks back) :
    Respelled bare (before ++ text :: after) (before ++ (front ++ text ++ back) :: after)
  | padded {before after : List String} {text : String} (blank : Text.OfBlanks text) :
    Respelled bare (before ++ after) (before ++ text :: after)

theorem Text.ofBlanks_space : Text.OfBlanks " " := by
  have all : " ".toList.all Text.isBlank = true := by decide
  exact List.all_eq_true.mp all

/-- The text has characters, and none of them is a blank. -/
structure Text.Solid (s : String) : Prop where
  nonempty : s ≠ ""
  solid : ∀ c ∈ s.toList, Text.isBlank c = false

theorem Text.solid_of_all {s : String} (nonempty : s ≠ "")
    (all : s.toList.all (fun c => !Text.isBlank c) = true) : Text.Solid s := by
  refine ⟨nonempty, ?_⟩
  intro c mem
  have solid := List.all_eq_true.mp all c mem
  rwa [Bool.not_eq_true'] at solid

theorem Text.Solid.eq_empty_of_blanks {s blanks : String} (solid : Text.Solid s)
    (blank : Text.OfBlanks blanks) (part : blanks.toList ⊆ s.toList) : blanks = "" := by
  rw [← String.toList_eq_nil_iff, List.eq_nil_iff_forall_not_mem]
  intro c mem
  have clash := (blank c mem).symm.trans (solid.solid c (part mem))
  cases clash

variable {bare values others : List String} {f : String → String}

/-- What is trimmed and kept of two spellings is the same, if the texts that are not bare are taken
as they are. -/
theorem Respelled.sameMembers (respelled : Respelled bare values others)
    (solid : ∀ name ∈ bare, Text.Solid name) (verbatim : ∀ text, text ∉ bare → f text = text) :
    SameMembers (Text.nonBlanks (values.map f)) (Text.nonBlanks (others.map f)) := by
  cases respelled with
  | rearranged same => exact (same.map f).filterMap Text.nonBlank?
  | @surrounded before after text front back free blankFront blankBack =>
    have stillFree : front ++ text ++ back ∉ bare := by
      intro named
      have noFront : front = "" := by
        apply (solid _ named).eq_empty_of_blanks blankFront
        intro c mem
        simp [mem]
      have noBack : back = "" := by
        apply (solid _ named).eq_empty_of_blanks blankBack
        intro c mem
        simp [mem]
      rw [noFront, noBack, String.empty_append, String.append_empty] at named
      exact free named
    have trimmed : Text.trim (f (front ++ text ++ back)) = Text.trim (f text) := by
      rw [verbatim _ stillFree, verbatim _ free, Text.trim_surround blankFront blankBack]
    intro v
    simp only [Text.nonBlanks_eq_filter, List.map_append, List.map_cons, trimmed]
  | @padded before after text blank =>
    have free : text ∉ bare := by
      intro named
      exact (solid text named).nonempty
        ((solid text named).eq_empty_of_blanks blank (List.Subset.refl _))
    intro v
    simp [Text.nonBlanks_eq_filter, verbatim text free, Text.trim_of_blanks blank]

/-! ## Dimensions -/

theorem dimension_eq_of_sameMembers
    (same : SameMembers (Text.nonBlanks values) (Text.nonBlanks others)) :
    dimension values = dimension others := by
  have nil_iff : Text.nonBlanks values = [] ↔ Text.nonBlanks others = [] := by
    simp only [List.eq_nil_iff_forall_not_mem, same _]
  apply Std.ExtTreeSet.ext_mem
  intro s
  rw [mem_dimension_iff, mem_dimension_iff, same s, nil_iff]

theorem Respelled.dimension_eq (respelled : Respelled [] values others) :
    dimension values = dimension others := by
  apply dimension_eq_of_sameMembers
  have same := respelled.sameMembers (f := id) (by simp) (by simp)
  rwa [List.map_id, List.map_id] at same

theorem solid_of_mem_wellKnownCategories : ∀ name ∈ wellKnownCategories, Text.Solid name := by
  simp only [wellKnownCategories, List.forall_mem_cons, List.not_mem_nil, false_implies,
    implies_true, and_true]
  refine ⟨?_, ?_, ?_, ?_⟩
  all_goals exact Text.solid_of_all (by decide) (by decide)

theorem Respelled.categories_eq (respelled : Respelled wellKnownCategories values others) :
    dimension (values.map roleCategorySignature) = dimension (others.map roleCategorySignature) :=
  dimension_eq_of_sameMembers (respelled.sameMembers solid_of_mem_wellKnownCategories
    fun _ => roleCategorySignature_of_not_mem)

/-! ## Requests -/

namespace SearchRequest

/-- A request written otherwise in one of its lists, or with other values in what signatures do not
tell; `bare` are the role categories around which no blanks are put. -/
inductive Rewritten (bare : List String) (r : SearchRequest) : SearchRequest → Prop
  | states {states : List TaskState} (same : SameMembers r.states states) :
    Rewritten bare r { r with states }
  | jurisdictions {jurisdictions : List String}
    (respelled : Respelled [] r.jurisdictions jurisdictions) :
    Rewritten bare r { r with jurisdictions }
  | roleCategories {roleCategories : List String}
    (respelled : Respelled bare r.roleCategories roleCategories) :
    Rewritten bare r { r with roleCategories }
  | workTypes {workTypes : List String} (respelled : Respelled [] r.workTypes workTypes) :
    Rewritten bare r { r with workTypes }
  | regions {regions : List String} (respelled : Respelled [] r.regions regions) :
    Rewritten bare r { r with regions }
  | locations {locations : List String} (respelled : Respelled [] r.locations locations) :
    Rewritten bare r { r with locations }
  | untold {caseIds users taskTypes taskIds : List String} {sorting : List SortInstruction} :
    Rewritten bare r { r with caseIds, users, taskTypes, taskIds, sorting }

variable {r u : SearchRequest}

theorem dimensions_eq_of_rewritten (rewritten : r.Rewritten wellKnownCategories u) :
    r.dimensions = u.dimensions := by
  cases rewritten with
  | states same =>
    have letters := dimension_eq_of_sameMembers
      ((same.filterMap TaskState.signature?).filterMap Text.nonBlank?)
    simp only [dimensions, letters]
  | roleCategories respelled => simp only [dimensions, respelled.categories_eq]
  | jurisdictions respelled | workTypes respelled | regions respelled | locations respelled =>
    simp only [dimensions, respelled.dimension_eq]
  | untold => rfl

/-- However often a request is written otherwise, its signatures stay the same, as long as no blanks
are put around a well-known role category. -/
theorem signatures_eq_of_rewritten
    (rewritten : Relation.ReflTransGen (Rewritten wellKnownCategories) r u) :
    r.signatures = u.signatures := by
  induction rewritten with
  | refl => rfl
  | tail _ step ih =>
    rw [ih, signatures, signatures, dimensions_eq_of_rewritten step]

/-- The states in another order, one of them twice, and a role category behind a text of blanks and
with a blank in front. -/
theorem signatures_of_untidy_request :
    let tidy : SearchRequest :=
      { states := [.assigned, .unassigned], roleCategories := ["ADMIN", "CTSC"] }
    let untidy : SearchRequest :=
      { states := [.unassigned, .assigned, .unassigned], roleCategories := ["ADMIN", " ", " CTSC"],
        caseIds := ["1"] }
    Relation.ReflTransGen (Rewritten wellKnownCategories) tidy untidy ∧
      tidy.signatures = untidy.signatures := by
  intro tidy untidy
  have states : SameMembers [TaskState.assigned, .unassigned]
      [.unassigned, .assigned, .unassigned] := by
    intro s
    cases s <;> decide
  have front : Respelled wellKnownCategories ["ADMIN", "CTSC"] ["ADMIN", " CTSC"] :=
    @Respelled.surrounded _ ["ADMIN"] [] "CTSC" " " "" (by decide) Text.ofBlanks_space nofun
  have blank : Respelled wellKnownCategories ["ADMIN", " CTSC"] ["ADMIN", " ", " CTSC"] :=
    @Respelled.padded _ ["ADMIN"] [" CTSC"] " " Text.ofBlanks_space
  have steps : Relation.ReflTransGen (Rewritten wellKnownCategories) tidy untidy :=
    ((Relation.ReflTransGen.single (.states states)).tail (.roleCategories front)).tail
      (.roleCategories blank) |>.tail .untold
  exact ⟨steps, signatures_eq_of_rewritten steps⟩

/-- A well-known role category with blanks around it is another one. -/
theorem surrounded_category_has_other_signatures :
    let plain : SearchRequest := { roleCategories := ["JUDICIAL"] }
    let surrounded : SearchRequest := { roleCategories := [" JUDICIAL "] }
    plain.Rewritten [] surrounded ∧
      plain.signatures.toList = ["*:*:J:*:*:*"] ∧
      surrounded.signatures.toList = ["*:*:JUDICIAL:*:*:*"] ∧
      plain.signatures ≠ surrounded.signatures := by
  intro plain surrounded
  have told : plain.signatures.toList = ["*:*:J:*:*:*"] := by decide +kernel
  have otherwise : surrounded.signatures.toList = ["*:*:JUDICIAL:*:*:*"] := by decide +kernel
  refine ⟨?_, told, otherwise, ?_⟩
  · have blanks : Respelled [] ["JUDICIAL"] [" JUDICIAL "] :=
      @Respelled.surrounded _ [] [] "JUDICIAL" " " " " nofun Text.ofBlanks_space Text.ofBlanks_space
    exact .roleCategories blanks
  · intro same
    rw [same, otherwise] at told
    exact absurd told (by decide)

end SearchRequest

end Caseload
