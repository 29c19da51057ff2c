import Caseload.Proofs.Text.Trim
import Caseload.Signature
import Mathlib.Data.List.Forall2

/-!
# Signatures as choices

The signatures of a request are made by going through its dimensions and appending each value of
the next one to each beginning.  The empty text stands for the beginning at which nothing is chosen
yet, so no dimension may have it as a value (`ne_empty_of_mem_dimension`).  From beginnings that are
not empty, each step appends a colon and a value, and so the whole walk joins one value from each
dimension by colons (`mem_foldl_extendChoices`).

What a dimension offers is said without sets: a `Choice` is a trimmed value or, where none is left,
the star.
-/

namespace Caseload

variable {begun : List String} {d : TextSet} {ds : List TextSet} {s : String}

/-! ## The walk through the dimensions -/

theorem mem_extendChoices (some : "" ∉ begun) :
    s ∈ extendChoices begun d ↔ ∃ front ∈ begun, ∃ v ∈ d, front ++ ":" ++ v = s := by
  simp only [extendChoices, List.mem_flatMap, List.mem_map, Std.ExtTreeSet.mem_toList]
  refine exists_congr fun front => and_congr_right fun mem => ?_
  have begins : front ≠ "" := fun empty => some (empty ▸ mem)
  simp only [if_neg begins]

theorem extendChoices_start (d : TextSet) : extendChoices [""] d = d.toList := by
  simp [extendChoices]

theorem empty_not_mem_extendChoices (some : "" ∉ begun) : "" ∉ extendChoices begun d := by
  rw [mem_extendChoices some]
  rintro ⟨front, -, v, -, joined⟩
  have characters := congrArg String.toList joined
  simp at characters

theorem mem_foldl_extendChoices (some : "" ∉ begun) :
    s ∈ ds.foldl extendChoices begun ↔
      ∃ front ∈ begun, ∃ values, List.Forall₂ (fun v d => v ∈ d) values ds ∧
        ":".intercalate (front :: values) = s := by
  induction ds generalizing begun with
  | nil => simp
  | cons d ds ih =>
    have joined (front v : String) (values : List String) :
        ":".intercalate ((front ++ ":" ++ v) :: values) =
          ":".intercalate (front :: v :: values) := by
      rw [String.intercalate_cons_append, String.intercalate_cons_cons]
    rw [List.foldl_cons, ih (empty_not_mem_extendChoices some)]
    simp only [mem_extendChoices some, List.forall₂_cons_right_iff]
    constructor
    · rintro ⟨-, ⟨front, mem, v, chosen, rfl⟩, values, rest, made⟩
      exact ⟨front, mem, v :: values, ⟨v, values, chosen, rest, rfl⟩, joined .. ▸ made⟩
    · rintro ⟨front, mem, -, ⟨v, values, chosen, rest, rfl⟩, made⟩
      exact ⟨_, ⟨front, mem, v, chosen, rfl⟩, values, rest, (joined ..).trans made⟩

/-- Where the first dimension has no empty value, the walk makes all choices and nothing else. -/
theorem mem_choices (some : "" ∉ d) :
    s ∈ choices (d :: ds) ↔
      ∃ values, List.Forall₂ (fun v d => v ∈ d) values (d :: ds) ∧ ":".intercalate values = s := by
  have begun : "" ∉ d.toList := mt Std.ExtTreeSet.mem_toList.mp some
  rw [choices, List.foldl_cons, extendChoices_start, mem_foldl_extendChoices begun]
  simp only [Std.ExtTreeSet.mem_toList, List.forall₂_cons_right_iff]
  constructor
  · rintro ⟨v, chosen, values, rest, made⟩
    exact ⟨v :: values, ⟨v, values, chosen, rest, rfl⟩, made⟩
  · rintro ⟨-, ⟨v, values, chosen, rest, rfl⟩, made⟩
    exact ⟨v, chosen, values, rest, made⟩

/-! ## Dimensions -/

/-- What a dimension offers for some texts: one of them, trimmed, unless it is of blanks, or the
star if all of them are. -/
inductive Choice (given : String → Prop) : String → Prop
  | value {text : String} (mem : given text) (nonblank : Text.trim text ≠ "") :
    Choice given (Text.trim text)
  | star (none : ∀ text, given text → Text.trim text = "") : Choice given "*"

theorem Choice.ne_empty {given : String → Prop} (choice : Choice given s) : s ≠ "" := by
  cases choice with
  | value _ nonblank => exact nonblank
  | star _ => decide

theorem mem_ofList {values : List String} :
    s ∈ (Std.ExtTreeSet.ofList values : TextSet) ↔ s ∈ values := by
  rw [Std.ExtTreeSet.mem_ofList, List.contains_iff_mem]

theorem mem_dimension_iff {values : List String} :
    s ∈ dimension values ↔
      s ∈ Text.nonBlanks values ∨ Text.nonBlanks values = [] ∧ s = "*" := by
  unfold dimension
  split
  next none =>
    rw [mem_ofList, none]
    simp [wildcard]
  next some =>
    rw [mem_ofList]
    exact (or_iff_left fun otherwise => some otherwise.1).symm

theorem mem_dimension {values : List String} : s ∈ dimension values ↔ Choice (· ∈ values) s := by
  rw [mem_dimension_iff]
  constructor
  · rintro (mem | ⟨none, rfl⟩)
    · obtain ⟨nonblank, text, among, rfl⟩ := Text.mem_nonBlanks.mp mem
      exact .value among nonblank
    · exact .star (Text.nonBlanks_eq_nil_iff.mp none)
  · intro choice
    cases choice with
    | value among nonblank =>
      left
      exact Text.mem_nonBlanks.mpr ⟨nonblank, _, among, rfl⟩
    | star none =>
      right
      exact ⟨Text.nonBlanks_eq_nil_iff.mpr none, rfl⟩

theorem ne_empty_of_mem_dimension {values : List String} (mem : s ∈ dimension values) : s ≠ "" :=
  (mem_dimension.mp mem).ne_empty

/-- The letter of an open state. -/
inductive StateLetter : TaskState → String → Prop
  | assigned : StateLetter .assigned "A"
  | unassigned : StateLetter .unassigned "U"

theorem signature?_eq_some_iff {state : TaskState} :
    state.signature? = some s ↔ StateLetter state s := by
  constructor
  · intro found
    cases state <;> cases found
    · exact .assigned
    · exact .unassigned
  · rintro (_ | _) <;> rfl

/-- The role categories that have a letter. -/
def wellKnownCategories : List String :=
  ["JUDICIAL", "LEGAL_OPERATIONS", "ADMIN", "UNKNOWN"]

/-- How a role category is written: four have a letter, and any other stays as it is. -/
inductive CategoryText : String → String → Prop
  | judicial : CategoryText "JUDICIAL" "J"
  | legalOperations : CategoryText "LEGAL_OPERATIONS" "L"
  | admin : CategoryText "ADMIN" "A"
  | unknown : CategoryText "UNKNOWN" "U"
  | other {category : String} (other : category ∉ wellKnownCategories) :
    CategoryText category category

theorem roleCategorySignature_of_not_mem {category : String}
    (other : category ∉ wellKnownCategories) : roleCategorySignature category = category := by
  unfold roleCategorySignature
  split
  all_goals first
    | rfl
    | exact absurd (by decide) other

theorem categoryText_iff {category : String} :
    CategoryText category s ↔ roleCategorySignature category = s := by
  constructor
  · rintro (_ | _ | _ | _ | other)
    iterate 4 rfl
    exact roleCategorySignature_of_not_mem other
  · rintro rfl
    by_cases known : category ∈ wellKnownCategories
    · simp only [wellKnownCategories, List.mem_cons, List.not_mem_nil, or_false] at known
      obtain rfl | rfl | rfl | rfl := known
      · exact .judicial
      · exact .legalOperations
      · exact .admin
      · exact .unknown
    · rw [roleCategorySignature_of_not_mem known]
      exact .other known

/-! ## Signatures -/

/-- One text for each thing that a signature tells. -/
structure Selection where
  state : String
  jurisdiction : String
  roleCategory : String
  workType : String
  region : String
  location : String

namespace Selection

/-- The texts in the order in which a signature has them. -/
def parts (k : Selection) : List String :=
  [k.state, k.jurisdiction, k.roleCategory, k.workType, k.region, k.location]

/-- Each of the texts is a choice among what the request accepts, whatever the others are. -/
structure Of (k : Selection) (r : SearchRequest) : Prop where
  state : Choice (fun text => ∃ s ∈ r.states, StateLetter s text) k.state
  jurisdiction : Choice (· ∈ r.jurisdictions) k.jurisdiction
  roleCategory : Choice (fun text => ∃ c ∈ r.roleCategories, CategoryText c text) k.roleCategory
  workType : Choice (· ∈ r.workTypes) k.workType
  region : Choice (· ∈ r.regions) k.region
  location : Choice (· ∈ r.locations) k.location

theorem Of.ne_empty_of_mem {k : Selection} {r : SearchRequest} (of : k.Of r) :
    ∀ part ∈ k.parts, part ≠ "" := by
  simp only [parts, List.forall_mem_cons, List.not_mem_nil, false_implies, implies_true, and_true]
  exact ⟨of.state.ne_empty, of.jurisdiction.ne_empty, of.roleCategory.ne_empty,
    of.workType.ne_empty, of.region.ne_empty, of.location.ne_empty⟩

end Selection

namespace SearchRequest

variable {r : SearchRequest}

theorem forall₂_dimensions_iff {values : List String} :
    List.Forall₂ (fun v d => v ∈ d) values r.dimensions ↔
      ∃ k : Selection, k.Of r ∧ k.parts = values := by
  have states (v : String) : v ∈ dimension (r.states.filterMap TaskState.signature?) ↔
      Choice (fun text => ∃ s ∈ r.states, StateLetter s text) v := by
    rw [mem_dimension]
    simp only [List.mem_filterMap, signature?_eq_some_iff]
  have categories (v : String) : v ∈ dimension (r.roleCategories.map roleCategorySignature) ↔
      Choice (fun text => ∃ c ∈ r.roleCategories, CategoryText c text) v := by
    rw [mem_dimension]
    simp only [List.mem_map, categoryText_iff]
  constructor
  · intro each
    match values, each with
    | [_, _, _, _, _, _], .cons state (.cons jurisdiction (.cons roleCategory (.cons workType
        (.cons region (.cons location .nil))))) =>
      exact ⟨⟨_, _, _, _, _, _⟩, {
        state := (states _).mp state
        jurisdiction := mem_dimension.mp jurisdiction
        roleCategory := (categories _).mp roleCategory
        workType := mem_dimension.mp workType
        region := mem_dimension.mp region
        location := mem_dimension.mp location }, rfl⟩
  · rintro ⟨k, of, rfl⟩
    exact .cons ((states _).mpr of.state) (.cons (mem_dimension.mpr of.jurisdiction)
      (.cons ((categories _).mpr of.roleCategory) (.cons (mem_dimension.mpr of.workType)
        (.cons (mem_dimension.mpr of.region) (.cons (mem_dimension.mpr of.location) .nil)))))

theorem mem_signatures_iff_forall₂ :
    s ∈ r.signatures ↔ ∃ values, List.Forall₂ (fun v d => v ∈ d) values r.dimensions ∧
      ":".intercalate values = s := by
  have some : "" ∉ dimension (r.states.filterMap TaskState.signature?) :=
    fun mem => ne_empty_of_mem_dimension mem rfl
  rw [signatures, mem_ofList]
  exact mem_choices some

theorem mem_signatures_iff :
    s ∈ r.signatures ↔ ∃ k : Selection, k.Of r ∧ ":".intercalate k.parts = s := by
  rw [mem_signatures_iff_forall₂]
  constructor
  · rintro ⟨values, each, made⟩
    obtain ⟨k, of, rfl⟩ := forall₂_dimensions_iff.mp each
    exact ⟨k, of, made⟩
  · rintro ⟨k, of, made⟩
    exact ⟨k.parts, forall₂_dimensions_iff.mpr ⟨k, of, rfl⟩, made⟩

/-- The signatures of a request are the product of its dimensions: a text is a signature exactly
when it is one choice from each of them, joined by colons.  All six parts of a signature are there,
and none is empty. -/
theorem signatures_are_products (r : SearchRequest) :
    (∀ s, s ∈ r.signatures ↔ ∃ k : Selection, k.Of r ∧ ":".intercalate k.parts = s) ∧
      ∀ s ∈ r.signatures, ∃ parts : List String,
        parts.length = 6 ∧ (∀ part ∈ parts, part ≠ "") ∧ ":".intercalate parts = s := by
  refine ⟨fun s => mem_signatures_iff, fun s mem => ?_⟩
  obtain ⟨k, of, made⟩ := mem_signatures_iff.mp mem
  exact ⟨k.parts, rfl, of.ne_empty_of_mem, made⟩

/-- One of four signatures; a completed task has no letter, and nothing is said of work types. -/
theorem signature_of_unassigned_legal_task :
    let r : SearchRequest := {
      states := [.assigned, .unassigned, .completed]
      jurisdictions := ["IA"]
      roleCategories := ["LEGAL_OPERATIONS", "CTSC"]
      locations := [" 765324"] }
    let signature := "U:IA:L:*:*:765324"
    signature ∈ r.signatures ∧
      (∃ k : Selection, k.Of r ∧ ":".intercalate k.parts = signature) ∧
      ∃ parts : List String,
        parts.length = 6 ∧ (∀ part ∈ parts, part ≠ "") ∧ ":".intercalate parts = signature := by
  intro r signature
  have mem : signature ∈ r.signatures := by decide +kernel
  obtain ⟨product, six⟩ := signatures_are_products r
  exact ⟨mem, (product signature).mp mem, six signature mem⟩

end SearchRequest

end Caseload
