import Caseload.Proofs.Signature.Product
import Mathlib.Data.Fintype.BigOperators
import Mathlib.Data.Fintype.Pi

/-!
# Signatures tell requests apart

What a request accepts can be read off its signatures, and counted, as long as no value has a colon
in it or is the star.  Then a signature is taken apart at its colons into the values that it was
made of (`join_injOn`), so the signatures are as many as the choices of one value from each
dimension, and the values of a dimension are what the signatures have at its place.

A dimension without values offers the star, and since the star is no value, what is offered tells
which values there are (`offered_eq_iff`).
-/

namespace Caseload

/-- What a signature tells of a task. -/
inductive Dimension
  | state
  | jurisdiction
  | roleCategory
  | workType
  | region
  | location
  deriving DecidableEq

namespace Dimension

/-- The dimensions in the order in which a signature has them. -/
def all : List Dimension :=
  [state, jurisdiction, roleCategory, workType, region, location]

theorem mem_all (d : Dimension) : d ∈ all := by
  cases d <;> simp [all]

instance : Fintype Dimension where
  elems := all.toFinset
  complete d := List.mem_toFinset.mpr d.mem_all

/-- One text for each dimension, joined by colons. -/
def join (chosen : Dimension → String) : String :=
  ":".intercalate (all.map chosen)

/-- The choices of texts without colons. -/
def colonFree : Set (Dimension → String) :=
  {chosen | ∀ d, ':' ∉ (chosen d).toList}

/-- Texts without colons are found again between the colons. -/
theorem join_injOn : Set.InjOn join colonFree := by
  intro chosen free others otherFree same
  have split (k : Dimension → String) (free : ∀ d, ':' ∉ (k d).toList) :
      (join k).toList.splitOn ':' = all.map fun d => (k d).toList := by
    have colon : ":".toList = [':'] := rfl
    rw [join, String.toList_intercalate, colon, List.map_map]
    apply List.splitOn_intercalate
    · intro chars mem
      obtain ⟨d, -, rfl⟩ := List.mem_map.mp mem
      exact free d
    · simp [all]
  have texts : (all.map fun d => (chosen d).toList) = all.map fun d => (others d).toList := by
    rw [← split chosen free, same, split others otherFree]
  funext d
  exact String.toList_inj.mp (List.map_inj_left.mp texts d d.mem_all)

end Dimension

namespace SearchRequest

/-- The texts that a request gives for a dimension, with letters for open states and for well-known
role categories, and nothing for other states. -/
def given (r : SearchRequest) : Dimension → List String
  | .state => r.states.filterMap TaskState.signature?
  | .jurisdiction => r.jurisdictions
  | .roleCategory => r.roleCategories.map roleCategorySignature
  | .workType => r.workTypes
  | .region => r.regions
  | .location => r.locations

/-- The values that a request accepts in a dimension; it accepts all if there are none. -/
def accepted (r : SearchRequest) (d : Dimension) : Finset String :=
  ((r.given d).toFinset.image Text.trim).erase ""

/-- The texts of a request that signatures take over have no colon, and none of them is the star
once it is trimmed. -/
def Unambiguous (r : SearchRequest) : Prop :=
  ∀ text ∈ r.jurisdictions ++ r.roleCategories ++ r.workTypes ++ r.regions ++ r.locations,
    ':' ∉ text.toList ∧ Text.trim text ≠ "*"

/-- What the signatures of a request choose from in a dimension. -/
def offered (r : SearchRequest) (d : Dimension) : Finset String :=
  if r.accepted d = ∅ then {"*"} else r.accepted d

variable {r u : SearchRequest} {d : Dimension} {s : String}

/-! ## What is offered -/

theorem mem_accepted : s ∈ r.accepted d ↔ s ∈ Text.nonBlanks (r.given d) := by
  simp [accepted, Text.mem_nonBlanks]

theorem mem_offered : s ∈ r.offered d ↔ s ∈ dimension (r.given d) := by
  have none : r.accepted d = ∅ ↔ Text.nonBlanks (r.given d) = [] := by
    simp only [Finset.eq_empty_iff_forall_notMem, mem_accepted, List.eq_nil_iff_forall_not_mem]
  rw [mem_dimension_iff, offered]
  by_cases empty : r.accepted d = ∅
  · simp [empty, none.mp empty]
  · simp [empty, mt none.mpr empty, mem_accepted]

theorem offered_nonempty (r : SearchRequest) (d : Dimension) : (r.offered d).Nonempty := by
  by_cases empty : r.accepted d = ∅
  · simp [offered, empty]
  · simpa [offered, empty] using Finset.nonempty_iff_ne_empty.mpr empty

theorem card_offered (r : SearchRequest) (d : Dimension) :
    (r.offered d).card = max 1 (r.accepted d).card := by
  by_cases empty : r.accepted d = ∅
  · simp [offered, empty]
  · have some := Finset.card_pos.mpr (Finset.nonempty_iff_ne_empty.mpr empty)
    simp only [offered, if_neg empty]
    omega

theorem mem_signatures_iff_join :
    s ∈ r.signatures ↔ ∃ chosen ∈ Fintype.piFinset r.offered, Dimension.join chosen = s := by
  have listed : r.dimensions = Dimension.all.map fun d => dimension (r.given d) := rfl
  rw [mem_signatures_iff_forall₂, listed]
  simp only [Fintype.mem_piFinset, mem_offered, List.forall₂_map_right_iff]
  constructor
  · rintro ⟨values, each, made⟩
    match values, each with
    | [state, jurisdiction, roleCategory, workType, region, location], each =>
      simp only [Dimension.all, List.forall₂_cons] at each
      obtain ⟨ofState, ofJurisdiction, ofCategory, ofWorkType, ofRegion, ofLocation, -⟩ := each
      refine ⟨fun
        | .state => state
        | .jurisdiction => jurisdiction
        | .roleCategory => roleCategory
        | .workType => workType
        | .region => region
        | .location => location, fun d => ?_, made⟩
      cases d <;> assumption
  · rintro ⟨chosen, each, made⟩
    refine ⟨Dimension.all.map chosen, ?_, made⟩
    exact List.forall₂_map_left_iff.mpr (List.forall₂_same.mpr fun d _ => each d)

/-! ## Taking signatures apart -/

section

variable (plain : r.Unambiguous)
include plain

theorem unambiguous_of_mem_given :
    ∀ text ∈ r.given d, ':' ∉ text.toList ∧ Text.trim text ≠ "*" := by
  intro text mem
  cases d with
  | state =>
    obtain ⟨state, -, letter⟩ := List.mem_filterMap.mp mem
    cases signature?_eq_some_iff.mp letter <;> decide
  | roleCategory =>
    obtain ⟨category, among, written⟩ := List.mem_map.mp mem
    cases categoryText_iff.mpr written with
    | other _ => exact plain text (by simp [among])
    | _ => decide
  | jurisdiction | workType | region | location =>
    apply plain text
    simp only [given] at mem
    simp [mem]

theorem colon_not_mem_of_mem_offered (mem : s ∈ r.offered d) : ':' ∉ s.toList := by
  cases mem_dimension.mp (mem_offered.mp mem) with
  | value given _ => exact mt (Text.trim_subset _ ·) (unambiguous_of_mem_given plain _ given).1
  | star _ => decide

theorem star_not_mem_accepted : "*" ∉ r.accepted d := by
  intro mem
  obtain ⟨-, text, given, star⟩ := Text.mem_nonBlanks.mp (mem_accepted.mp mem)
  exact (unambiguous_of_mem_given plain text given).2 star

theorem piFinset_offered_subset : ↑(Fintype.piFinset r.offered) ⊆ Dimension.colonFree := by
  intro chosen mem d
  exact colon_not_mem_of_mem_offered plain (Fintype.mem_piFinset.mp mem d)

end

theorem toFinset_signatures (r : SearchRequest) :
    r.signatures.toList.toFinset = (Fintype.piFinset r.offered).image Dimension.join := by
  ext s
  rw [List.mem_toFinset, Std.ExtTreeSet.mem_toList, mem_signatures_iff_join, Finset.mem_image]

/-- There is a signature for each choice of one value from each dimension. -/
theorem size_signatures (plain : r.Unambiguous) :
    r.signatures.size = ∏ d, max 1 (r.accepted d).card := by
  have nodup : r.signatures.toList.Nodup := by
    apply Std.ExtTreeSet.distinct_toList.imp
    rintro s _ different rfl
    exact different Std.ReflOrd.compare_self
  calc r.signatures.size
    _ = r.signatures.toList.toFinset.card := by
      rw [List.toFinset_card_of_nodup nodup, Std.ExtTreeSet.length_toList]
    _ = (Fintype.piFinset r.offered).card := by
      rw [toFinset_signatures, Finset.card_image_of_injOn
        (Dimension.join_injOn.mono (piFinset_offered_subset plain))]
    _ = ∏ d, max 1 (r.accepted d).card := by
      simp only [Fintype.card_piFinset, card_offered]

/-- A dimension offers the values that the choices have at its place. -/
theorem offered_eq_of_piFinset_eq (same : Fintype.piFinset r.offered = Fintype.piFinset u.offered)
    (d : Dimension) : r.offered d = u.offered d := by
  rw [← Fintype.eval_image_piFinset r.offered d fun e _ => r.offered_nonempty e, same,
    Fintype.eval_image_piFinset u.offered d fun e _ => u.offered_nonempty e]

theorem signatures_eq_iff_offered_eq (plain : r.Unambiguous) (other : u.Unambiguous) :
    r.signatures = u.signatures ↔ ∀ d, r.offered d = u.offered d := by
  constructor
  · intro same
    apply offered_eq_of_piFinset_eq
    have images := r.toFinset_signatures
    rw [same, toFinset_signatures, ← Finset.coe_inj, Finset.coe_image, Finset.coe_image,
      Dimension.join_injOn.image_eq_image_iff (piFinset_offered_subset other)
        (piFinset_offered_subset plain), Finset.coe_inj] at images
    exact images.symm
  · intro same
    apply Std.ExtTreeSet.ext_mem
    intro s
    rw [mem_signatures_iff_join, mem_signatures_iff_join, funext same]

theorem offered_eq_iff (plain : r.Unambiguous) (other : u.Unambiguous) :
    r.offered d = u.offered d ↔ r.accepted d = u.accepted d := by
  constructor
  · intro same
    by_cases none : r.accepted d = ∅ <;> by_cases none' : u.accepted d = ∅
    · rw [none, none']
    · have star : "*" ∈ u.accepted d := by simpa [offered, none, none'] using same.subset
      exact absurd star (star_not_mem_accepted other)
    · have star : "*" ∈ r.accepted d := by simpa [offered, none, none'] using same.superset
      exact absurd star (star_not_mem_accepted plain)
    · simpa [offered, none, none'] using same
  · intro same
    simp only [offered, same]

/-- Signatures tell requests apart.  Where no text has a colon or is the star, two requests have the
same signatures exactly if they accept the same values in each dimension, and a request has as many
signatures as there are choices of one value from each dimension that has any. -/
theorem signatures_tell_accepted_values (r u : SearchRequest) (plain : r.Unambiguous)
    (other : u.Unambiguous) :
    (r.signatures = u.signatures ↔ ∀ d, r.accepted d = u.accepted d) ∧
      r.signatures.size = ∏ d, max 1 (r.accepted d).card ∧
      u.signatures.size = ∏ d, max 1 (u.accepted d).card := by
  refine ⟨?_, size_signatures plain, size_signatures other⟩
  rw [signatures_eq_iff_offered_eq plain other]
  exact forall_congr' fun d => offered_eq_iff plain other

/-- A judge's letter stands for the category, and a completed task has none; without the second
location there are half as many signatures. -/
theorem signatures_of_two_locations :
    let r : SearchRequest :=
      { states := [.assigned, .completed, .unassigned], roleCategories := ["JUDICIAL", "J"],
        locations := ["765324", " 28827 "] }
    let u : SearchRequest :=
      { states := [.unassigned, .assigned], roleCategories := ["J"],
        locations := ["28827", "", "765324"] }
    let v : SearchRequest := { u with locations := ["765324"] }
    (r.Unambiguous ∧ u.Unambiguous ∧ v.Unambiguous) ∧
      r.signatures = u.signatures ∧ r.signatures ≠ v.signatures ∧
      r.signatures.size = 4 ∧ v.signatures.size = 2 := by
  intro r u v
  have plain : r.Unambiguous ∧ u.Unambiguous ∧ v.Unambiguous := by
    refine ⟨?_, ?_, ?_⟩ <;> (unfold Unambiguous; decide)
  obtain ⟨same, four, -⟩ := signatures_tell_accepted_values r u plain.1 plain.2.1
  obtain ⟨apart, -, two⟩ := signatures_tell_accepted_values r v plain.1 plain.2.2
  refine ⟨plain, same.mpr ?_, fun equal => ?_, four.trans ?_, two.trans ?_⟩
  · intro d
    cases d <;> decide
  · exact absurd (apart.mp equal .location) (by decide)
  · decide
  · decide

end SearchRequest

end Caseload
