import Caseload.Json.Record
import Caseload.Proofs.Error.FirstFailure
import Mathlib.Data.List.Nodup

/-!
# Records with fields left out

A record may lack some of its fields; which ones may depend on what they hold.  `Json.Thins` is
the relation between a record and what is left of it without some such fields.  A decoder that
takes for each missing field what it stands for reads the same thing from both.  `Record.Kept`
says what the decoder finds in place of one field, and there is one lemma about it for each way of
reading a field.
-/

namespace Caseload.Json

/-! ## Lists of fields -/

section Fields

variable {β : Type} {fields : List (String × β)} {f : String × β}

theorem lookup_eq_some_of_mem (distinct : (fields.map Prod.fst).Nodup) (mem : f ∈ fields) :
    fields.lookup f.1 = some f.2 := by
  induction fields with
  | nil => cases mem
  | cons first rest ih =>
    obtain ⟨fresh, distinct⟩ := List.nodup_cons.mp distinct
    rcases List.mem_cons.mp mem with rfl | mem
    · exact List.lookup_cons_self
    · have other : (f.1 == first.1) = false :=
        beq_eq_false_iff_ne.mpr fun same => fresh (List.mem_map.mpr ⟨f, mem, same⟩)
      rw [List.lookup_cons, other]
      exact ih distinct mem

theorem lookup_eq_none_of_not_mem {key : String} (absent : key ∉ fields.map Prod.fst) :
    fields.lookup key = none := by
  rw [List.lookup_eq_none_iff]
  intro f mem
  exact bne_iff_ne.mpr fun same => absent (List.mem_map.mpr ⟨f, mem, same.symm⟩)

/-- Where names are distinct, leaving fields out does not change what the others hold. -/
theorem lookup_filter (distinct : (fields.map Prod.fst).Nodup) (mem : f ∈ fields)
    (keep : String × β → Bool) :
    (fields.filter keep).lookup f.1 = if keep f then some f.2 else none := by
  have sub : (fields.filter keep).Sublist fields := List.filter_sublist
  split
  next kept =>
    exact lookup_eq_some_of_mem (distinct.sublist (sub.map _)) (List.mem_filter.mpr ⟨mem, kept⟩)
  next dropped =>
    -- a field of this name that is kept would be the very field that is not
    refine lookup_eq_none_of_not_mem fun found => ?_
    obtain ⟨g, mem_g, same⟩ := List.mem_map.mp found
    obtain ⟨mem_g, kept⟩ := List.mem_filter.mp mem_g
    obtain rfl := List.inj_on_of_nodup_map distinct mem_g mem same
    exact dropped kept

end Fields

/-! ## Leaving out and replacing fields -/

variable {name : String} {mayLack : String → Json → Prop}

theorem ofEntries_injective : Function.Injective ofEntries := by
  intro fields others same
  refine List.map_injective_iff.mpr (fun f g same => ?_) (Json.object.inj same)
  obtain ⟨key, value⟩ := Prod.mk.inj same
  exact Prod.ext (Option.some.inj key) value

/-- The object with another value in the field of this name, if it has one. -/
def setField (name : String) (value : Json) : Json → Json
  | .object entries =>
    .object (entries.map fun e => if e.1 = some name then (some name, value) else e)
  | v => v

theorem setField_ofEntries (value : Json) (fields : List (String × Json)) :
    setField name value (.ofEntries fields) =
      .ofEntries (fields.map fun f => if f.1 = name then (name, value) else f) := by
  simp only [setField, ofEntries, List.map_map]
  congr 2
  funext f
  by_cases same : f.1 = name <;> simp [same]

/-- The second record is the first one without some of its fields, each of which may be
lacking. -/
def Thins (mayLack : String → Json → Prop) (v w : Json) : Prop :=
  ∃ (fields : List (String × Json)) (keep : String × Json → Bool),
    v = .ofEntries fields ∧ w = .ofEntries (fields.filter keep) ∧
      ∀ f ∈ fields, keep f = false → mayLack f.1 f.2

/-- Nothing has to be left out. -/
theorem thins_refl (fields : List (String × Json)) :
    Thins mayLack (.ofEntries fields) (.ofEntries fields) :=
  ⟨fields, fun _ => true, rfl, by rw [List.filter_true], by simp⟩

namespace Record

variable {r : Record}

/-- What is found in place of the field `name` that holds `x`: the field, or nothing if it may be
lacking. -/
def Kept (r : Record) (mayLack : String → Json → Prop) (name : String) (x : Json) : Prop :=
  r.get? name = some x ∨ r.get? name = none ∧ mayLack name x

theorem ofJson?_ofEntries {names : List String} {fields : List (String × Json)}
    (distinct : names.Nodup) (known : (fields.map Prod.fst).Sublist names) :
    ofJson? names (.ofEntries fields) = some ⟨fields⟩ := by
  have read : (fields.map fun f => (some f.1, f.2)).mapM
      (fun e : Option String × Json => e.1.map (·, e.2)) = some fields :=
    mapM_map_eq_self (by intro f; rfl) fields
  have all : fields.filter (fun f => names.contains f.1) = fields :=
    List.filter_eq_self.mpr fun f mem => by
      simpa using known.subset (List.mem_map_of_mem mem)
  simp only [ofJson?, ofEntries, read, all, Option.bind_eq_bind, Option.bind_some,
    if_pos (distinct.sublist known)]

/-- A record without some fields is read as a record in which each field is kept. -/
theorem exists_kept_of_thins {names : List String} {fields : List (String × Json)} {w : Json}
    (distinct : names.Nodup) (all : fields.map Prod.fst = names)
    (thins : Thins mayLack (.ofEntries fields) w) :
    ∃ r, ofJson? names w = some r ∧ ∀ f ∈ fields, r.Kept mayLack f.1 f.2 := by
  obtain ⟨same, keep, eq, rfl, lacking⟩ := thins
  obtain rfl := ofEntries_injective eq
  subst all
  refine ⟨⟨fields.filter keep⟩, ofJson?_ofEntries distinct (List.filter_sublist.map _), ?_⟩
  intro f mem
  have found := lookup_filter distinct mem keep
  cases kept : keep f with
  | true =>
    rw [kept, if_pos rfl] at found
    exact .inl found
  | false =>
    rw [kept, if_neg Bool.false_ne_true] at found
    exact .inr ⟨found, lacking f mem kept⟩

namespace Kept

variable {α : Type} {decode : Decoder α} {x : Json}

theorem required? {a : α} (kept : r.Kept mayLack name x) (needed : ¬mayLack name x)
    (decoded : decode x = some a) : r.required? name decode = some a := by
  rcases kept with found | ⟨-, lacking⟩
  · simp [Record.required?, found, decoded]
  · exact absurd lacking needed

theorem withDefault? {a default : α} (kept : r.Kept mayLack name x)
    (decoded : decode x = some a) (missing : mayLack name x → a = default) :
    r.withDefault? name default decode = some a := by
  rcases kept with found | ⟨absent, lacking⟩
  · simp [Record.withDefault?, found, decoded]
  · simp [Record.withDefault?, absent, missing lacking]

theorem optional? {o : Option α} (kept : r.Kept mayLack name x)
    (decoded : option? decode x = some o) (missing : mayLack name x → x = .null) :
    r.optional? name decode = some o := by
  refine kept.withDefault? decoded fun lacking => ?_
  rw [missing lacking] at decoded
  exact (Option.some.inj decoded).symm

end Kept

end Record

/-! ## Decoders undo encoders -/

variable {α : Type} {encode : α → Json} {decode : Decoder α}

theorem option?_ofOption (present : ∀ a, encode a ≠ .null)
    (each : ∀ a, decode (encode a) = some a) (o : Option α) :
    option? decode (ofOption encode o) = some o := by
  cases o with
  | none => rfl
  | some a => rw [ofOption, option?.eq_2 _ _ (present a), each, Option.map_some]

theorem texts?_ofTexts (texts : List String) : texts? (ofTexts texts) = some texts :=
  mapM_map_eq_self (by intro s; rfl) texts

theorem entries?_ofEntries (each : ∀ a, decode (encode a) = some a) (entries : List (String × α)) :
    entries? decode (.ofEntries (entries.map fun e => (e.1, encode e.2))) = some entries := by
  simp only [ofEntries, entries?, List.map_map]
  exact mapM_map_eq_self (fun e => by simp [each]) entries

theorem int32?_toInt (n : Int32) : int32? (.integer n.toInt) = some n := by
  rw [int32?, if_pos ⟨n.minValue_le_toInt, n.toInt_le⟩, Int32.ofInt_toInt]

end Caseload.Json
