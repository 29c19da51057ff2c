import Caseload.Proofs.Json.Printing
import Caseload.Task.Json

/-!
# Records as documents

What a record is written as is plain, so it can be printed and read back.
-/

namespace Caseload

namespace Json.Plain

variable {α : Type} {encode : α → Json}

theorem ofOption (each : ∀ a, (encode a).Plain) (o : Option α) :
    (Json.ofOption encode o).Plain := by
  cases o with
  | none => exact .null
  | some a => exact each a

theorem ofList (each : ∀ a, (encode a).Plain) (items : List α) : (Json.ofList encode items).Plain :=
  .array (List.forall_mem_map.mpr fun a _ => each a)

theorem ofTexts (texts : List String) : (Json.ofTexts texts).Plain :=
  ofList .text texts

end Json.Plain

open Json (Plain)

theorem Instant.plain_toJson (i : Instant) : i.toJson.Plain :=
  .text _

theorem RoleRow.plain_toJson (row : RoleRow) : row.toJson.Plain := by
  refine .object ?_
  simp only [List.forall_mem_cons, List.not_mem_nil, IsEmpty.forall_iff, implies_true, and_true]
  exact ⟨.text _, .ofOption .text _, .bool _, .bool _, .bool _, .bool _, .bool _, .bool _, .bool _,
    .bool _, .bool _, .bool _, .ofOption .ofTexts _⟩

theorem Task.plain_toJson (t : Task) : t.toJson.Plain := by
  refine .object ?_
  simp only [List.forall_mem_cons, List.not_mem_nil, IsEmpty.forall_iff, implies_true, and_true]
  have text (o : Option String) : (Json.ofOption .text o).Plain := .ofOption .text o
  have instant (o : Option Instant) : (Json.ofOption Instant.toJson o).Plain :=
    .ofOption Instant.plain_toJson o
  have number (o : Option Int32) : (Json.ofOption (fun n => .integer n.toInt) o).Plain :=
    .ofOption (fun _ => .integer _) o
  exact ⟨.text _, .text _, .text _, .text _, .text _, text _, text _, text _, .text _, .text _,
    text _, text _, text _, text _, text _, .text _, text _, instant _, instant _, number _,
    number _, instant _, instant _, .ofList RoleRow.plain_toJson _⟩

theorem TaskSummary.plain_toJson (s : TaskSummary) : s.toJson.Plain := by
  refine .object ?_
  simp only [List.forall_mem_cons, List.not_mem_nil, IsEmpty.forall_iff, implies_true, and_true]
  have instant (o : Option Instant) : (Json.ofOption Instant.toJson o).Plain :=
    .ofOption Instant.plain_toJson o
  have number (o : Option Int32) : (Json.ofOption (fun n => .integer n.toInt) o).Plain :=
    .ofOption (fun _ => .integer _) o
  exact ⟨.text _, .text _, .text _, .text _, .text _, .ofOption .text _, number _, instant _,
    number _, instant _⟩

end Caseload
