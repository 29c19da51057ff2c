import Mathlib.Data.List.Basic
import Mathlib.Data.String.Basic
import Mathlib.Tactic.SplitIfs

/-!
# Texts as bytes

Texts are compared by their code points.  Comparing their bytes in UTF-8 comes to the same
(`compare_bytes`).  The bytes of two characters that differ also differ at some place before either
of them ends, and the first such place decides as the code points do (`diverges_utf8EncodeChar`);
so it does not matter what follows them.
-/

namespace Caseload.Text

/-- The bytes of a text in UTF-8. -/
def bytes (s : String) : List UInt8 :=
  s.toUTF8.data.toList

theorem bytes_eq_flatMap (s : String) : bytes s = s.toList.flatMap String.utf8EncodeChar := by
  conv_lhs => rw [bytes, ← String.ofList_toList (s := s), String.toUTF8_eq_toByteArray]
  exact List.toList_data_toByteArray

/-! ## Bytes of characters -/

/-- Both lists go on at the first place where they differ, and the first one has the smaller byte
there. -/
inductive Diverges : List UInt8 → List UInt8 → Prop
  | here {x y : UInt8} {s t : List UInt8} : x < y → Diverges (x :: s) (y :: t)
  | later {x : UInt8} {s t : List UInt8} : Diverges s t → Diverges (x :: s) (x :: t)

theorem compare_append (p s t : List UInt8) : compare (p ++ s) (p ++ t) = compare s t := by
  induction p with
  | nil => rfl
  | cons x p ih =>
    rw [List.compare_eq_compareLex] at ih ⊢
    rw [List.cons_append, List.cons_append, List.compareLex_cons_cons, ih,
      Std.ReflOrd.compare_self]
    rfl

theorem Diverges.compare_append {a b : List UInt8} (diverges : Diverges a b) (s t : List UInt8) :
    compare (a ++ s) (b ++ t) = .lt := by
  induction diverges with
  | @here x y _ _ lt =>
    have first : compare x y = .lt := compareOfLessAndEq_eq_lt.mpr lt
    rw [List.compare_eq_compareLex, List.cons_append, List.cons_append, List.compareLex_cons_cons,
      first]
    rfl
  | later _ ih => exact (Text.compare_append [_] _ _).trans ih

/-- Bytes that stand for numbers in order diverge, unless the numbers are equal. -/
theorem diverges_cons {m n : Nat} {s t : List UInt8} (le : m ≤ n) (bound : n < 256)
    (rest : m = n → Diverges s t) : Diverges (UInt8.ofNat m :: s) (UInt8.ofNat n :: t) := by
  by_cases eq : m = n
  · rw [eq]
    exact .later (rest eq)
  · refine .here ?_
    have size : UInt8.size = 256 := rfl
    rw [UInt8.ofNat_lt_iff_lt (by omega) (by omega)]
    omega

theorem toNat_lt (c : Char) : c.val.toNat < 0x110000 := by
  have valid := c.valid
  simp only [UInt32.isValidChar, Nat.isValidChar] at valid
  omega

theorem diverges_utf8EncodeChar {c d : Char} (lt : c < d) :
    Diverges (String.utf8EncodeChar c) (String.utf8EncodeChar d) := by
  have below : c.val.toNat < d.val.toNat := lt
  have bound : d.val.toNat < 0x110000 := toNat_lt d
  simp only [String.utf8EncodeChar]
  generalize c.val.toNat = m at below ⊢
  generalize d.val.toNat = n at below bound ⊢
  split_ifs
  -- the leading byte of a longer character is larger; of two with equally many bytes, the first
  -- digits that differ decide, and numbers without such digits would be equal
  all_goals repeat first
    | omega
    | refine diverges_cons (by omega) (by omega) fun same => ?_

/-! ## Bytes of texts -/

theorem compare_flatMap_of_lt {l m : List Char} (lt : List.Lex (· < ·) l m) :
    compare (l.flatMap String.utf8EncodeChar) (m.flatMap String.utf8EncodeChar) = .lt := by
  induction lt with
  | @nil c m =>
    obtain ⟨x, rest, spelled⟩ := List.exists_cons_of_ne_nil (String.utf8EncodeChar_ne_nil (c := c))
    simp [List.flatMap_cons, spelled]
  | @rel c l d m lt =>
    rw [List.flatMap_cons, List.flatMap_cons]
    exact (diverges_utf8EncodeChar lt).compare_append _ _
  | @cons c l m _ ih =>
    rw [List.flatMap_cons, List.flatMap_cons, compare_append, ih]

theorem compare_bytes_of_lt {a b : String} (lt : a < b) : compare (bytes a) (bytes b) = .lt := by
  rw [bytes_eq_flatMap, bytes_eq_flatMap]
  exact compare_flatMap_of_lt ((List.lt_iff_lex_lt _ _).mp lt)

/-- Texts compare as their bytes do. -/
theorem compare_bytes (a b : String) : compare (bytes a) (bytes b) = compare a b := by
  have forward : ∀ {a b : String}, a < b → compare (bytes a) (bytes b) = compare a b := by
    intro a b lt
    have text : compare a b = .lt := compareOfLessAndEq_eq_lt.mpr lt
    rw [compare_bytes_of_lt lt, text]
  rcases lt_trichotomy a b with lt | rfl | gt
  · exact forward lt
  · rw [Std.ReflOrd.compare_self, Std.ReflOrd.compare_self]
  · rw [Std.OrientedOrd.eq_swap, forward gt, ← Std.OrientedOrd.eq_swap]

end Caseload.Text
