import Caseload.Text.Digits
import Mathlib.Algebra.Group.Nat.Defs
import Mathlib.Data.List.Basic
import Mathlib.Data.List.TakeWhile

/-!
# Decimal digits

What is written in digits reads back: a number in as many digits as it needs (`value_toDigits`), and
the last digits of a number in a field of fixed width (`value_padded`).  Reading digits from the
front of a text takes a whole field of them when it asks for no more, or when no digit follows
(`spanDigits_append`).
-/

namespace Caseload.Text

theorem value_toDigits (n : Nat) : value (Nat.toDigits 10 n) = n := by
  have fold : value (Nat.toDigits 10 n) = Nat.ofDigitChars 10 (Nat.toDigits 10 n) 0 := by
    simp only [value, Nat.ofDigitChars, digitValue, Nat.mul_comm]
    rfl
  rw [fold, Nat.ofDigitChars_ten_toDigits]

theorem isDigit_of_mem_toDigits {n : Nat} {c : Char} (mem : c ∈ Nat.toDigits 10 n) :
    c.isDigit = true :=
  Nat.isDigit_of_mem_toDigits (by omega) (by omega) mem

/-- A number begins with the digit zero only when it is zero. -/
theorem exists_toDigits_eq_cons (n : Nat) :
    ∃ c rest, Nat.toDigits 10 n = c :: rest ∧ (c = '0' → rest = []) := by
  induction n using Nat.base_induction 10 (by omega) with
  | single m small => exact ⟨_, _, Nat.toDigits_of_lt_base small, fun _ => rfl⟩
  | digit m k small positive ih =>
    obtain ⟨c, rest, digits, zero⟩ := ih
    refine ⟨c, rest ++ Nat.toDigits 10 k, ?_, fun first => ?_⟩
    · rw [← Nat.toDigits_append_toDigits (by omega) positive small, digits, List.cons_append]
    · subst first
      rw [zero rfl] at digits
      have nothing : m = 0 := by rw [← value_toDigits m, digits]; rfl
      omega

/-! ## Fields of fixed width -/

theorem digit_spec (n : Nat) : (digit n).isDigit = true ∧ digitValue (digit n) = n % 10 := by
  have all : ∀ d < 10, (Char.ofNat (0x30 + d)).isDigit = true ∧
      digitValue (Char.ofNat (0x30 + d)) = d := by decide
  exact all (n % 10) (Nat.mod_lt n (by omega))

theorem length_padded (width n : Nat) : (padded width n).length = width := by
  induction width generalizing n with
  | zero => rfl
  | succ width ih => rw [padded, List.length_append, ih, List.length_singleton]

theorem isDigit_of_mem_padded {width n : Nat} {c : Char} (mem : c ∈ padded width n) :
    c.isDigit = true := by
  induction width generalizing n with
  | zero => cases mem
  | succ width ih =>
    rw [padded, List.mem_append, List.mem_singleton] at mem
    obtain mem | rfl := mem
    · exact ih mem
    · exact (digit_spec n).1

theorem value_padded (width n : Nat) : value (padded width n) = n % 10 ^ width := by
  induction width generalizing n with
  | zero => exact (Nat.mod_one n).symm
  | succ width ih =>
    -- the digits before the last one are those of a tenth of the number
    have last : value (padded width (n / 10) ++ [digit n]) =
        value (padded width (n / 10)) * 10 + digitValue (digit n) := by
      simp [value]
    rw [padded, last, ih, (digit_spec n).2, Nat.pow_succ', Nat.mod_mul]
    omega

theorem value_padded_of_lt {width n : Nat} (fits : n < 10 ^ width) :
    value (padded width n) = n := by
  rw [value_padded, Nat.mod_eq_of_lt fits]

/-! ## Digits at the front -/

/-- No digit stands at the front. -/
def NoDigit (cs : List Char) : Prop :=
  ∀ c ∈ cs.head?, c.isDigit = false

theorem noDigit_cons {c : Char} {rest : List Char} (other : c.isDigit = false) :
    NoDigit (c :: rest) := by
  rintro _ ⟨⟩
  exact other

theorem takeWhile_take_of_noDigit {rest : List Char} (ended : NoDigit rest) (n : Nat) :
    (rest.take n).takeWhile Char.isDigit = [] := by
  cases n with
  | zero => rfl
  | succ n =>
    cases rest with
    | nil => rfl
    | cons c rest => rw [List.take_succ_cons, List.takeWhile_cons_of_neg (by simp [ended c rfl])]

theorem spanDigits_append {most : Nat} {digits rest : List Char}
    (each : ∀ c ∈ digits, c.isDigit = true)
    (ended : digits.length = most ∨ digits.length ≤ most ∧ NoDigit rest) :
    spanDigits most (digits ++ rest) = (digits, rest) := by
  have fits : digits.length ≤ most := by
    obtain same | ⟨fits, -⟩ := ended
    · exact same.le
    · exact fits
  have beyond : (rest.take (most - digits.length)).takeWhile Char.isDigit = [] := by
    obtain same | ⟨-, ended⟩ := ended
    · rw [same, Nat.sub_self]
      rfl
    · exact takeWhile_take_of_noDigit ended _
  have front : ((digits ++ rest).take most).takeWhile Char.isDigit = digits := by
    rw [List.take_append, List.take_of_length_le fits, List.takeWhile_append_of_pos each, beyond,
      List.append_nil]
  rw [spanDigits, front, List.drop_left]

end Caseload.Text
