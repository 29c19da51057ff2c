import Caseload.Proofs.Error.FirstFailure
import Caseload.Proofs.Text.Digits
import Caseload.Text.Integer

/-!
# Integers in text

A text is read as an integer of 64 bits exactly when it is a numeral of one: digits, with a sign in
front of them or none (`parseInt64_eq_ok_iff`).  The reader looks at the number after each digit; as
no digit makes it smaller, that comes to looking at the whole number (`digitsUpTo_eq_ok_iff`).
-/

namespace Caseload.Text

/-- A row of decimal digits. -/
def Digits (cs : List Char) : Prop :=
  cs ≠ [] ∧ ∀ c ∈ cs, c.isDigit = true

/-- Digits, with a sign in front of them or none, and the integer that they stand for. -/
inductive Numeral : List Char → Int → Prop
  | unsigned {cs : List Char} (digits : Digits cs) : Numeral cs (Nat.ofDigitChars 10 cs 0)
  | plus {cs : List Char} (digits : Digits cs) : Numeral ('+' :: cs) (Nat.ofDigitChars 10 cs 0)
  | minus {cs : List Char} (digits : Digits cs) : Numeral ('-' :: cs) (-Nat.ofDigitChars 10 cs 0)

variable {cs : List Char} {k : Int}

theorem not_digits_cons {c : Char} (other : c.isDigit = false) : ¬ Digits (c :: cs) :=
  by simp [Digits, other]

theorem numeral_plus_iff :
    Numeral ('+' :: cs) k ↔ Digits cs ∧ (Nat.ofDigitChars 10 cs 0 : Int) = k := by
  constructor
  · intro numeral
    cases numeral with
    | unsigned digits => exact absurd digits (not_digits_cons (by decide))
    | plus digits => exact ⟨digits, rfl⟩
  · rintro ⟨digits, rfl⟩
    exact .plus digits

theorem numeral_minus_iff :
    Numeral ('-' :: cs) k ↔ Digits cs ∧ -(Nat.ofDigitChars 10 cs 0 : Int) = k := by
  constructor
  · intro numeral
    cases numeral with
    | unsigned digits => exact absurd digits (not_digits_cons (by decide))
    | minus digits => exact ⟨digits, rfl⟩
  · rintro ⟨digits, rfl⟩
    exact .minus digits

theorem numeral_iff_of_unsigned (plus : ∀ rest, cs ≠ '+' :: rest)
    (minus : ∀ rest, cs ≠ '-' :: rest) :
    Numeral cs k ↔ Digits cs ∧ (Nat.ofDigitChars 10 cs 0 : Int) = k := by
  constructor
  · intro numeral
    cases numeral with
    | unsigned digits => exact ⟨digits, rfl⟩
    | plus => exact absurd rfl (plus _)
    | minus => exact absurd rfl (minus _)
  · rintro ⟨digits, rfl⟩
    exact .unsigned digits

/-! ## Digits in a range -/

/-- More digits make no number smaller. -/
theorem le_ofDigitChars (cs : List Char) (n : Nat) : n ≤ Nat.ofDigitChars 10 cs n := by
  rw [Nat.ofDigitChars_eq_ofDigitChars_zero]
  have positive : 0 < 10 ^ cs.length := Nat.pow_pos (by omega)
  have scaled : n ≤ 10 ^ cs.length * n := Nat.le_mul_of_pos_left n positive
  omega

theorem digitsUpTo_eq_ok_iff {most n m : Nat} {fault : IntegerFault} (fits : n ≤ most) :
    digitsUpTo most fault n cs = .ok m ↔
      (∀ c ∈ cs, c.isDigit = true) ∧ Nat.ofDigitChars 10 cs n = m ∧ m ≤ most := by
  induction cs generalizing n with
  | nil =>
    rw [digitsUpTo, Nat.ofDigitChars_nil, Except.ok.injEq]
    constructor
    · rintro rfl
      exact ⟨by simp, rfl, fits⟩
    · exact fun ⟨_, same, _⟩ => same
  | cons c rest ih =>
    have next : 10 * n + (c.toNat - '0'.toNat) = n * 10 + digitValue c := by
      rw [Nat.mul_comm]
      rfl
    rw [digitsUpTo, Nat.ofDigitChars_cons, next, List.forall_mem_cons]
    split
    next digit =>
      simp only [digit, true_and]
      split
      next fits => exact ih fits
      next large =>
        -- the digits to come cannot bring the number back into the range
        refine iff_of_false nofun ?_
        rintro ⟨-, rfl, fits⟩
        exact large ((le_ofDigitChars rest _).trans fits)
    next other => simp [other]

/-! ## Integers of 64 bits -/

/-- Digits are read as an integer if the numbers up to `most` stand for those that there are. -/
theorem bind_digitsUpTo_eq_ok_iff {most : Nat} {fault : IntegerFault} {number : Nat → Int64}
    {integer : Nat → Int} {n : Int64} (some : cs ≠ [])
    (means : ∀ m ≤ most, (number m).toInt = integer m)
    (covered : ∀ m, integer m = n.toInt → m ≤ most) :
    (do return number (← digitsUpTo most fault 0 cs) : Except IntegerFault Int64) = .ok n ↔
      Digits cs ∧ integer (Nat.ofDigitChars 10 cs 0) = n.toInt := by
  rw [bind_eq_ok_iff]
  simp only [digitsUpTo_eq_ok_iff (Nat.zero_le most)]
  constructor
  · rintro ⟨_, ⟨each, rfl, fits⟩, made⟩
    refine ⟨⟨some, each⟩, ?_⟩
    rw [← means _ fits, Except.ok.inj made]
  · rintro ⟨digits, same⟩
    have fits := covered _ same
    refine ⟨_, ⟨digits.2, rfl, fits⟩, congrArg Except.ok (Int64.toInt_inj.mp ?_)⟩
    rw [means _ fits, same]

theorem parseInt64_eq_ok_iff {s : String} {n : Int64} :
    parseInt64 s = .ok n ↔ Numeral s.toList n.toInt := by
  have nothing : ¬ Digits [] := fun digits => digits.1 rfl
  have largest : Int64.maxValue.toInt.toNat = 2 ^ 63 - 1 := by decide
  have smallest : Int64.minValue.toInt.natAbs = 2 ^ 63 := by decide
  have below := n.le_toInt
  have above := n.toInt_lt
  have positive (m : Nat) (fits : m ≤ Int64.maxValue.toInt.toNat) :
      (Int64.ofNat m).toInt = m := Int64.toInt_ofNat_of_lt (by omega)
  have negative (m : Nat) (fits : m ≤ Int64.minValue.toInt.natAbs) :
      (Int64.ofInt (-m)).toInt = -m := Int64.toInt_ofInt_of_le (by omega) (by omega)
  rw [parseInt64]
  -- without a digit nothing is read; otherwise a sign says how far the digits may go
  split
  next empty =>
    rw [empty, numeral_iff_of_unsigned (by simp) (by simp)]
    simp [nothing]
  next sign => simp [sign, numeral_plus_iff, nothing]
  next sign => simp [sign, numeral_minus_iff, nothing]
  next digits some split =>
    rw [split, numeral_minus_iff]
    exact bind_digitsUpTo_eq_ok_iff some negative (by omega)
  next digits some split =>
    rw [split, numeral_plus_iff]
    exact bind_digitsUpTo_eq_ok_iff some positive (by omega)
  next some _ _ minus plus =>
    rw [numeral_iff_of_unsigned plus minus]
    exact bind_digitsUpTo_eq_ok_iff some positive (by omega)

end Caseload.Text
