/-!
# Decimal digits

Numbers in fixed-width decimal fields, as timestamps have them: `padded` writes a number with a
given count of digits and `value` reads digits back.
-/

namespace Caseload.Text

/-- The decimal digit of a number below ten. -/
def digit (n : Nat) : Char :=
  Char.ofNat (0x30 + n % 10)

/-- The number that a decimal digit stands for. -/
def digitValue (c : Char) : Nat :=
  c.toNat - 0x30

/-- The last `width` decimal digits of `n`, zeros in front. -/
def padded : (width : Nat) → (n : Nat) → List Char
  | 0, _ => []
  | width + 1, n => padded width (n / 10) ++ [digit n]

/-- The number that a row of decimal digits stands for. -/
def value (digits : List Char) : Nat :=
  digits.foldl (fun n c => n * 10 + digitValue c) 0

/-- The decimal digits at the front, `most` of them at the most, and what follows. -/
def spanDigits (most : Nat) (cs : List Char) : List Char × List Char :=
  let digits := (cs.take most).takeWhile Char.isDigit
  (digits, cs.drop digits.length)

end Caseload.Text
