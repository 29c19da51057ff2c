import Caseload.Error
import Caseload.Text.Digits

/-!
# Integers in text

Reading a signed integer of 64 bits, digit by digit from the front: whatever is wrong first is
reported, be it a character that is no digit or a digit with which the number leaves its range.
-/

namespace Caseload.Text

/-- Reads digits after those that amount to `n`.  A number above `most` is the given fault. -/
def digitsUpTo (most : Nat) (fault : IntegerFault) : (n : Nat) → List Char →
    Except IntegerFault Nat
  | n, [] => .ok n
  | n, c :: rest =>
    if c.isDigit then
      let next := n * 10 + digitValue c
      if next ≤ most then digitsUpTo most fault next rest else .error fault
    else
      .error .invalidDigit

/-- Reads a signed integer of 64 bits, which may have a sign of either kind. -/
def parseInt64 (s : String) : Except IntegerFault Int64 :=
  match s.toList with
  | [] | ['+'] | ['-'] => .error .invalidDigit
  | '-' :: digits => do
    return Int64.ofInt (-(← digitsUpTo Int64.minValue.toInt.natAbs .tooSmall 0 digits : Nat))
  | '+' :: digits => do
    return Int64.ofNat (← digitsUpTo Int64.maxValue.toInt.toNat .tooLarge 0 digits)
  | digits => do
    return Int64.ofNat (← digitsUpTo Int64.maxValue.toInt.toNat .tooLarge 0 digits)

end Caseload.Text
