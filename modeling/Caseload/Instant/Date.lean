/-!
# Calendar dates

Dates of the Gregorian calendar, carried back before its introduction, in a range of some 260000
years on either side of the year zero.  The only arithmetic is the step to a neighbouring day.
-/

namespace Caseload

/-- Every fourth year is a leap year, but of the full centuries only every fourth. -/
def isLeapYear (year : Int) : Bool :=
  year % 4 = 0 && (year % 100 ≠ 0 || year % 400 = 0)

/-- The number of days of a month; none for a number that is no month. -/
def daysInMonth (year : Int) (month : Nat) : Nat :=
  match month with
  | 1 | 3 | 5 | 7 | 8 | 10 | 12 => 31
  | 4 | 6 | 9 | 11 => 30
  | 2 => if isLeapYear year then 29 else 28
  | _ => 0

/-- The three numbers are a day of the calendar, in the range of years that is covered. -/
def IsDate (year : Int) (month day : Nat) : Prop :=
  -262143 ≤ year ∧ year ≤ 262142 ∧ 1 ≤ day ∧ day ≤ daysInMonth year month

instance (year : Int) (month day : Nat) : Decidable (IsDate year month day) :=
  inferInstanceAs (Decidable (_ ∧ _))

/-- A day of the calendar. -/
structure Date where
  /-- The year; the year before the year 1 is 0. -/
  year : Int
  /-- The month, from 1 to 12. -/
  month : Nat
  /-- The day of the month, from 1. -/
  day : Nat
  /-- The three are a day of the calendar. -/
  isDate : IsDate year month day
  deriving DecidableEq

namespace Date

/-- The day with the given numbers, if there is one. -/
def ofParts? (year : Int) (month day : Nat) : Option Date :=
  if h : IsDate year month day then some ⟨year, month, day, h⟩ else none

def next? (d : Date) : Option Date :=
  ofParts? d.year d.month (d.day + 1) <|> ofParts? d.year (d.month + 1) 1 <|>
    ofParts? (d.year + 1) 1 1

def previous? (d : Date) : Option Date :=
  ofParts? d.year d.month (d.day - 1) <|>
    ofParts? d.year (d.month - 1) (daysInMonth d.year (d.month - 1)) <|>
    ofParts? (d.year - 1) 12 31

end Date

end Caseload
