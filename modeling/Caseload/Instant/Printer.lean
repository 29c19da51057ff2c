import Caseload.Instant.Basic
import Caseload.Text.Digits

/-!
# Printing instants

An instant is printed in universal time as `YYYY-MM-DDTHH:MM:SSZ`, with 3, 6 or 9 digits of a
fraction before the `Z` when it has one: the fewest that are exact.  A leap second has the second
60.  A year outside 0 to 9999 has a sign and as many digits as it needs.
-/

namespace Caseload.Instant

open Caseload.Text (padded)

/-- The digits of a year's magnitude: four, or as many as it needs. -/
def yearDigits (magnitude : Nat) : List Char :=
  if magnitude < 10000 then padded 4 magnitude
  else if magnitude < 100000 then padded 5 magnitude
  else padded 6 magnitude

def printYear (year : Int) : List Char :=
  if year < 0 then '-' :: yearDigits year.natAbs
  else if year < 10000 then yearDigits year.natAbs
  else '+' :: yearDigits year.natAbs

/-- A fraction of a second, unless it is zero. -/
def printFraction (nano : Nat) : List Char :=
  if nano = 0 then []
  else if nano % 1000000 = 0 then '.' :: padded 3 (nano / 1000000)
  else if nano % 1000 = 0 then '.' :: padded 6 (nano / 1000)
  else '.' :: padded 9 nano

def printDate (d : Date) : List Char :=
  printYear d.year ++ '-' :: padded 2 d.month ++ '-' :: padded 2 d.day

def printTime (second nano : Nat) : List Char :=
  let leap := nano / nanosPerSecond
  padded 2 (second / 3600) ++ ':' :: padded 2 (second / 60 % 60) ++
    ':' :: padded 2 (second % 60 + leap) ++ printFraction (nano % nanosPerSecond)

def toText (i : Instant) : String :=
  String.ofList (printDate i.date ++ 'T' :: printTime i.second i.nano ++ ['Z'])

end Caseload.Instant
