import Caseload.Instant.Basic
import Caseload.Text.Blank
import Caseload.Text.Digits

/-!
# Reading instants

An instant is read from a date, one of `T`, `t` and a space, a time of day with seconds, and a
zone.  Months, days, hours, minutes and seconds may have one digit, numbers and the marks between
them may follow blanks, and blanks may stand at either end and before the zone.
-/

namespace Caseload.Instant

open Caseload.Text (spanDigits trimFront)

/-- A number of one to `most` digits, after any blanks. -/
def number? (most : Nat) (cs : List Char) : Option (Nat × List Char) :=
  match spanDigits most (trimFront cs) with
  | ([], _) => none
  | (digits, rest) => some (Text.value digits, rest)

/-- What follows the mark `c`, which may follow blanks. -/
def mark? (c : Char) (cs : List Char) : Option (List Char) :=
  match trimFront cs with
  | found :: rest => if found = c then some rest else none
  | [] => none

/-- A year: four digits at the most without a sign, any number of them after one. -/
def year? (cs : List Char) : Option (Int × List Char) :=
  match trimFront cs with
  | '-' :: rest =>
    match spanDigits rest.length rest with
    | ([], _) => none
    | (digits, rest) => some (-(Text.value digits : Int), rest)
  | '+' :: rest =>
    match spanDigits rest.length rest with
    | ([], _) => none
    | (digits, rest) => some ((Text.value digits : Int), rest)
  | cs => (number? 4 cs).map fun (n, rest) => ((n : Int), rest)

/-- A day: year, month and day of the month. -/
def date? (cs : List Char) : Option (Date × List Char) := do
  let (year, cs) ← year? cs
  let (month, cs) ← number? 2 (← mark? '-' cs)
  let (day, cs) ← number? 2 (← mark? '-' cs)
  return (← Date.ofParts? year month day, cs)

def between? : List Char → Option (List Char)
  | c :: rest => if c = 'T' ∨ c = 't' ∨ c = ' ' then some rest else none
  | [] => none

/-- A fraction of a second in nanoseconds, none if there is no point.  Nine digits count, and
further ones are passed over. -/
def fraction? : List Char → Option (Nat × List Char)
  | '.' :: cs =>
    match spanDigits 9 cs with
    | ([], _) => none
    | (digits, rest) =>
      some (Text.value digits * Nat.pow 10 (9 - digits.length), rest.dropWhile Char.isDigit)
  | cs => some (0, cs)

/-- A time of day as second and nanosecond.  The second 60 is a leap second. -/
def time? (cs : List Char) : Option (Nat × Nat × List Char) := do
  let (hour, cs) ← number? 2 cs
  let (minute, cs) ← number? 2 (← mark? ':' cs)
  let (second, cs) ← number? 2 (← mark? ':' cs)
  let (nano, cs) ← fraction? cs
  if hour < 24 ∧ minute < 60 ∧ second ≤ 60 then
    if second = 60 then
      some (hour * 3600 + minute * 60 + 59, nanosPerSecond + nano, cs)
    else
      some (hour * 3600 + minute * 60 + second, nano, cs)
  else
    none

/-- Hours and minutes of a zone, two digits each, with colons and blanks between them. -/
def zoneMinutes? : List Char → Option (Nat × List Char)
  | h₁ :: h₂ :: cs =>
    match cs.dropWhile fun c => c = ':' || Text.isBlank c with
    | m₁ :: m₂ :: rest =>
      if h₁.isDigit ∧ h₂.isDigit ∧ m₁.isDigit ∧ m₂.isDigit then
        let hours := Text.value [h₁, h₂]
        let minutes := Text.value [m₁, m₂]
        if hours < 24 ∧ minutes < 60 then some (hours * 60 + minutes, rest) else none
      else
        none
    | _ => none
  | _ => none

/-- A zone as the minutes by which its clocks are ahead of universal time. -/
def zone? (cs : List Char) : Option (Int × List Char) :=
  if (cs.take 3).map Char.toUpper = ['U', 'T', 'C'] then
    some (0, cs.drop 3)
  else
    match cs with
    | c :: rest =>
      if c = 'Z' ∨ c = 'z' then
        some (0, rest)
      else if c = '+' then
        (zoneMinutes? rest).map fun (minutes, rest) => ((minutes : Int), rest)
      else if c = '-' ∨ c = '\u2212' then
        (zoneMinutes? rest).map fun (minutes, rest) => (-(minutes : Int), rest)
      else
        none
    | [] => none

/-- The instant that a text denotes, if it denotes one. -/
def ofText? (s : String) : Option Instant := do
  let (date, cs) ← date? s.toList
  let (second, nano, cs) ← time? (← between? cs)
  let (aheadMinutes, cs) ← zone? (trimFront cs)
  if trimFront cs = [] then ofLocal? date second nano aheadMinutes else none

end Caseload.Instant
