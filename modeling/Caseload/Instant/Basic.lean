import Caseload.Instant.Date

/-!
# Instants

An instant is a day and a time of that day in universal time, down to the nanosecond.  A leap
second is counted as the second before it with a billion nanoseconds more, and can only follow
the last second of a minute.  Instants are ordered by day, second and nanosecond.
-/

namespace Caseload

def nanosPerSecond : Nat :=
  1000000000

def secondsPerDay : Nat :=
  86400

/-- The two numbers are a second of a day and a nanosecond of it or of the leap second after
it. -/
def IsTimeOfDay (second nano : Nat) : Prop :=
  second < secondsPerDay ∧ nano < 2 * nanosPerSecond ∧
    (nano < nanosPerSecond ∨ second % 60 = 59)

instance (second nano : Nat) : Decidable (IsTimeOfDay second nano) :=
  inferInstanceAs (Decidable (_ ∧ _))

/-- A point in universal time. -/
structure Instant where
  date : Date
  /-- The second of the day, from 0. -/
  second : Nat
  /-- The nanosecond of the second; a billion and more in a leap second. -/
  nano : Nat
  /-- The second and the nanosecond are a time of day. -/
  isTime : IsTimeOfDay second nano
  deriving DecidableEq

namespace Instant

/-- The instant with the given time of a day, if there is one. -/
def ofParts? (date : Date) (second nano : Nat) : Option Instant :=
  if h : IsTimeOfDay second nano then some ⟨date, second, nano, h⟩ else none

/-- The instant at which clocks show the given time of day where they are ahead of universal
time by some minutes, less than a day's worth. -/
def ofLocal? (date : Date) (second nano : Nat) (aheadMinutes : Int) : Option Instant := do
  let universal : Int := second - 60 * aheadMinutes
  if universal < 0 then
    ofParts? (← date.previous?) (universal + secondsPerDay).toNat nano
  else if universal < secondsPerDay then
    ofParts? date universal.toNat nano
  else
    ofParts? (← date.next?) (universal - secondsPerDay).toNat nano

/-- The place of an instant in the order of time: a number in mixed radix whose digits are year,
month, day, second and nanosecond. -/
def place (i : Instant) : Int :=
  (((i.date.year * 12 + i.date.month) * 31 + i.date.day) * 86400 + i.second) * 2000000000 + i.nano

instance : LT Instant :=
  ⟨fun a b => a.place < b.place⟩

instance (a b : Instant) : Decidable (a < b) :=
  inferInstanceAs (Decidable (a.place < b.place))

instance : Ord Instant :=
  ⟨fun a b => compare a.place b.place⟩

end Instant

end Caseload
