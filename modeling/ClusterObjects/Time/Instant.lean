/-! # Instants

A point in time by its calendar date and clock time in UTC, to the nanosecond.
A leap second is the last second of its minute with a billion nanoseconds or
more. The calendar is the proleptic Gregorian one.
-/

namespace ClusterObjects

/-- A day of the calendar. -/
structure Date where
  year : Int
  month : Nat
  day : Nat
deriving DecidableEq, Inhabited

namespace Date

/-- Every fourth year leaps, but of the centuries only every fourth. -/
def isLeapYear (year : Int) : Bool :=
  year % 4 == 0 && (year % 100 != 0 || year % 400 == 0)

/-- The number of days of a month; none for a month that does not exist. -/
def daysInMonth (year : Int) (month : Nat) : Nat :=
  match month with
  | 1 | 3 | 5 | 7 | 8 | 10 | 12 => 31
  | 4 | 6 | 9 | 11 => 30
  | 2 => if isLeapYear year then 29 else 28
  | _ => 0

/-- The first and the last year of the calendar in use. -/
def minYear : Int := -262143

@[inherit_doc minYear]
def maxYear : Int := 262142

/-- Whether the day exists. -/
def isValid (date : Date) : Bool :=
  decide (minYear ≤ date.year) && decide (date.year ≤ maxYear) &&
    decide (1 ≤ date.day) && decide (date.day ≤ daysInMonth date.year date.month)

/-- The day after. -/
def next (date : Date) : Date :=
  if date.day < daysInMonth date.year date.month then { date with day := date.day + 1 }
  else if date.month < 12 then { date with month := date.month + 1, day := 1 }
  else ⟨date.year + 1, 1, 1⟩

/-- The day before. -/
def previous (date : Date) : Date :=
  if 1 < date.day then { date with day := date.day - 1 }
  else if 1 < date.month then
    ⟨date.year, date.month - 1, daysInMonth date.year (date.month - 1)⟩
  else ⟨date.year - 1, 12, 31⟩

/-- The number of days since the first of January 1970. Years are counted from
March, so that the leap day is the last of its year. -/
def daysSinceEpoch (date : Date) : Int :=
  let year := if date.month ≤ 2 then date.year - 1 else date.year
  let era := year / 400
  let yearOfEra := year % 400
  let month : Int := ((date.month : Int) + 9) % 12
  let dayOfYear := (153 * month + 2) / 5 + (date.day : Int) - 1
  let dayOfEra := yearOfEra * 365 + yearOfEra / 4 - yearOfEra / 100 + dayOfYear
  era * 146097 + dayOfEra - 719468

/-- The day that lies a number of days after the first of January 1970. -/
def ofDaysSinceEpoch (days : Int) : Date :=
  let days := days + 719468
  let era := days / 146097
  let dayOfEra := days % 146097
  let yearOfEra :=
    (dayOfEra - dayOfEra / 1460 + dayOfEra / 36524 - dayOfEra / 146096) / 365
  let dayOfYear := dayOfEra - (365 * yearOfEra + yearOfEra / 4 - yearOfEra / 100)
  let month := (5 * dayOfYear + 2) / 153
  let day := dayOfYear - (153 * month + 2) / 5 + 1
  let month := if month < 10 then month + 3 else month - 9
  let year := yearOfEra + era * 400
  ⟨if month ≤ 2 then year + 1 else year, month.toNat, day.toNat⟩

end Date

/-- A point in time, in UTC. -/
structure Instant where
  date : Date
  hour : Nat
  minute : Nat
  second : Nat
  nanos : Nat
deriving DecidableEq, Inhabited

namespace Instant

/-- The instant without its fraction of a second; a leap second stays one. -/
def truncate (t : Instant) : Instant :=
  { t with nanos := if t.nanos < 1000000000 then 0 else 1000000000 }

/-- The whole seconds since the start of 1970. -/
def unixSeconds (t : Instant) : Int :=
  t.date.daysSinceEpoch * 86400 + ((t.hour * 60 + t.minute) * 60 + t.second : Nat)

/-- The instant a number of seconds after the start of 1970. -/
def ofUnixSeconds (seconds : Int) : Instant :=
  let days := seconds / 86400
  let rest := (seconds % 86400).toNat
  ⟨Date.ofDaysSinceEpoch days, rest / 3600, rest / 60 % 60, rest % 60, 0⟩

/-- The instant as numbers from the longest period to the shortest. -/
def parts (t : Instant) : List Int :=
  [t.date.year, t.date.month, t.date.day, t.hour, t.minute, t.second, t.nanos]

/-- Whether one instant lies before another. -/
def before (left right : Instant) : Bool := decide (left.parts < right.parts)

/-- The whole seconds from one instant to another, the fraction cut off. -/
def secondsUntil (start finish : Instant) : Int :=
  Int.tdiv ((finish.unixSeconds - start.unixSeconds) * 1000000000 +
    ((finish.nanos : Int) - start.nanos)) 1000000000

example : (ofUnixSeconds 951827696).unixSeconds = 951827696 := by decide

example : (ofUnixSeconds (-1)).date = ⟨1969, 12, 31⟩ := by decide

end Instant

end ClusterObjects
