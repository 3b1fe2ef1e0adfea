/-
The calendar: days counted from the first of January 1970, and years, months
and days of the Gregorian calendar, which is continued backwards.

Years are taken to begin in March, so that the leap day is the last day of a
year; four hundred years are an era of 146097 days.
-/

namespace Enrollment.Time

/-- A day of the calendar. -/
structure Date where
  year : Int
  month : Nat
  day : Nat
  deriving Repr, DecidableEq

/-- Is the year a leap year? -/
def isLeap (year : Int) : Bool :=
  year % 4 = 0 && (year % 100 ≠ 0 || year % 400 = 0)

/-- The number of days of a month. -/
def daysInMonth (year : Int) (month : Nat) : Nat :=
  match month with
  | 2 => if isLeap year then 29 else 28
  | 4 | 6 | 9 | 11 => 30
  | _ => 31

namespace Date

/-- Does the calendar have the day? -/
def isValid (d : Date) : Bool :=
  1 ≤ d.month && d.month ≤ 12 && 1 ≤ d.day && d.day ≤ daysInMonth d.year d.month

/-- Days of an era. -/
def eraDays : Int := 146097

/-- Days from the first of March of year zero to the first of January 1970. -/
def epochShift : Int := 719468

/-- The days from the first of January 1970. -/
def toDays (d : Date) : Int :=
  let year := if d.month ≤ 2 then d.year - 1 else d.year
  let era := year / 400
  let inEra := year % 400
  let month : Int := if d.month ≤ 2 then d.month + 9 else d.month - 3
  let inYear := (153 * month + 2) / 5 + d.day - 1
  era * eraDays + (inEra * 365 + inEra / 4 - inEra / 100 + inYear) - epochShift

/-- The day at a distance from the first of January 1970. -/
def ofDays (days : Int) : Date :=
  let shifted := days + epochShift
  let era := shifted / eraDays
  let inEra := shifted % eraDays
  let year := (inEra - inEra / 1460 + inEra / 36524 - inEra / 146096) / 365
  let inYear := inEra - (365 * year + year / 4 - year / 100)
  let month := (5 * inYear + 2) / 153
  let day := inYear - (153 * month + 2) / 5 + 1
  let month := if month < 10 then month + 3 else month - 9
  let year := year + era * 400
  ⟨if month ≤ 2 then year + 1 else year, month.toNat, day.toNat⟩

end Date

/-- A day and a time of that day. -/
structure Civil where
  date : Date
  hour : Nat
  minute : Nat
  second : Nat
  deriving Repr, DecidableEq

namespace Civil

/-- Does the clock show the time on the day? -/
def isValid (c : Civil) : Bool :=
  c.date.isValid && c.hour < 24 && c.minute < 60 && c.second < 60

/-- Seconds from the start of 1970. -/
def toSeconds (c : Civil) : Int :=
  c.date.toDays * 86400 + (c.hour * 3600 + c.minute * 60 + c.second : Nat)

/-- The day and the time at a number of seconds from the start of 1970. -/
def ofSeconds (seconds : Int) : Civil :=
  let rest := (seconds % 86400).toNat
  ⟨Date.ofDays (seconds / 86400), rest / 3600, rest / 60 % 60, rest % 60⟩

end Civil

/-- A point in time, with nanoseconds. -/
structure Instant where
  /-- Seconds from the start of 1970, rounded down. -/
  seconds : Int
  nanos : Nat := 0
  deriving Repr, DecidableEq

/-- Is the one point in time before the other? -/
def Instant.before (a b : Instant) : Bool :=
  a.seconds < b.seconds || (a.seconds == b.seconds && a.nanos < b.nanos)

/-- The first second of the year -9999. -/
def firstSecond : Int := -377705116800

/-- The last second of the year 9999. -/
def lastSecond : Int := 253402300799

/-- Does the second lie in a year of at most four digits? -/
def isRepresentable (seconds : Int) : Bool :=
  firstSecond ≤ seconds && seconds ≤ lastSecond

end Enrollment.Time
