/-
Points in time as certificates write them.

One form has a year of two digits, which stand for 1950 to 2049, and a time
zone; the other has a year of four digits, may have a fraction, and is in UTC.
The writer uses the first form exactly for the years it can stand for, in UTC and
to the second.
-/
import Enrollment.Der.Value
import Enrollment.Time.Calendar

namespace Enrollment.Der

/-- A point in time with the zone it is given in. -/
structure ZonedTime where
  /-- Seconds from the start of 1970. -/
  seconds : Int
  millis : Nat
  /-- The zone, in minutes east of UTC. -/
  offset : Int
  /-- Is it written in the form with four digits for the year? -/
  isLong : Bool
  deriving Repr, DecidableEq

namespace ZonedTime

/-- The first year that needs the form with four digits. -/
def longYear : Int := 2050

/-- The point in time without its zone. -/
def instant (t : ZonedTime) : Time.Instant :=
  ⟨t.seconds, t.millis * 1000000⟩

/-- Would an instant of its own be written in the form with four digits? -/
def needsLong (p : Time.Instant) : Bool :=
  longYear ≤ (Time.Civil.ofSeconds p.seconds).date.year

/-- Does an instant come before a time?  Of the same instant in both forms, the short
one comes first. -/
def follows (t : ZonedTime) (p : Time.Instant) : Bool :=
  p.before t.instant || (p == t.instant && t.isLong && !needsLong p)

/-- Does an instant come after a time? -/
def precedes (t : ZonedTime) (p : Time.Instant) : Bool :=
  t.instant.before p || (p == t.instant && !t.isLong && needsLong p)

-- ================================================================ reading

/-- The value of a decimal digit. -/
def digit? (b : UInt8) : Option Nat :=
  if 48 ≤ b ∧ b ≤ 57 then some (b.toNat - 48) else none

/-- Two decimal digits. -/
def readPair : Reader Nat
  | a :: b :: rest => do return (10 * (← digit? a) + (← digit? b), rest)
  | _ => none

/-- A month, a day, an hour and a minute. -/
structure Fields where
  month : Nat
  day : Nat
  hour : Nat
  minute : Nat

/-- Eight digits. -/
def readFields : Reader Fields := fun bs => do
  let (month, bs) ← readPair bs
  let (day, bs) ← readPair bs
  let (hour, bs) ← readPair bs
  let (minute, bs) ← readPair bs
  return (⟨month, day, hour, minute⟩, bs)

/-- The zone at the end, in minutes. -/
def zone? : Bytes → Option Int
  | [0x5A] => some 0
  | sign :: rest => do
    let (hours, rest) ← readPair rest
    let (minutes, rest) ← readPair rest
    if !rest.isEmpty || 25 < hours || 59 < minutes then none
    let offset : Int := hours * 60 + minutes
    if sign = 0x2B then some offset
    else if sign = 0x2D then some (-offset)
    else none
  | [] => none

/-- The point in time that fields and a zone give, if the calendar and the clock
have it. -/
def ofFields? (year : Nat) (f : Fields) (second millis : Nat) (offset : Int) (isLong : Bool) :
    Option ZonedTime :=
  let civil : Time.Civil := ⟨⟨year, f.month, f.day⟩, f.hour, f.minute, second⟩
  if civil.isValid && millis < 1000 then
    some ⟨civil.toSeconds - offset * 60, millis, offset, isLong⟩
  else none

/-- The time that the contents of the first form give. -/
def ofShort? (contents : Bytes) : Option ZonedTime := do
  let (year, bs) ← readPair contents
  let (fields, bs) ← readFields bs
  let (second, bs) ← match readPair bs with
    | some (second, rest) => some (second, rest)
    | none => some (0, bs)
  ofFields? (if 50 ≤ year then 1900 + year else 2000 + year) fields second 0 (← zone? bs) false

/-- The milliseconds that the digits of a fraction stand for. -/
def millisOf (digits : Bytes) : Nat :=
  let n := digits.foldl (fun n b => n * 10 + (b.toNat - 48)) 0
  match digits.length with
  | 1 => n * 100
  | 2 => n * 10
  | _ => n

/-- The fraction of a second, of at most three digits, and what follows it. -/
def readFraction : Reader Nat
  | 0x2E :: rest =>
    let digits := rest.takeWhile fun b => (digit? b).isSome
    if 3 < digits.length then none else some (millisOf digits, rest.drop digits.length)
  | bs => some (0, bs)

/-- The time that the contents of the second form give. -/
def ofLong? (contents : Bytes) : Option ZonedTime := do
  let (century, bs) ← readPair contents
  let (year, bs) ← readPair bs
  let (fields, bs) ← readFields bs
  let (second, bs) ← match bs with
    | _ :: _ :: _ => readPair bs
    | _ => some (0, bs)
  let (millis, bs) ← readFraction bs
  if bs ≠ [0x5A] then none
  ofFields? (century * 100 + year) fields second millis 0 true

/-- Are all bytes visible characters or spaces? -/
def isVisible (contents : Bytes) : Bool :=
  contents.all fun b => 0x20 ≤ b && b ≤ 0x7F

/-- A point in time in either form. -/
def read : Reader ZonedTime := fun bs => do
  let (e, rest) ← readElement bs
  if !isVisible e.contents then none
  if e.tag.number = TagNumber.utcTime then return (← ofShort? e.contents, rest)
  else if e.tag.number = TagNumber.generalizedTime then return (← ofLong? e.contents, rest)
  else none

-- ================================================================ writing

/-- Two decimal digits. -/
def pair (n : Nat) : Bytes :=
  [UInt8.ofNat (48 + n / 10 % 10), UInt8.ofNat (48 + n % 10)]

/-- The digits of all but the year, with the mark of UTC. -/
def writeTail (c : Time.Civil) : Bytes :=
  pair c.date.month ++ pair c.date.day ++ pair c.hour ++ pair c.minute ++ pair c.second ++ [0x5A]

/-- A whole second, in the form that its year calls for. -/
def write (seconds : Int) : Bytes :=
  let c := Time.Civil.ofSeconds seconds
  let year := c.date.year.toNat
  if 1950 ≤ c.date.year ∧ c.date.year < longYear then
    Der.write (.primitive TagNumber.utcTime) (pair (year % 100) ++ writeTail c)
  else
    Der.write (.primitive TagNumber.generalizedTime)
      (pair (year / 100) ++ pair (year % 100) ++ writeTail c)

-- ================================================================ showing

/-- The short names of the months. -/
def monthNames : List String :=
  ["Jan", "Feb", "Mar", "Apr", "May", "Jun", "Jul", "Aug", "Sep", "Oct", "Nov", "Dec"]

/-- Two digits with a filler in front of a single one. -/
def twoDigits (filler : String) (n : Nat) : String :=
  (if n < 10 then filler else "") ++ Text.decimal n

/-- The text of a point in time, in its own zone. -/
def text (t : ZonedTime) : String :=
  let c := Time.Civil.ofSeconds (t.seconds + t.offset * 60)
  let minutes := t.offset.natAbs
  monthNames.getD (c.date.month - 1) "" ++ " " ++ twoDigits " " c.date.day ++ " "
    ++ twoDigits "0" c.hour ++ ":" ++ twoDigits "0" c.minute ++ ":" ++ twoDigits "0" c.second
    ++ " " ++ Text.decimal c.date.year.toNat ++ " " ++ (if t.offset < 0 then "-" else "+")
    ++ twoDigits "0" (minutes / 60) ++ ":" ++ twoDigits "0" (minutes % 60)

end ZonedTime

end Enrollment.Der
