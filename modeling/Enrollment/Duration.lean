/-
Lengths of time, as they are written on a command line and as they are shown.

Written, a duration is a whole number of seconds, minutes or hours.  Shown, it
has the largest unit of which it holds at least one, and no trailing zeros.
-/
import Enrollment.Text.Blank

namespace Enrollment

/-- A length of time. -/
structure Duration where
  seconds : Nat
  nanos : Nat := 0
  deriving Repr, DecidableEq

namespace Duration

/-- A number of milliseconds. -/
def ofMillis (n : Nat) : Duration :=
  ⟨n / 1000, n % 1000 * 1000000⟩

/-- The number of whole milliseconds. -/
def toMillis (d : Duration) : Nat :=
  d.seconds * 1000 + d.nanos / 1000000

-- =============================================================== showing

/-- The digits of `n`, filled up with zeros in front to `width` digits. -/
def digitsTo (width n : Nat) : List Char :=
  let digits := Nat.toDigits 10 n
  List.replicate (width - digits.length) '0' ++ digits

/-- A whole part and a fraction of `places` digits, without trailing zeros. -/
def showDecimal (whole fraction places : Nat) : String :=
  let digits := ((digitsTo places fraction).reverse.dropWhile (· == '0')).reverse
  Text.decimal whole ++ (if digits.isEmpty then "" else "." ++ String.ofList digits)

/-- The text of a duration. -/
def text (d : Duration) : String :=
  if 0 < d.seconds then showDecimal d.seconds d.nanos 9 ++ "s"
  else if 1000000 ≤ d.nanos then showDecimal (d.nanos / 1000000) (d.nanos % 1000000) 6 ++ "ms"
  else if 1000 ≤ d.nanos then showDecimal (d.nanos / 1000) (d.nanos % 1000) 3 ++ "µs"
  else Text.decimal d.nanos ++ "ns"

-- =============================================================== reading

/-- The greatest number of seconds. -/
def maxSeconds : Nat := 2 ^ 64 - 1

/-- Why a text is not a duration; both carry the trimmed text. -/
inductive Fault where
  | malformed (given : String)
  | zero (given : String)
  deriving Repr, DecidableEq

/-- The wording of a fault. -/
def Fault.message : Fault → String
  | .malformed given => "Invalid duration: " ++ given
  | .zero given => "Duration must be positive: " ++ given

/-- The number part of a text and the seconds in its unit. -/
def splitUnit (cs : List Char) : List Char × Nat :=
  match cs.getLast? with
  | some 's' => (cs.dropLast, 1)
  | some 'm' => (cs.dropLast, 60)
  | some 'h' => (cs.dropLast, 3600)
  | _ => (cs, 1)

/-- The duration that a text spells; a number of seconds that is too large
becomes the greatest one. -/
def parse (given : String) : Except Fault Duration :=
  let cs := Text.trim given.toList
  let (number, unit) := splitUnit cs
  match Text.natUpTo? maxSeconds (Text.trim number) with
  | none => .error (.malformed (String.ofList cs))
  | some 0 => .error (.zero (String.ofList cs))
  | some n => .ok ⟨min (n * unit) maxSeconds, 0⟩

end Duration

end Enrollment
