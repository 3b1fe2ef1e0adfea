/-
The shortest decimal that reads back as a given double.

A double is m · 2^q, and the reals that round to it form an interval around
it, whose ends belong to it exactly when m is even.  The grids 10^k are tried
from the coarsest on; the first grid with a point in the interval wins, of two
points the nearer one, and of two equally near ones the even one.
-/
import Enrollment.Text.Blank

namespace Enrollment.Decimal

/-- The number `digits` · 10^`exponent`. -/
structure Scaled where
  digits : Nat
  exponent : Int
  deriving Repr, DecidableEq

/-- A positive number and the interval that rounds to it, as fractions over one
denominator. -/
structure Rounding where
  low : Nat
  value : Nat
  high : Nat
  denominator : Nat
  /-- Do the ends of the interval belong to it? -/
  closed : Bool
  deriving Repr

/-- The interval of m · 2^q; below the least mantissa of its binade the gap is
half as wide. -/
def Rounding.ofParts (m : Nat) (q : Int) (atBinade : Bool) : Rounding :=
  let up := 2 ^ (q - 2).toNat
  let down := 2 ^ (2 - q).toNat
  { low := (4 * m - (if atBinade then 1 else 2)) * up
    value := 4 * m * up
    high := (4 * m + 2) * up
    denominator := down
    closed := m % 2 = 0 }

/-- Does the interval hold a fraction over its denominator? -/
def Rounding.holds (r : Rounding) (scale n : Nat) : Bool :=
  if r.closed then r.low * scale ≤ n && n ≤ r.high * scale
  else r.low * scale < n && n < r.high * scale

/-- The point of the grid 10^k that lies in the interval, nearest the value. -/
def Rounding.onGrid? (r : Rounding) (k : Int) : Option Nat :=
  let scale := 10 ^ (-k).toNat
  let unit := r.denominator * 10 ^ k.toNat
  let value := r.value * scale
  let c := value / unit
  let below := c ≠ 0 && r.holds scale (c * unit)
  let above := r.holds scale ((c + 1) * unit)
  match below, above with
  | true, false => some c
  | false, true => some (c + 1)
  | false, false => none
  | true, true =>
    let twice := 2 * (value - c * unit)
    if twice < unit then some c
    else if unit < twice then some (c + 1)
    else if c % 2 = 0 then some c else some (c + 1)

/-- How many decimal digits a number has. -/
def digitCount (n : Nat) : Nat :=
  (Nat.toDigits 10 n).length

/-- The number without trailing zero digits, of which at most `fuel` are taken
off. -/
def Scaled.trim : (fuel : Nat) → Scaled → Scaled
  | 0, s => s
  | fuel + 1, s =>
    if s.digits ≠ 0 ∧ s.digits % 10 = 0 then Scaled.trim fuel ⟨s.digits / 10, s.exponent + 1⟩
    else s

/-- The shortest decimal in an interval. -/
def Rounding.shortest (r : Rounding) : Scaled :=
  let top : Int :=
    if r.denominator ≤ r.value then digitCount (r.value / r.denominator)
    else 1 - (digitCount (r.denominator / r.value) : Int)
  let grids := (List.range 20).map fun (i : Nat) => top - (i : Int)
  match grids.findSome? fun k => (r.onGrid? k).map fun c => Scaled.mk c k with
  | some s => s.trim 20
  | none => ⟨r.value / r.denominator, 0⟩

/-- The shortest decimal of a positive finite double. -/
def shortest (x : Float) : Scaled :=
  let bits := x.toBits.toNat
  let exponent : Nat := bits / 2 ^ 52 % 2048
  let fraction : Nat := bits % 2 ^ 52
  if exponent = 0 then (Rounding.ofParts fraction (-1074) false).shortest
  else
    let atBinade := fraction = 0 && 1 < exponent
    (Rounding.ofParts (2 ^ 52 + fraction) ((exponent : Int) - 1075) atBinade).shortest

-- ================================================================ layout

/-- How a number is laid out: positionally while the exponent of its first
digit lies in a range, else with an exponent. -/
structure Layout where
  /-- The least exponent of a first digit that is written positionally. -/
  least : Int
  /-- The greatest exponent of a first digit that is written positionally. -/
  greatest : Int

/-- From 10^-5 and below 10^16 a number is written positionally, with at least
one digit behind the point; the exponent of others always has a sign. -/
def Layout.plain : Layout := ⟨-5, 15⟩

/-- The text of a positive number. -/
def Layout.positive (l : Layout) (s : Scaled) : String :=
  let digits := Nat.toDigits 10 s.digits
  let count := digits.length
  let exponent := s.exponent + count - 1
  if l.least ≤ exponent ∧ exponent ≤ l.greatest then
    if 0 ≤ s.exponent then
      String.ofList (digits ++ List.replicate s.exponent.toNat '0' ++ ['.', '0'])
    else if 0 ≤ exponent then
      let whole := exponent.toNat + 1
      String.ofList (digits.take whole ++ '.' :: digits.drop whole)
    else
      String.ofList ('0' :: '.' :: List.replicate (-exponent - 1).toNat '0' ++ digits)
  else
    let mantissa := match digits with
      | d :: e :: rest => d :: '.' :: e :: rest
      | _ => digits
    let sign := if exponent < 0 then '-' else '+'
    String.ofList (mantissa ++ 'e' :: sign :: Nat.toDigits 10 exponent.natAbs)

/-- The text of a finite double. -/
def Layout.text (l : Layout) (x : Float) : String :=
  let negative := 2 ^ 63 ≤ x.toBits.toNat
  let size := if negative then -x else x
  let body := if size == 0 then "0.0" else l.positive (shortest size)
  if negative then "-" ++ body else body

end Enrollment.Decimal
