/-
JSON numbers, read only to be named in a complaint.

A number without fraction and exponent that fits 64 bits is an integer.  Any
other is a double: its digits, as many as fit 64 bits, are rounded to a double
and then multiplied or divided by a power of ten, so the value may be off by a
rounding from the number written.
-/
import Enrollment.Json.Fault
import Enrollment.Decimal.Shortest

namespace Enrollment.Json

/-- The greatest integer of 64 bits. -/
def maxNatural : Nat := 2 ^ 64 - 1

/-- Is the byte a decimal digit? -/
def isDigit (b : UInt8) : Bool :=
  0x30 ≤ b && b ≤ 0x39

/-- The value of a decimal digit. -/
def digitValue (b : UInt8) : Nat :=
  b.toNat - 0x30

/-- The digits of a number that are kept. -/
structure Digits where
  /-- The number they spell, below 2^64. -/
  value : Nat
  /-- The power of ten that it is to be multiplied with. -/
  exponent : Int
  /-- Were digits left out because they did not fit? -/
  full : Bool

/-- Takes one more digit of the whole part. -/
def Digits.pushWhole (d : Digits) (b : UInt8) : Digits :=
  let value := d.value * 10 + digitValue b
  if d.full || maxNatural < value then { d with exponent := d.exponent + 1, full := true }
  else { d with value }

/-- Takes one more digit of the fraction. -/
def Digits.pushFraction (d : Digits) (b : UInt8) : Digits :=
  let value := d.value * 10 + digitValue b
  if d.full || maxNatural < value then { d with full := true }
  else { d with value, exponent := d.exponent - 1 }

/-- The double nearest a power of ten. -/
def powerOfTen (n : Nat) : Float :=
  Float.ofScientific 1 false n

/-- A double times a power of ten, or none when that is too large; powers above
the greatest double are divided out in steps. -/
def scale? (x : Float) (exponent : Int) : Option Float :=
  if 308 < exponent then (if x == 0 then some x else none)
  else if 0 ≤ exponent then
    let y := x * powerOfTen exponent.toNat
    if y.isInf then none else some y
  else
    let n := exponent.natAbs
    let steps := min ((n - 1) / 308) 4
    let y := (List.range steps).foldl (fun y _ => y / powerOfTen 308) x
    if y == 0 then some y else some (y / powerOfTen (n - 308 * steps))

/-- What is found at a number with a sign, kept digits and an exponent. -/
def Digits.found (negative : Bool) (d : Digits) (exponent : Int) : Except Fault Found :=
  match scale? (Float.ofNat d.value) (d.exponent + exponent) with
  | some x => .ok (.real (Decimal.Layout.plain.text (if negative then -x else x)))
  | none => .error .numberRange

/-- What is found at a number whose exponent part starts here. -/
def readExponent (negative : Bool) (d : Digits) (bs : Bytes) : Except Fault Found :=
  let (down, bs) := match bs with
    | 0x2B :: rest => (false, rest)
    | 0x2D :: rest => (true, rest)
    | _ => (false, bs)
  match bs with
  | [] => .error .endInValue
  | b :: _ =>
    if !isDigit b then .error .number
    else
      let e := (bs.takeWhile isDigit).foldl (fun n b => n * 10 + digitValue b) 0
      if 2 ^ 31 ≤ e then
        if d.value ≠ 0 && !down then .error .numberRange
        else .ok (.real (if negative then "-0.0" else "0.0"))
      else d.found negative (if down then -(e : Int) else e)

/-- What is found at a number whose fraction starts here. -/
def readFraction (negative : Bool) (d : Digits) (bs : Bytes) : Except Fault Found :=
  match bs with
  | [] => .error .endInValue
  | b :: _ =>
    if !isDigit b then .error .number
    else
      let d := (bs.takeWhile isDigit).foldl Digits.pushFraction d
      match bs.dropWhile isDigit with
      | 0x65 :: rest | 0x45 :: rest => readExponent negative d rest
      | _ => d.found negative 0

/-- What is found at a number whose whole part has been read. -/
def readTail (negative : Bool) (d : Digits) : Bytes → Except Fault Found
  | 0x2E :: rest => readFraction negative { d with full := false } rest
  | 0x65 :: rest | 0x45 :: rest => readExponent negative d rest
  | _ =>
    if d.full then d.found negative 0
    else if !negative then .ok (.natural d.value)
    else if d.value = 0 || 2 ^ 63 < d.value then d.found true 0
    else .ok (.negative d.value)

/-- What is found at a number after its sign. -/
def readNumber (negative : Bool) (bs : Bytes) : Except Fault Found :=
  match bs with
  | [] => .error .endInValue
  | b :: rest =>
    if b = 0x30 then
      match rest with
      | c :: _ => if isDigit c then .error .number else readTail negative ⟨0, 0, false⟩ rest
      | [] => readTail negative ⟨0, 0, false⟩ rest
    else if isDigit b then
      readTail negative ((bs.takeWhile isDigit).foldl Digits.pushWhole ⟨0, 0, false⟩)
        (bs.dropWhile isDigit)
    else .error .number

end Enrollment.Json
