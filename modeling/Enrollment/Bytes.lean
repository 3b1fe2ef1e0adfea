/-
Byte strings as lists, the form every encoding of this library reads and
writes: big-endian numbers, hexadecimal text and fixed-width padding.

Lists and not arrays, because the readers below all take a string from the
left and give back what is left of it, and because the laws about them are
inductions on that left end.
-/

import Enrollment.Power

namespace Enrollment

/-- A string of bytes. -/
abbrev Bytes := List UInt8

namespace Bytes

-- ============================================================ numbers

/-- The number whose base-256 digits these are, most significant first. -/
def toNat (bs : Bytes) : Nat :=
  bs.foldl (fun n b => n * 256 + b.toNat) 0

/-- The `width` lowest base-256 digits of `n`, most significant first, put in
front of `acc`. -/
def ofNatOnto : (width : Nat) → (n : Nat) → (acc : Bytes) → Bytes
  | 0, _, acc => acc
  | width + 1, n, acc => ofNatOnto width (n / 256) (UInt8.ofNat (n % 256) :: acc)

/-- The `width` lowest base-256 digits of `n`, most significant first. -/
def ofNat (width n : Nat) : Bytes :=
  ofNatOnto width n []

/-- How many base-256 digits `n` has; none for zero. -/
def digitCount (n : Nat) : Nat :=
  if n = 0 then 0 else n.log2 / 8 + 1

/-- The base-256 digits of `n` without a leading zero; empty for zero. -/
def minimal (n : Nat) : Bytes :=
  ofNat (digitCount n) n

/-- The number whose base-256 digits these are, least significant first. -/
def toNatLE (bs : Bytes) : Nat :=
  toNat bs.reverse

/-- The `width` lowest base-256 digits of `n`, least significant first. -/
def ofNatLE (width n : Nat) : Bytes :=
  (ofNat width n).reverse

-- ======================================================== hexadecimal

/-- The lower-case hexadecimal digit of a value below sixteen. -/
def hexDigit (n : Nat) : Char :=
  if n < 10 then Char.ofNat (48 + n) else Char.ofNat (87 + n)

/-- The upper-case hexadecimal digit of a value below sixteen. -/
def hexDigitUpper (n : Nat) : Char :=
  if n < 10 then Char.ofNat (48 + n) else Char.ofNat (55 + n)

/-- Two lower-case hexadecimal digits for each byte. -/
def toHex (bs : Bytes) : String :=
  String.ofList (bs.flatMap fun b => [hexDigit (b.toNat / 16), hexDigit (b.toNat % 16)])

/-- Two upper-case hexadecimal digits for each byte. -/
def toHexUpper (bs : Bytes) : String :=
  String.ofList
    (bs.flatMap fun b => [hexDigitUpper (b.toNat / 16), hexDigitUpper (b.toNat % 16)])

/-- The value of a hexadecimal digit in either case. -/
def hexValue? (c : Char) : Option Nat :=
  if '0' ≤ c ∧ c ≤ '9' then some (c.toNat - 48)
  else if 'a' ≤ c ∧ c ≤ 'f' then some (c.toNat - 87)
  else if 'A' ≤ c ∧ c ≤ 'F' then some (c.toNat - 55)
  else none

/-- The byte string that pairs of hexadecimal digits spell. -/
def ofHex? (text : List Char) : Option Bytes :=
  go [] text
where
  /-- Reads pairs of digits, holding the bytes read in reverse. -/
  go (acc : Bytes) : List Char → Option Bytes
    | [] => some acc.reverse
    | hi :: lo :: rest =>
      match hexValue? hi, hexValue? lo with
      | some h, some l => go (UInt8.ofNat (h * 16 + l) :: acc) rest
      | _, _ => none
    | [_] => none

-- ============================================================ strings

/-- The character codes of a text that holds ASCII only. -/
def ofAscii (text : String) : Bytes :=
  text.toList.map fun c => UInt8.ofNat c.toNat

/-- The exclusive or of two strings, position by position. -/
def xor (a b : Bytes) : Bytes :=
  List.zipWith (· ^^^ ·) a b

end Bytes

end Enrollment
